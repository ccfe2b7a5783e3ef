import GraphAssembly.Arguments
import GraphAssembly.Binary64
import GraphAssembly.Binary64.Shortest
import GraphAssembly.Blueprint
import GraphAssembly.Component
import GraphAssembly.Component.Field
import GraphAssembly.Component.Json
import GraphAssembly.Configuration
import GraphAssembly.Configuration.Document
import GraphAssembly.Configuration.JsonSchema
import GraphAssembly.Context
import GraphAssembly.Dict
import GraphAssembly.Execution
import GraphAssembly.Execution.Coercion
import GraphAssembly.Execution.Collection
import GraphAssembly.Execution.Completion
import GraphAssembly.Execution.Run
import GraphAssembly.FieldError
import GraphAssembly.Graph
import GraphAssembly.Graph.Assembly
import GraphAssembly.Graph.Declaration
import GraphAssembly.Graph.Error
import GraphAssembly.Graph.Json
import GraphAssembly.Graph.Link
import GraphAssembly.Graph.Printer
import GraphAssembly.Graph.Typing
import GraphAssembly.Json
import GraphAssembly.Json.Printer
import GraphAssembly.Json.Reader
import GraphAssembly.Json.Record
import GraphAssembly.Json.Shape
import GraphAssembly.Middleware
import GraphAssembly.Middleware.Error
import GraphAssembly.Path
import GraphAssembly.Pipeline
import GraphAssembly.Registry
import GraphAssembly.Registry.Error
import GraphAssembly.Registry.Instance
import GraphAssembly.Registry.Provider
import GraphAssembly.Report
import GraphAssembly.Resolved
import GraphAssembly.Response
import GraphAssembly.Routine
import GraphAssembly.Routine.Join
import GraphAssembly.Routine.Rotation
import GraphAssembly.Schema
import GraphAssembly.Selection
import GraphAssembly.Text.Case
import GraphAssembly.Text.Hidden
import GraphAssembly.Text.Letters
import GraphAssembly.Text.Quoted
import GraphAssembly.Text.Words
import GraphAssembly.Token
import GraphAssembly.TypeRef
import GraphAssembly.Yaml
import GraphAssembly.Yaml.Lexeme
import GraphAssembly.Yaml.Lexeme.Cursor
import GraphAssembly.Yaml.Lexeme.Scalar
import GraphAssembly.Yaml.Lexeme.Tag
import GraphAssembly.Yaml.Reader
import GraphAssembly.Proofs.Assembly.Assembled
import GraphAssembly.Proofs.Assembly.Covariance
import GraphAssembly.Proofs.Assembly.Declared
import GraphAssembly.Proofs.Assembly.Discriminants
import GraphAssembly.Proofs.Assembly.Exactness
import GraphAssembly.Proofs.Assembly.Joined
import GraphAssembly.Proofs.Assembly.Likeness
import GraphAssembly.Proofs.Assembly.Linked
import GraphAssembly.Proofs.Assembly.Parameters
import GraphAssembly.Proofs.Assembly.Providers
import GraphAssembly.Proofs.Assembly.References
import GraphAssembly.Proofs.Assembly.Reordered
import GraphAssembly.Proofs.Assembly.WellFormed
import GraphAssembly.Proofs.Context.Clients
import GraphAssembly.Proofs.Context.Slots
import GraphAssembly.Proofs.Context.Writes
import GraphAssembly.Proofs.Encoding.Responses
import GraphAssembly.Proofs.Encoding.Selections
import GraphAssembly.Proofs.Execution.Apart
import GraphAssembly.Proofs.Execution.Branches
import GraphAssembly.Proofs.Execution.Coercions
import GraphAssembly.Proofs.Execution.Conformance
import GraphAssembly.Proofs.Execution.Congruence
import GraphAssembly.Proofs.Execution.Demands
import GraphAssembly.Proofs.Execution.Equivariance
import GraphAssembly.Proofs.Execution.Footprint
import GraphAssembly.Proofs.Execution.Hints
import GraphAssembly.Proofs.Execution.Internal
import GraphAssembly.Proofs.Execution.Isolation
import GraphAssembly.Proofs.Execution.Literals
import GraphAssembly.Proofs.Execution.Marked
import GraphAssembly.Proofs.Execution.Merged
import GraphAssembly.Proofs.Execution.NullPropagation
import GraphAssembly.Proofs.Execution.Parallel
import GraphAssembly.Proofs.Execution.Positions
import GraphAssembly.Proofs.Execution.Projections
import GraphAssembly.Proofs.Execution.Recordings
import GraphAssembly.Proofs.Execution.Renaming
import GraphAssembly.Proofs.Execution.Requests
import GraphAssembly.Proofs.Execution.RequiredInputs
import GraphAssembly.Proofs.Execution.Rules
import GraphAssembly.Proofs.Execution.RuntimeTypes
import GraphAssembly.Proofs.Execution.Schedules
import GraphAssembly.Proofs.Execution.Selected
import GraphAssembly.Proofs.Execution.Serial
import GraphAssembly.Proofs.Execution.Skeletons
import GraphAssembly.Proofs.Execution.Soundness
import GraphAssembly.Proofs.Execution.Substitution
import GraphAssembly.Proofs.Execution.Unsuspended
import GraphAssembly.Proofs.Pipeline.Chain
import GraphAssembly.Proofs.Pipeline.Courses
import GraphAssembly.Proofs.Pipeline.Determined
import GraphAssembly.Proofs.Pipeline.Layout
import GraphAssembly.Proofs.Printing.Descriptions
import GraphAssembly.Proofs.Printing.Documents
import GraphAssembly.Proofs.Printing.Lexemes
import GraphAssembly.Proofs.Printing.Literals
import GraphAssembly.Proofs.Printing.Names
import GraphAssembly.Proofs.Printing.Roots
import GraphAssembly.Proofs.Printing.Spelling
import GraphAssembly.Proofs.Printing.Unique
import GraphAssembly.Proofs.Registry.Answers
import GraphAssembly.Proofs.Registry.Buildable
import GraphAssembly.Proofs.Registry.Failures
import GraphAssembly.Proofs.Registry.History
import GraphAssembly.Proofs.Registry.Log
import GraphAssembly.Proofs.Registry.Needs
import GraphAssembly.Proofs.Registry.Work
import GraphAssembly.Proofs.Routine.Abreast
import GraphAssembly.Proofs.Routine.Course
import GraphAssembly.Proofs.Routine.Gives
import GraphAssembly.Proofs.Routine.Joins
import GraphAssembly.Proofs.Routine.Leads
import GraphAssembly.Proofs.Routine.Lockstep
import GraphAssembly.Proofs.Routine.Schedules
import GraphAssembly.Proofs.Routine.Strands
import GraphAssembly.Proofs.Routine.Trace
