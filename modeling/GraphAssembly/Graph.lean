import GraphAssembly.Graph.Typing

/-!
# Graphs

An assembled set of named types. Every reference of a field, argument or input field names a node of
the graph, and every abstract type knows its possible types.
-/

namespace GraphAssembly

/-- An argument or an input field. -/
structure InputValue where
  name : String
  description : Option String
  type : TypeRef
deriving DecidableEq

/-- Where the value of a field comes from. -/
inductive FieldSource (ω : Type) where
  /-- The property of the parent value with the name of the field. -/
  | property
  /-- A method, after the middleware in force. -/
  | method (resolver : Resolver ω) (bindings : List (Binding ω))

structure FieldNode (ω : Type) where
  name : String
  description : Option String
  type : TypeRef
  arguments : Dict InputValue
  source : FieldSource ω

structure ScalarNode (ω : Type) where
  name : String
  description : Option String
  /-- A built-in scalar has none. -/
  codec : Option (Codec ω)

structure ObjectNode (ω : Type) where
  name : String
  description : Option String
  fields : Dict (FieldNode ω)
  implements : List String

structure InterfaceNode (ω : Type) where
  name : String
  description : Option String
  fields : Dict (FieldNode ω)
  typing : Typing ω

structure UnionNode (ω : Type) where
  name : String
  description : Option String
  typing : Typing ω

structure InputNode where
  name : String
  description : Option String
  fields : Dict InputValue

inductive Node (ω : Type) where
  | scalar (n : ScalarNode ω)
  | object (n : ObjectNode ω)
  | interface (n : InterfaceNode ω)
  | union (n : UnionNode ω)
  | input (n : InputNode)

namespace Node

variable {ω : Type}

def name : Node ω → String
  | .scalar n => n.name
  | .object n => n.name
  | .interface n => n.name
  | .union n => n.name
  | .input n => n.name

def description : Node ω → Option String
  | .scalar n => n.description
  | .object n => n.description
  | .interface n => n.description
  | .union n => n.description
  | .input n => n.description

/-- How the object type of a value is found, for interfaces and unions. -/
def typing? : Node ω → Option (Typing ω)
  | .interface n => some n.typing
  | .union n => some n.typing
  | _ => none

end Node

structure Graph (ω : Type) where
  nodes : Dict (Node ω)
  query : String
  mutation : Option String

namespace Graph

variable {ω : Type}

def node? (g : Graph ω) (name : String) : Option (Node ω) := Dict.get? g.nodes name

def object? (g : Graph ω) (name : String) : Option (ObjectNode ω) :=
  match g.node? name with
  | some (.object n) => some n
  | _ => none

theorem object?_eq_some_iff {g : Graph ω} {name : String} {o : ObjectNode ω} :
    g.object? name = some o ↔ g.node? name = some (.object o) := by
  unfold object?
  split
  · simp [*]
  · rename_i hn
    exact ⟨nofun, fun h => absurd h (hn o)⟩

/-- A field of an object or an interface. -/
def field? (g : Graph ω) (type name : String) : Option (FieldNode ω) :=
  match g.node? type with
  | some (.object n) => Dict.get? n.fields name
  | some (.interface n) => Dict.get? n.fields name
  | _ => none

def typing? (g : Graph ω) (name : String) : Option (Typing ω) :=
  (g.node? name).bind Node.typing?

/-- The possible object types of an interface or union. -/
def possibleTypes (g : Graph ω) (name : String) : List String :=
  match g.typing? name with
  | some t => t.possibleTypes
  | none => []

/-- Whether the second type is the first one or one of its possible types. -/
def isSubtype (g : Graph ω) (abstractType maybeSubtype : String) : Bool :=
  abstractType = maybeSubtype || (g.possibleTypes abstractType).contains maybeSubtype

end Graph

end GraphAssembly
