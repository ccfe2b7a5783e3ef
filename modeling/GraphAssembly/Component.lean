import GraphAssembly.Arguments
import GraphAssembly.Middleware
import GraphAssembly.Resolved

/-!
# Components

The pieces that a graph is assembled from. An object type may be declared in several fragments:
definitions, whose fields are read from the value of the object, and implementations, whose fields
have resolvers.
-/

namespace GraphAssembly

/-- Chooses the object type of a value of an abstract type. -/
abbrev TypeChooser (ω : Type) := Json → StateM (Scope ω) (Option String)

/-- The code behind a field, called with the instance of its implementation. -/
abbrev Method (ω : Type) := Instance ω → Arguments → Routine (Scope ω) (Except String Resolved)

structure Resolver (ω : Type) where
  name : String
  field : FieldSpec
  instanceToken : Token
  parameters : List Parameter
  bindings : List (Binding ω)
  method : Method ω

structure ObjectDefinition where
  name : String
  description : Option String := none
  fields : Members FieldSpec := {}
  implements : List String := []

structure ObjectImplementation (ω : Type) where
  name : String
  instanceToken : Token
  description : Option String := none
  implements : List String := []
  resolvers : Members (Resolver ω) := {}
  bindings : List (Binding ω) := []
  /-- The provider of the instance, when the implementation brings it with it. -/
  provider : Option (Provider ω) := none

structure InterfaceDefinition (ω : Type) where
  name : String
  description : Option String := none
  fields : Members FieldSpec := {}
  chooser : Option (TypeChooser ω) := none

structure UnionDefinition (ω : Type) where
  name : String
  description : Option String := none
  members : List String := []
  chooser : Option (TypeChooser ω) := none

structure InputDefinition where
  name : String
  description : Option String := none
  fields : Members FieldSpec := {}

structure ScalarDefinition (ω : Type) where
  name : String
  description : Option String := none
  codec : Token
  provider : Option (Provider ω) := none

inductive Component (ω : Type) where
  | definition (d : ObjectDefinition)
  | implementation (i : ObjectImplementation ω)
  | interface (i : InterfaceDefinition ω)
  | union (u : UnionDefinition ω)
  | input (i : InputDefinition)
  | scalar (s : ScalarDefinition ω)
  | middleware (token : Token)
  | unannotated (name : String)

inductive ComponentKind where
  | objectDefinition
  | objectImplementation
  | interface
  | union
  | input
  | scalar
  | middleware
  | unannotated
deriving DecidableEq

variable {ω : Type}

/-- A method that works on values of one type of the host. -/
def Method.onType (field typeName : String)
    (body : Held → Arguments → Routine (Scope ω) (Except String Resolved)) : Method ω :=
  fun i args =>
    match i.asType? typeName with
    | some held => body held args
    | none =>
      pure (.error s!"implementation instance for field '{field}' is not a {typeName}")

/-- Adds a resolver, which takes the instance of the implementation. -/
def ObjectImplementation.addResolver (i : ObjectImplementation ω) (r : Resolver ω) :
    ObjectImplementation ω :=
  { i with resolvers := i.resolvers.add r.name { r with instanceToken := i.instanceToken } }

/-- Lists a member of a union once. -/
def UnionDefinition.addMember (u : UnionDefinition ω) (typeName : String) : UnionDefinition ω :=
  if typeName ∈ u.members then u else { u with members := u.members ++ [typeName] }

namespace Component

def kind : Component ω → ComponentKind
  | .definition _ => .objectDefinition
  | .implementation _ => .objectImplementation
  | .interface _ => .interface
  | .union _ => .union
  | .input _ => .input
  | .scalar _ => .scalar
  | .middleware _ => .middleware
  | .unannotated _ => .unannotated

def name : Component ω → String
  | .definition d => d.name
  | .implementation i => i.name
  | .interface i => i.name
  | .union u => u.name
  | .input i => i.name
  | .scalar s => s.name
  | .middleware t => t.name
  | .unannotated n => n

end Component

end GraphAssembly
