import GraphAssembly.Blueprint
import GraphAssembly.Graph
import GraphAssembly.Graph.Error

/-!
# Declarations

Before any reference is followed, every named type is entered into a table. A declaration is a node
whose references have not been looked at yet, so types may refer to each other in any order.

1. `Declaration` and the table of them.
2. The declaration of each kind of component. A component that repeats a field is refused.
3. The fragments of one object type are merged: first the definitions, then the implementations.
-/

namespace GraphAssembly

inductive Declaration (ω : Type) where
  | scalar (n : ScalarNode ω)
  | object (n : ObjectNode ω)
  | interface (name : String) (description : Option String) (fields : Dict (FieldNode ω))
      (chooser : Option (TypeChooser ω))
  | union (u : UnionDefinition ω)
  | input (n : InputNode)

namespace Declaration

variable {ω : Type}

def name : Declaration ω → String
  | .scalar n => n.name
  | .object n => n.name
  | .interface name _ _ _ => name
  | .union u => u.name
  | .input n => n.name

def kind : Declaration ω → NodeKind
  | .scalar _ => .scalar
  | .object _ => .object
  | .interface _ _ _ _ => .interface
  | .union _ => .union
  | .input _ => .input

/-- Scalars and inputs may be used for arguments and input fields, all but inputs for fields. -/
def suits (d : Declaration ω) : Usage → Bool
  | .input => d.kind = .scalar || d.kind = .input
  | .output => d.kind ≠ .input

end Declaration

abbrev Declarations (ω : Type) := Dict (Declaration ω)

namespace Declarations

variable {ω : Type}

def declare (t : Declarations ω) (d : Declaration ω) : Except GraphError (Declarations ω) :=
  if Dict.contains t d.name then .error (.duplicateType d.name)
  else .ok (t ++ [(d.name, d)])

def object? (t : Declarations ω) (name : String) : Option (ObjectNode ω) :=
  match Dict.get? t name with
  | some (.object n) => some n
  | _ => none

def builtins : Declarations ω :=
  TypeRef.builtinNames.map fun name => (name, .scalar ⟨name, none, none⟩)

end Declarations

/-! ## Fields -/

section Fields

variable {ω : Type}

/-- A field that reads the property of its name. -/
def FieldNode.plain (name : String) (spec : FieldSpec) : FieldNode ω where
  name
  description := spec.description
  type := .ofSpec spec
  arguments := []
  source := .property

def InputValue.make (name : String) (spec : FieldSpec) : InputValue where
  name
  description := spec.description
  type := .ofSpec spec

/-- The arguments of a field. A repeated parameter keeps its first place and its last type. -/
def Parameter.inputValues (ps : List Parameter) : Dict InputValue :=
  Dict.ofList (ps.map fun p => (p.name, InputValue.make p.name p.type))

/-- The bindings in force: those of the resolver if it has any, otherwise those of the type. -/
def Resolver.bindingsInForce (r : Resolver ω) (typeBindings : List (Binding ω)) :
    List (Binding ω) :=
  if r.bindings.isEmpty then typeBindings else r.bindings

def FieldNode.resolved (name : String) (r : Resolver ω) (typeBindings : List (Binding ω)) :
    FieldNode ω where
  name
  description := r.field.description
  type := .ofSpec r.field
  arguments := Parameter.inputValues r.parameters
  source := .method r (r.bindingsInForce typeBindings)

end Fields

/-- The entries of members that repeat no name. -/
def Members.checked {α : Type} (m : Members α) (parent : String) : Except GraphError (Dict α) :=
  match m.duplicates with
  | [] => .ok m.entries
  | field :: _ => .error (.duplicateField field parent)

/-! ## Components -/

namespace Declaration

variable {ω : Type}

def ofInterface (i : InterfaceDefinition ω) : Except GraphError (Declaration ω) := do
  let fields ← i.fields.checked i.name
  pure (.interface i.name i.description (fields.map fun (n, f) => (n, .plain n f)) i.chooser)

def ofInput (i : InputDefinition) : Except GraphError (Declaration ω) := do
  let fields ← i.fields.checked i.name
  pure (.input ⟨i.name, i.description, fields.map fun (n, f) => (n, .make n f)⟩)

/-- The codec of a scalar is an instance of the registry. -/
def ofScalar (r : Registry ω) (s : ScalarDefinition ω) :
    ExceptT GraphError (StateM (Workshop ω)) (Declaration ω) := do
  let i ← ExceptT.adapt GraphError.resolution (r.resolve s.codec)
  match i.asCodec? with
  | some codec => pure (.scalar ⟨s.name, s.description, some codec⟩)
  | none => throw (.resolution (.typeMismatch s.codec "scalar codec"))

end Declaration

/-! ## Fragments -/

namespace Fragments

variable {ω : Type}

/-- Adds the fields of one fragment to those of the fragments before it. -/
def addFields (parent : String) (fields added : Dict (FieldNode ω)) :
    Except GraphError (Dict (FieldNode ω)) :=
  match added.find? fun f => Dict.contains fields f.1 with
  | some (name, _) => .error (.duplicateField name parent)
  | none => .ok (fields ++ added)

def addDefinition (fields : Dict (FieldNode ω)) (d : ObjectDefinition) :
    Except GraphError (Dict (FieldNode ω)) := do
  let declared ← d.fields.checked d.name
  addFields d.name fields (declared.map fun (n, f) => (n, .plain n f))

def addImplementation (fields : Dict (FieldNode ω)) (i : ObjectImplementation ω) :
    Except GraphError (Dict (FieldNode ω)) := do
  let declared ← i.resolvers.checked i.name
  addFields i.name fields (declared.map fun (n, r) => (n, .resolved n r i.bindings))

def descriptions (f : Fragments ω) : List String :=
  f.definitions.filterMap (·.description) ++ f.implementations.filterMap (·.description)

/-- The descriptions of all fragments, one under the other. -/
def description (f : Fragments ω) : Option String :=
  if f.descriptions.isEmpty then none else some ("\n".intercalate f.descriptions)

def implements (f : Fragments ω) : List String :=
  firstOccurrences
    (f.definitions.flatMap (·.implements) ++ f.implementations.flatMap (·.implements))

/-- The object type that the fragments declare together. -/
def merge (name : String) (f : Fragments ω) : Except GraphError (ObjectNode ω) := do
  let fields ← f.definitions.foldlM addDefinition []
  let fields ← f.implementations.foldlM addImplementation fields
  pure ⟨name, f.description, fields, f.implements⟩

end Fragments

/-! ## The whole table -/

namespace Declarations

variable {ω : Type}

def addInterface (t : Declarations ω) (i : InterfaceDefinition ω) :
    Except GraphError (Declarations ω) := do
  t.declare (← Declaration.ofInterface i)

def addInput (t : Declarations ω) (i : InputDefinition) : Except GraphError (Declarations ω) := do
  t.declare (← Declaration.ofInput i)

def addScalar (r : Registry ω) (t : Declarations ω) (s : ScalarDefinition ω) :
    ExceptT GraphError (StateM (Workshop ω)) (Declarations ω) := do
  let d ← Declaration.ofScalar r s
  ExceptT.mk (pure (t.declare d))

def addObject (t : Declarations ω) (fragments : String × Fragments ω) :
    Except GraphError (Declarations ω) := do
  t.declare (.object (← fragments.2.merge fragments.1))

/-- Declares the built-in scalars and then every part: interfaces, unions, inputs, scalars and
object types. -/
def ofParts (r : Registry ω) (p : Parts ω) :
    ExceptT GraphError (StateM (Workshop ω)) (Declarations ω) := do
  let t ← ExceptT.mk (pure (p.interfaces.foldlM addInterface builtins))
  let t ← ExceptT.mk (pure (p.unions.foldlM (fun t u => t.declare (.union u)) t))
  let t ← ExceptT.mk (pure (p.inputs.foldlM addInput t))
  let t ← p.scalars.foldlM (addScalar r) t
  ExceptT.mk (pure (p.objects.foldlM addObject t))

end Declarations

end GraphAssembly
