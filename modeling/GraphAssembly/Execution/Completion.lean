import GraphAssembly.Execution.Run

/-!
# Completion

A resolved value is completed at the declared type of its field.

1. A position that must not be null turns null into an error; one that may be null absorbs the
   errors of its content.
2. The items of a list are completed as a concurrent set, each at its index.
3. A named type is a scalar, an object, or an abstract type whose value first gets an object type.
-/

namespace GraphAssembly

/-- What execution goes by: the schema, and how sibling fields and the items of lists are joined. -/
structure Executor (ω : Type) where
  schema : Schema ω
  siblings : Routine.Join (Run ω) Outcome
  items : Routine.Join (Run ω) Outcome

/-- Executes the selections of a position on an object, from its value and its path. -/
abbrev OnObject (ω : Type) := ObjectNode ω → Json → Path → Routine (Run ω) Outcome

namespace Executor

variable {ω : Type}

def graph (e : Executor ω) : Graph ω := e.schema.graph

/-! ## Nullability -/

/-- A null at a position that must not be null is an error of its field. -/
def required (label : String) (p : Path) (r : Routine (Run ω) Outcome) :
    Routine (Run ω) Outcome := do
  match ← r with
  | none => pure none
  | some v => if v.isNull then Run.fail (.nullValue label) p else pure (some v)

/-- A position that may be null is null when its content has no value. -/
def absorbed (r : Routine (Run ω) Outcome) : Routine (Run ω) Outcome := do
  match ← r with
  | none => pure (some .null)
  | some v => pure (some v)

/-- What a field gives whose value was not found. -/
def nullFor (t : TypeRef) : Outcome := if t.isNonNull then none else some .null

/-- All values, or none if one is missing. -/
def gather (outcomes : List Outcome) : Option (List Json) := outcomes.mapM id

/-! ## Named types -/

def invalid (t : TypeRef) (fault : ValueFault) (p : Path) : Routine (Run ω) Outcome :=
  Run.fail (.invalidValue t.text fault) p

def completeObject (onObject : OnObject ω) (o : ObjectNode ω) (v : Json) (p : Path) :
    Routine (Run ω) Outcome :=
  if v.isObject then onObject o v p
  else Run.fail (.invalidValue o.name (.notObject v)) p

def completeCustom (t : TypeRef) (c : Codec ω) (v : Json) (p : Path) :
    Routine (Run ω) Outcome := do
  match ← Run.inUser (c.serialize v) with
  | .error reason => invalid t (.refused reason) p
  | .ok out => do
    Run.note (.serialized p out)
    pure (some out)

def completeAbstract (e : Executor ω) (onObject : OnObject ω) (t : TypeRef) (typing : Typing ω)
    (static : Option String) (v : Json) (p : Path) : Routine (Run ω) Outcome := do
  match ← Run.inScope (typing.resolve static v) with
  | .error error => Run.fail error p
  | .ok runtimeType => do
    Run.note (.typed p runtimeType)
    match e.graph.object? runtimeType with
    | some o => completeObject onObject o v p
    | none => invalid t (.notObjectType runtimeType) p

/-- A value at a type that is neither a list nor marked as never null. -/
def completeNamed (e : Executor ω) (onObject : OnObject ω) (t : TypeRef) (static : Option String)
    (v : Json) (p : Path) : Routine (Run ω) Outcome :=
  if t.isBuiltin then
    if t.accepts v then pure (some v) else invalid t (.notBuiltin v t) p
  else match e.graph.node? t.baseName with
    | some (.scalar ⟨_, _, some c⟩) => completeCustom t c v p
    | some (.object o) => completeObject onObject o v p
    | some (.interface n) => completeAbstract e onObject t n.typing static v p
    | some (.union n) => completeAbstract e onObject t n.typing static v p
    | _ => invalid t .notOutputType p

/-- A resolved value that is not null, at such a type. -/
def completeSingle (e : Executor ω) (onObject : OnObject ω) (t : TypeRef) (r : Resolved)
    (p : Path) : Routine (Run ω) Outcome :=
  match r with
  | .list _ => invalid t .unexpectedList p
  | .value v => completeNamed e onObject t none v p
  | .typed name v => completeNamed e onObject t (some name) v p

/-! ## Lists -/

/-- The items of a resolved list. Those of a typed array are of the same type. -/
def items? : Resolved → Option (List Resolved)
  | .list items => some items
  | .value (.arr vs) => some (vs.map .value)
  | .typed name (.arr vs) => some (vs.map (.typed name))
  | _ => none

/-- The items of a list are completed together; one that has no value leaves the list without. -/
def completeItems (e : Executor ω) (complete : Resolved → Path → Routine (Run ω) Outcome)
    (rs : List Resolved) (p : Path) : Routine (Run ω) Outcome := do
  let outcomes ← e.items (rs.mapIdx fun i r => complete r (p.join (.index i)))
  pure ((gather outcomes).map .arr)

def completeList (e : Executor ω) (complete : Resolved → Path → Routine (Run ω) Outcome)
    (t : TypeRef) (r : Resolved) (p : Path) : Routine (Run ω) Outcome :=
  match items? r with
  | none => invalid t .expectedList p
  | some rs => completeItems e complete rs p

/-! ## Any type -/

/-- A resolved null is null, whatever the type. -/
def unlessNull (complete : Resolved → Path → Routine (Run ω) Outcome) (r : Resolved) (p : Path) :
    Routine (Run ω) Outcome := do
  Run.note (.completed p r)
  if r.isNull then pure (some .null) else complete r p

/-- A resolved value at a type, before it is decided whether the position may be null. -/
def completeInner (e : Executor ω) (label : String) (onObject : OnObject ω) :
    TypeRef → Resolved → Path → Routine (Run ω) Outcome
  | .nonNull inner => unlessNull fun r p =>
    required label p (e.completeInner label onObject inner r p)
  | .list (.nonNull item) => unlessNull <| completeList e
    (fun r p => required label p (e.completeInner label onObject item r p)) (.list (.nonNull item))
  | .list item => unlessNull <| completeList e
    (fun r p => absorbed (e.completeInner label onObject item r p)) (.list item)
  | t => unlessNull <| completeSingle e onObject t

/-- A resolved value at the type of its position. -/
def complete (e : Executor ω) (label : String) (onObject : OnObject ω) (t : TypeRef) (r : Resolved)
    (p : Path) : Routine (Run ω) Outcome :=
  match t with
  | .nonNull inner => required label p (e.completeInner label onObject inner r p)
  | t => absorbed (e.completeInner label onObject t r p)

end Executor

end GraphAssembly
