import GraphAssembly.Pipeline
import GraphAssembly.Routine.Join

/-!
# The state of a run

While a request is executed, its fields share the world, the list of errors recorded so far, and a
journal of what was resolved at which position. The journal is for a developer, and for statements
about a run; nothing in a run reads it.
-/

namespace GraphAssembly

/-- An error and the position at which it was recorded. -/
structure Located where
  error : FieldError
  path : Path
deriving DecidableEq

inductive Event where
  /-- The field at the position was asked for its value. -/
  | resolved (path : Path) (outcome : Except FieldError Resolved)
  /-- The value was completed at the position. -/
  | completed (path : Path) (value : Resolved)
  /-- The value at the position was found to be of the object type. -/
  | typed (path : Path) (objectType : String)
  /-- The codec of a custom scalar gave the value for the position. -/
  | serialized (path : Path) (value : Json)

structure Run (ω : Type) where
  world : World ω
  /-- In the order in which they were recorded. -/
  errors : List Located := []
  /-- The latest event first. -/
  journal : List Event := []

/-- A completed value, or nothing when the position must be null up to the nearest nullable parent.
The cause is recorded already. -/
abbrev Outcome := Option Json

namespace Run

variable {ω : Type}

def withWorld (w : World ω) (s : Run ω) : Run ω := { s with world := w }

def record (e : FieldError) (p : Path) : Routine (Run ω) Unit :=
  Routine.modify fun s => { s with errors := s.errors ++ [⟨e, p⟩] }

def note (e : Event) : Routine (Run ω) Unit :=
  Routine.modify fun s => { s with journal := e :: s.journal }

/-- Records the error and gives no value. -/
def fail (e : FieldError) (p : Path) : Routine (Run ω) Outcome := do
  record e p
  pure none

/-- A routine over the world. -/
def inWorld {α : Type} (r : Routine (World ω) α) : Routine (Run ω) α :=
  r.zoom Run.world Run.withWorld

/-- A computation over the state of the code behind a field. -/
def inUser {α : Type} (m : StateM ω α) : Routine (Run ω) α :=
  inWorld ((Routine.ofState m).zoom World.user World.withUser)

/-- A computation over what the code behind a field can see. -/
def inScope {α : Type} (m : StateM (Scope ω) α) : Routine (Run ω) α :=
  inWorld ((Routine.ofState m).zoom World.scope World.withScope)

end Run

end GraphAssembly
