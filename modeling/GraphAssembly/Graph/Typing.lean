import GraphAssembly.Component
import GraphAssembly.Configuration
import GraphAssembly.FieldError

/-!
# Runtime types

A value at an interface or union is of one of its possible object types. Which one is decided, in
this order, by the type that the value was resolved with, by the type it names under the marker
field, by the chooser of the abstract type, and by the discriminants.
-/

namespace GraphAssembly

/-- The fields of each object type. -/
abbrev FieldSets := Dict (List String)

/-- Whether a type other than this one, among the possible ones, has the field. -/
def FieldSets.sharedBeyond (sets : FieldSets) (possible : List String) (type field : String) :
    Bool :=
  possible.any fun other =>
    other ≠ type && ((Dict.get? sets other).getD []).contains field

/-- The first field of a possible type that no other possible type has. -/
def FieldSets.discriminant? (sets : FieldSets) (possible : List String) (type : String) :
    Option String :=
  ((Dict.get? sets type).getD []).find? fun f => !sets.sharedBeyond possible type f

/-- The discriminant of each possible type that has one. -/
def FieldSets.discriminants (sets : FieldSets) (possible : List String) :
    List (String × String) :=
  possible.filterMap fun t => (sets.discriminant? possible t).map fun f => (t, f)

structure Typing (ω : Type) where
  abstractType : String
  possibleTypes : List String
  chooser : Option (TypeChooser ω)
  markerField : String
  discriminants : List (String × String)

namespace Typing

variable {ω : Type}

def make (abstractType : String) (possibleTypes : List String) (sets : FieldSets)
    (chooser : Option (TypeChooser ω)) (c : TypeResolution) : Typing ω where
  abstractType
  possibleTypes
  chooser
  markerField := c.markerField
  discriminants := if c.discriminants then sets.discriminants possibleTypes else []

/-- The first type whose discriminant the value carries. -/
def discriminate (t : Typing ω) (v : Json) : Option String :=
  (t.discriminants.find? fun d => v.hasKey d.2).map (·.1)

/-- What the chooser answers, if there is one. -/
def choose (t : Typing ω) (v : Json) : StateM (Scope ω) (Option String) :=
  match t.chooser with
  | some choose => choose v
  | none => pure none

/-- The type suggested for a value. The chooser is asked only when nothing before it decides. -/
def suggest (t : Typing ω) (static : Option String) (v : Json) :
    StateM (Scope ω) (Option String) :=
  match static.or (v.stringField? t.markerField) with
  | some name => pure (some name)
  | none => do pure ((← t.choose v).or (t.discriminate v))

/-- A suggested type must be a possible one. -/
def accept (t : Typing ω) : Option String → Except FieldError String
  | none => .error (.unresolvedType t.abstractType)
  | some name =>
    if name ∈ t.possibleTypes then .ok name
    else .error (.impossibleType name t.abstractType)

/-- The object type of a value. -/
def resolve (t : Typing ω) (static : Option String) (v : Json) :
    StateM (Scope ω) (Except FieldError String) := do
  pure (t.accept (← t.suggest static v))

theorem mem_possibleTypes_of_accept {t : Typing ω} {suggested : Option String} {name : String}
    (h : t.accept suggested = .ok name) : name ∈ t.possibleTypes := by
  unfold accept at h
  split at h
  · cases h
  · split at h
    · cases h
      assumption
    · cases h

end Typing

end GraphAssembly
