import GraphAssembly.Json.Shape

/-!
# Records

A record is written as an object or as the list of its members in order. The members are read in the
order in which they are written, so the first mistake in the text is the one reported; a member that
is missing altogether is noticed last.
-/

namespace GraphAssembly.Record

/-- A list that ends before the required member at this position. -/
def tooShort {α : Type} (type : String) (members position : Nat) : Except ShapeError α :=
  let noun := if members = 1 then "element" else "elements"
  .error (.invalidLength position s!"struct {type} with {members} {noun}")

/-- A list that goes on after the last member. -/
def tooLong {α : Type} (length : Nat) : Except ShapeError α :=
  .error (.invalidLength length "fewer elements in array")

def notRecord {α : Type} (type : String) (v : Json) : Except ShapeError α :=
  v.mismatch .byKind ("struct " ++ type)

/-- The value of a required member. -/
def require {α : Type} (name : String) : Option α → Except ShapeError α
  | some a => .ok a
  | none => .error (.missingField name)

end GraphAssembly.Record
