import GraphAssembly.Json

/-!
# Resolved values

What the method of a field answers with, before it is completed at the type of the field.
-/

namespace GraphAssembly

inductive Resolved where
  /-- A plain value; null stands for no value. -/
  | value (v : Json)
  /-- A value known to be of an object type. -/
  | typed (typeName : String) (v : Json)
  | list (items : List Resolved)
deriving Inhabited

namespace Resolved

def null : Resolved := .value .null

/-- Only the plain null is null: a typed value never is. -/
def isNull : Resolved → Bool
  | .value .null => true
  | _ => false

def typeName? : Resolved → Option String
  | .typed name _ => some name
  | _ => none

mutual

/-- The value as JSON, for a developer to read. -/
def toJson : Resolved → Json
  | .value v => .obj [("value", v)]
  | .typed name v => .obj [("typed", .arr [.str name, v])]
  | .list items => .obj [("list", .arr (toJsonAll items))]

def toJsonAll : List Resolved → List Json
  | [] => []
  | r :: rest => toJson r :: toJsonAll rest

end

@[simp] theorem isNull_eq_true {r : Resolved} : r.isNull = true ↔ r = .null := by
  cases r with
  | value v => cases v <;> simp [isNull, null]
  | typed name v => simp [isNull, null]
  | list items => simp [isNull, null]

end Resolved

end GraphAssembly
