import GraphAssembly.Json
import GraphAssembly.Json.Printer
import GraphAssembly.Text.Quoted

/-!
# Typed reading

Reading a JSON value as a value of some type either succeeds or names what was found and what was
expected.

1. `Found` and `ShapeError`: the causes of a mismatch and their wording.
2. Readers for the plain types. A number of the wrong type is described by its kind or, where
   `Naming` asks for it, always as a float.
3. `Shape`: a type whose values are kept as JSON.
-/

namespace GraphAssembly

/-- What a reader met. -/
inductive Found where
  | null
  | boolean (value : Bool)
  | integer (value : Int)
  | float (value : Binary64)
  | text (value : String)
  | sequence
  | map
  | bareVariant
deriving DecidableEq

def Found.message : Found → String
  | .null => "null"
  | .boolean true => "boolean `true`"
  | .boolean false => "boolean `false`"
  | .integer i => s!"integer `{i}`"
  | .float x => "floating point `" ++ Number.layout.write x ++ "`"
  | .text s => s!"string {Text.quote s}"
  | .sequence => "sequence"
  | .map => "map"
  | .bareVariant => "unit variant"

inductive ShapeError where
  | invalidType (found : Found) (expected : String)
  | invalidValue (found : Found) (expected : String)
  | invalidLength (length : Nat) (expected : String)
  | unknownVariant (name : String) (allowed : List String)
  | unknownField (name : String) (allowed : List String)
  | missingField (name : String)
  /-- No variant of an enumeration without tags accepts the value. -/
  | noVariant (type : String)
  /-- A value cannot be kept as JSON. -/
  | unstorable (reason : String)
deriving DecidableEq

namespace ShapeError

/-- One name stands alone, two are joined by "or", more are listed. -/
def oneOf (names : List String) : String :=
  match names.map fun n => s!"`{n}`" with
  | [] => "nothing"
  | [a] => a
  | [a, b] => s!"{a} or {b}"
  | names => "one of " ++ ", ".intercalate names

def message : ShapeError → String
  | .invalidType found expected => s!"invalid type: {found.message}, expected {expected}"
  | .invalidValue found expected => s!"invalid value: {found.message}, expected {expected}"
  | .invalidLength length expected => s!"invalid length {length}, expected {expected}"
  | .unknownVariant name allowed => s!"unknown variant `{name}`, expected {oneOf allowed}"
  | .unknownField name allowed => s!"unknown field `{name}`, expected {oneOf allowed}"
  | .missingField name => s!"missing field `{name}`"
  | .noVariant type => s!"data did not match any variant of untagged enum {type}"
  | .unstorable reason => reason

end ShapeError

/-! ## Readers -/

/-- How a number of the wrong type is described. -/
inductive Naming where
  | byKind
  | asFloat
deriving DecidableEq

namespace Json

def found (naming : Naming) : Json → Found
  | .null => .null
  | .bool b => .boolean b
  | .num (.float x) => .float x
  | .num (.int i) =>
    match naming with
    | .byKind => .integer i
    | .asFloat => .float (Number.toBinary64 (.int i))
  | .str s => .text s
  | .arr _ => .sequence
  | .obj _ => .map

def mismatch {α : Type} (naming : Naming) (v : Json) (expected : String) : Except ShapeError α :=
  .error (.invalidType (v.found naming) expected)

/-- An integer within bounds; a float is never one. -/
def readInt (naming : Naming) (type : String) (least most : Int) : Json → Except ShapeError Int
  | .num (.int i) =>
    if least ≤ i ∧ i ≤ most then .ok i else .error (.invalidValue (.integer i) type)
  | v => v.mismatch naming type

/-- A float; integers are rounded to the nearest one. -/
def readFloat (naming : Naming) (type : String) : Json → Except ShapeError Binary64
  | .num n => .ok n.toBinary64
  | v => v.mismatch naming type

def readBool (naming : Naming) : Json → Except ShapeError Bool
  | .bool b => .ok b
  | v => v.mismatch naming "a boolean"

def readString (naming : Naming) : Json → Except ShapeError String
  | .str s => .ok s
  | v => v.mismatch naming "a string"

def readList {α : Type} (naming : Naming) (read : Json → Except ShapeError α) :
    Json → Except ShapeError (List α)
  | .arr items => items.mapM read
  | v => v.mismatch naming "a sequence"

def readDict {α : Type} (naming : Naming) (read : Json → Except ShapeError α) :
    Json → Except ShapeError (Dict α)
  | .obj entries => entries.mapM fun (k, v) => do pure (k, ← read v)
  | v => v.mismatch naming "a map"

def readOption {α : Type} (read : Json → Except ShapeError α) : Json → Except ShapeError (Option α)
  | .null => .ok none
  | v => (read v).map some

theorem readList_map {α : Type} {naming : Naming} {read : Json → Except ShapeError α}
    {write : α → Json} (h : ∀ a, read (write a) = .ok a) (as : List α) :
    readList naming read (.arr (as.map write)) = .ok as := by
  unfold readList
  dsimp only
  induction as with
  | nil => rfl
  | cons a as ih =>
    rw [List.map_cons, List.mapM_cons, h, ih]
    rfl

theorem readDict_ok (naming : Naming) (entries : Dict Json) :
    readDict naming .ok (.obj entries) = .ok entries := by
  unfold readDict
  dsimp only
  induction entries with
  | nil => rfl
  | cons entry entries ih =>
    rw [List.mapM_cons, ih]
    rfl

end Json

/-! ## Shapes -/

/-- A type whose values are kept as JSON. -/
structure Shape (α : Type) where
  read : Json → Except ShapeError α
  write : α → Except ShapeError Json

namespace Shape

variable {α : Type}

/-- What is written can be read, though not always as what it was. -/
def Readable (shape : Shape α) : Prop :=
  ∀ a v, shape.write a = .ok v → ∃ b, shape.read v = .ok b

def integer (type : String) (least most : Int) : Shape Int :=
  ⟨Json.readInt .asFloat type least most, fun i => .ok (.int i)⟩

def i64 : Shape Int :=
  integer "i64" (-9223372036854775808) 9223372036854775807

def i32 : Shape Int := integer "i32" (-2147483648) 2147483647

def u8 : Shape Int := integer "u8" 0 255

def f64 : Shape Binary64 := ⟨Json.readFloat .asFloat "f64", fun x => .ok (.num (.float x))⟩

def bool : Shape Bool := ⟨Json.readBool .asFloat, fun b => .ok (.bool b)⟩

def string : Shape String := ⟨Json.readString .asFloat, fun s => .ok (.str s)⟩

def json : Shape Json := ⟨.ok, .ok⟩

def list (item : Shape α) : Shape (List α) :=
  ⟨Json.readList .asFloat item.read, fun xs => (xs.mapM item.write).map .arr⟩

def dict (item : Shape α) : Shape (Dict α) :=
  ⟨Json.readDict .asFloat item.read,
    fun d => (d.mapM fun (pair : String × α) => do pure (pair.1, ← item.write pair.2)).map .obj⟩

def option (item : Shape α) : Shape (Option α) :=
  ⟨Json.readOption item.read, fun
    | none => .ok .null
    | some a => item.write a⟩

end Shape

end GraphAssembly
