import GraphAssembly.Dict
import GraphAssembly.Binary64

/-!
# JSON values

Numbers keep the kind they were written with: an integer of the 64-bit ranges, or a binary64. The
entries of an object keep their order. Two values are equal only if they are written alike, so `1`
and `1.0` differ, and so do two objects whose keys stand in different orders.
-/

namespace GraphAssembly

/-- An integer lies between `-2 ^ 63` and `2 ^ 64 - 1`, a binary64 is finite. -/
inductive Number where
  | int (value : Int)
  | float (value : Binary64)
deriving DecidableEq, Inhabited

inductive Json where
  | null
  | bool (value : Bool)
  | num (value : Number)
  | str (value : String)
  | arr (items : List Json)
  | obj (entries : List (String × Json))
deriving Inhabited

/-- The integers a number can hold exactly as written. -/
def Number.IsRepresentable (i : Int) : Prop :=
  -9223372036854775808 ≤ i ∧ i ≤ 18446744073709551615

instance (i : Int) : Decidable (Number.IsRepresentable i) :=
  inferInstanceAs (Decidable (_ ∧ _))

/-- The number as a binary64, integers rounded to the nearest one. -/
def Number.toBinary64 : Number → Binary64
  | .int i => (Binary64.ofInt? i).getD ⟨0⟩
  | .float x => x

namespace Json

/-! ## Equality -/

mutual

def decEq : (a b : Json) → Decidable (a = b)
  | .null, .null => isTrue rfl
  | .bool x, .bool y => decidable_of_iff (x = y) (by simp)
  | .num x, .num y => decidable_of_iff (x = y) (by simp)
  | .str x, .str y => decidable_of_iff (x = y) (by simp)
  | .arr xs, .arr ys => @decidable_of_iff _ (xs = ys) (by simp) (decEqItems xs ys)
  | .obj xs, .obj ys => @decidable_of_iff _ (xs = ys) (by simp) (decEqEntries xs ys)
  | .null, .bool _ | .null, .num _ | .null, .str _ | .null, .arr _ | .null, .obj _
  | .bool _, .null | .bool _, .num _ | .bool _, .str _ | .bool _, .arr _ | .bool _, .obj _
  | .num _, .null | .num _, .bool _ | .num _, .str _ | .num _, .arr _ | .num _, .obj _
  | .str _, .null | .str _, .bool _ | .str _, .num _ | .str _, .arr _ | .str _, .obj _
  | .arr _, .null | .arr _, .bool _ | .arr _, .num _ | .arr _, .str _ | .arr _, .obj _
  | .obj _, .null | .obj _, .bool _ | .obj _, .num _ | .obj _, .str _ | .obj _, .arr _ =>
    isFalse nofun

def decEqItems : (xs ys : List Json) → Decidable (xs = ys)
  | [], [] => isTrue rfl
  | [], _ :: _ => isFalse nofun
  | _ :: _, [] => isFalse nofun
  | x :: xs, y :: ys =>
    match decEq x y, decEqItems xs ys with
    | isTrue h, isTrue hs => isTrue (by rw [h, hs])
    | isFalse h, _ => isFalse (fun e => h (List.cons.inj e).1)
    | _, isFalse hs => isFalse (fun e => hs (List.cons.inj e).2)

def decEqEntries : (xs ys : List (String × Json)) → Decidable (xs = ys)
  | [], [] => isTrue rfl
  | [], _ :: _ => isFalse nofun
  | _ :: _, [] => isFalse nofun
  | (k, x) :: xs, (l, y) :: ys =>
    match decEqEntries xs ys, (inferInstance : Decidable (k = l)), decEq x y with
    | isTrue hs, isTrue hk, isTrue h => isTrue (by rw [hs, hk, h])
    | isFalse hs, _, _ => isFalse (fun e => hs (List.cons.inj e).2)
    | _, isFalse hk, _ => isFalse (fun e => hk (Prod.mk.inj (List.cons.inj e).1).1)
    | _, _, isFalse h => isFalse (fun e => h (Prod.mk.inj (List.cons.inj e).1).2)

end

instance : DecidableEq Json := decEq

/-! ## Views -/

def int (i : Int) : Json := .num (.int i)

def isNull : Json → Bool
  | .null => true
  | _ => false

def isObject : Json → Bool
  | .obj _ => true
  | _ => false

def asString? : Json → Option String
  | .str s => some s
  | _ => none

def asInt? : Json → Option Int
  | .num (.int i) => some i
  | _ => none

/-- The items of a list; any other value has none. -/
def items : Json → List Json
  | .arr items => items
  | _ => []

/-- The entries of an object; any other value has none. -/
def entries : Json → Dict Json
  | .obj entries => entries
  | _ => []

/-- The value stored under `key` when the value is an object. -/
def get? : Json → String → Option Json
  | .obj entries, key => Dict.get? entries key
  | _, _ => none

/-- The value stored under `key`, null when there is none. -/
def property (v : Json) (key : String) : Json := (v.get? key).getD .null

/-- Whether the value is an object carrying `key`, whatever its value. -/
def hasKey (v : Json) (key : String) : Bool := (v.get? key).isSome

/-- The string stored under `key` when the value is an object. -/
def stringField? (v : Json) (key : String) : Option String := (v.get? key).bind asString?

/-- Null, false, zero, what is no number and the empty string are falsy; everything else is truthy,
empty lists and objects included. -/
def isTruthy : Json → Bool
  | .null => false
  | .bool b => b
  | .num (.int i) => i ≠ 0
  | .num (.float x) => !x.isZero && !x.isNaN
  | .str s => s ≠ ""
  | .arr _ => true
  | .obj _ => true

@[simp] theorem isNull_eq_true {v : Json} : v.isNull = true ↔ v = .null := by
  cases v <;> simp [isNull]

end Json

end GraphAssembly
