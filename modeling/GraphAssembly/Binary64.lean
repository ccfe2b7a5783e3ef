/-!
# Binary64 numbers

A number of the IEEE 754 binary64 format is kept as its 64 bits, and everything said about it is
said in exact arithmetic on naturals: a finite number is `± significand · 2 ^ exponent`.

1. The fields of the bits and the value they stand for.
2. Rounding: the finite number nearest to a quotient of naturals, a tie to the even significand.
3. Reading a decimal `digits · 10 ^ scale`.
-/

namespace GraphAssembly

/-- The bits of a binary64: a sign, eleven bits of exponent, fifty-two of fraction. -/
structure Binary64 where
  bits : UInt64
deriving DecidableEq, Inhabited

/-- A power of two. -/
def twoTo (n : Nat) : Nat := Nat.pow 2 n

/-- A power of ten. -/
def tenTo (n : Nat) : Nat := Nat.pow 10 n

namespace Binary64

/-! ## Fields -/

def isNegative (x : Binary64) : Bool := x.bits.toNat / twoTo 63 = 1

def exponentField (x : Binary64) : Nat := x.bits.toNat / twoTo 52 % twoTo 11

def fractionField (x : Binary64) : Nat := x.bits.toNat % twoTo 52

/-- All ones in the exponent field stand for the infinities and for no number. -/
def isFinite (x : Binary64) : Bool := x.exponentField ≠ 2047

/-- The leading one is not written, except that the least exponent has none. -/
def significand (x : Binary64) : Nat :=
  if x.exponentField = 0 then x.fractionField else twoTo 52 + x.fractionField

/-- The power of two that the significand counts. -/
def exponent (x : Binary64) : Int := (max 1 x.exponentField : Nat) - (1075 : Int)

def isZero (x : Binary64) : Bool := x.exponentField = 0 && x.fractionField = 0

/-- All ones in the exponent field with a fraction stand for no number. -/
def isNaN (x : Binary64) : Bool := x.exponentField = 2047 && x.fractionField ≠ 0

/-! ## Rounding -/

/-- The natural nearest to `n / d`, a tie going to the even one. -/
def divideToEven (n d : Nat) : Nat :=
  let q := n / d
  let r := n % d
  if d < 2 * r then q + 1
  else if 2 * r < d then q
  else q + q % 2

/-- `n / d · 2 ^ k` as a quotient of naturals. -/
def scaleByTwo (n d : Nat) (k : Int) : Nat × Nat :=
  match k with
  | .ofNat k => (n * twoTo k, d)
  | .negSucc k => (n, d * twoTo (k + 1))

/-- The exponent under which `n / d` has a significand of fifty-three bits, or the least one. -/
def exponentFor (n d : Nat) : Int :=
  let e : Int := (n.log2 : Int) - d.log2 - 52
  let (a, b) := scaleByTwo n d (-e)
  max (-1074) (if a < b * twoTo 52 then e - 1 else e)

/-- The bits of the number nearest to `n / d`, without a sign. A significand that rounds up to
fifty-four bits carries into the exponent field by plain addition. -/
def magnitudeBits (n d : Nat) : Nat :=
  if n = 0 then 0
  else
    let e := exponentFor n d
    let (a, b) := scaleByTwo n d (-e)
    (e + 1074).toNat * twoTo 52 + divideToEven a b

/-- The finite number nearest to `± n / d`, if the quotient is not too large for one. -/
def ofQuotient? (negative : Bool) (n d : Nat) : Option Binary64 :=
  let m := magnitudeBits n d
  if m < 2047 * twoTo 52 then
    some ⟨UInt64.ofNat (if negative then twoTo 63 + m else m)⟩
  else none

def ofInt? (i : Int) : Option Binary64 := ofQuotient? (i < 0) i.natAbs 1

/-! ## Decimals -/

/-- The finite number nearest to `± digits · 10 ^ scale`. Scales far outside the range of the
format are answered without computing the power of ten. -/
def ofDecimal? (negative : Bool) (digits : Nat) (scale : Int) : Option Binary64 :=
  if digits = 0 then ofQuotient? negative 0 1
  else
    let magnitude : Int := (Nat.log2 digits : Int) * 3 / 10 + scale
    if 400 < magnitude then none
    else if magnitude < -400 then ofQuotient? negative 0 1
    else match scale with
      | .ofNat k => ofQuotient? negative (digits * tenTo k) 1
      | .negSucc k => ofQuotient? negative digits (tenTo (k + 1))

example : ofDecimal? false 1 (-1) = some ⟨0x3FB999999999999A⟩ := by decide +kernel
example : ofDecimal? true 0 0 = some ⟨0x8000000000000000⟩ := by decide +kernel
example : ofDecimal? false 5 (-324) = some ⟨1⟩ := by decide +kernel
example : ofDecimal? false 2 308 = none := by decide +kernel

end Binary64

end GraphAssembly
