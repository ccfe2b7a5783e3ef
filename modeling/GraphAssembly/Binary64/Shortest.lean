import GraphAssembly.Binary64

/-!
# The shortest decimal of a binary64

Every real within half a unit of a finite number rounds to it; the ends count when the significand
is even. Of the decimals in that interval the shortest are kept, and of those the one nearest to the
number. On the grid of `n` digits only the two neighbours of the number can be nearest, so the first
`n` whose grid has a neighbour inside the interval gives the answer.
-/

namespace GraphAssembly

/-- The number `digits · 10 ^ scale`. -/
structure Decimal where
  digits : Nat
  scale : Int
deriving DecidableEq

namespace Decimal

/-- Moves trailing zeros of the digits into the scale, at most `fuel` of them. -/
def trim : Nat → Decimal → Decimal
  | 0, d => d
  | fuel + 1, d =>
    if d.digits ≠ 0 ∧ d.digits % 10 = 0 then trim fuel ⟨d.digits / 10, d.scale + 1⟩ else d

end Decimal

namespace Binary64

/-- `n / d` compared with `10 ^ k`. -/
def powerOfTenLe (k : Int) (n d : Nat) : Bool :=
  match k with
  | .ofNat k => d * tenTo k ≤ n
  | .negSucc k => d ≤ n * tenTo (k + 1)

/-- The exponent of the leading digit of `n / d`. The bits give it up to one either way. -/
def leadingExponent (n d : Nat) : Int :=
  let guess := ((n.log2 : Int) - d.log2) * 1233 / 4096
  if powerOfTenLe (guess + 1) n d then guess + 1
  else if powerOfTenLe guess n d then guess
  else guess - 1

/-- The interval of reals that round to a number, as numerators over one denominator. -/
structure RoundingInterval where
  low : Nat
  value : Nat
  high : Nat
  denominator : Nat
  closed : Bool

/-- Below a power of two the numbers lie twice as close. -/
def roundingInterval (x : Binary64) : RoundingInterval :=
  let m := x.significand
  let (a, b) := scaleByTwo 1 1 (x.exponent - 2)
  let below := if m = twoTo 52 ∧ 1 < x.exponentField then 1 else 2
  { low := (4 * m - below) * a
    value := 4 * m * a
    high := (4 * m + 2) * a
    denominator := b
    closed := m % 2 = 0 }

namespace RoundingInterval

def containsFromBelow (i : RoundingInterval) (n d : Nat) : Bool :=
  if i.closed then i.low * d ≤ n * i.denominator else i.low * d < n * i.denominator

def containsFromAbove (i : RoundingInterval) (n d : Nat) : Bool :=
  if i.closed then n * i.denominator ≤ i.high * d else n * i.denominator < i.high * d

/-- The neighbour of the value on the grid of multiples of `10 ^ scale` that lies in the interval;
of two the nearer, and the even one when they are equally near. -/
def onGrid? (i : RoundingInterval) (scale : Int) : Option Nat :=
  let (up, down) : Nat × Nat := match scale with
    | .ofNat k => (tenTo k, 1)
    | .negSucc k => (1, tenTo (k + 1))
  let d := i.denominator * up
  let n := i.value * down
  let q := n / d
  let lowIn := i.containsFromBelow (q * up) down
  let highIn := i.containsFromAbove ((q + 1) * up) down
  match lowIn, highIn with
  | true, true => some (divideToEven n d)
  | true, false => some q
  | false, true => some (q + 1)
  | false, false => none

/-- The first grid with a hit, from `count` digits on, trying `tries` of them. -/
def shortestFrom (i : RoundingInterval) (leading : Int) : (tries count : Nat) → Decimal
  | 0, count => ⟨i.value / i.denominator, count⟩
  | tries + 1, count =>
    let scale := leading - count + 1
    match i.onGrid? scale with
    | some digits => ⟨digits, scale⟩
    | none => shortestFrom i leading tries (count + 1)

end RoundingInterval

/-- The shortest decimal that reads back as the magnitude of a finite number. Seventeen digits are
always enough. -/
def shortest (x : Binary64) : Decimal :=
  if x.significand = 0 then ⟨0, 0⟩
  else
    let i := x.roundingInterval
    (i.shortestFrom (leadingExponent i.value i.denominator) 17 1).trim 20

/-! ## Layout -/

/-- How a decimal is written: leading digits with an exponent from `leastPositional` to
`mostPositional` are written without one. -/
structure Layout where
  leastPositional : Int
  mostPositional : Int

def zeros (n : Nat) : String := String.ofList (List.replicate n '0')

/-- The digits with a point after the leading `whole` ones; at least one digit follows it. -/
def positional (digits : List Char) (leading : Int) : String :=
  match leading with
  | .negSucc k => "0." ++ zeros k ++ String.ofList digits
  | .ofNat k =>
    let whole := String.ofList (digits.take (k + 1)) ++ zeros (k + 1 - digits.length)
    let fraction := digits.drop (k + 1)
    whole ++ "." ++ (if fraction.isEmpty then "0" else String.ofList fraction)

/-- One digit, the others after a point, and a signed exponent. -/
def scientific (digits : List Char) (leading : Int) : String :=
  let fraction := digits.drop 1
  String.ofList (digits.take 1)
    ++ (if fraction.isEmpty then "" else "." ++ String.ofList fraction)
    ++ "e" ++ (if leading < 0 then "-" else "+") ++ toString leading.natAbs

/-- The text of a finite number. -/
def Layout.write (layout : Layout) (x : Binary64) : String :=
  let d := x.shortest
  let digits := Nat.toDigits 10 d.digits
  let leading := d.scale + digits.length - 1
  (if x.isNegative then "-" else "") ++
    if layout.leastPositional ≤ leading ∧ leading ≤ layout.mostPositional then
      positional digits leading
    else scientific digits leading

end Binary64

end GraphAssembly
