import GraphAssembly.Json

/-!
# Reading JSON text

The reader is a machine that takes one character at a time, so it ends on every text.

1. `Numeral`: the grammar of a number and the value it stands for.
2. `Machine`: what is open around the current character, and what the character may do.
3. `Json.read?`: the whole text, or nothing when it is not one JSON value.

A key that is repeated keeps its first place and takes its last value.
-/

namespace GraphAssembly

/-! ## Numbers -/

/-- A number literal in its three parts. -/
structure Numeral where
  negative : Bool
  whole : List Char
  fraction : Option (List Char)
  exponent : Option Int

namespace Numeral

def digitsValue (digits : List Char) : Nat :=
  digits.foldl (fun n c => n * 10 + (c.toNat - '0'.toNat)) 0

/-- At least one digit, and no leading zero before another. -/
def isWhole : List Char → Bool
  | [] => false
  | ['0'] => true
  | c :: rest => c ≠ '0' && (c :: rest).all Char.isDigit

def isDigits (cs : List Char) : Bool := !cs.isEmpty && cs.all Char.isDigit

def exponent? : List Char → Option (Option Int)
  | [] => some none
  | e :: rest =>
    if e ≠ 'e' ∧ e ≠ 'E' then none
    else match rest with
      | '-' :: ds => if isDigits ds then some (some (-(digitsValue ds : Int))) else none
      | '+' :: ds => if isDigits ds then some (some (digitsValue ds)) else none
      | ds => if isDigits ds then some (some (digitsValue ds)) else none

def ofChars? (cs : List Char) : Option Numeral := do
  let (negative, cs) := match cs with
    | '-' :: rest => (true, rest)
    | cs => (false, cs)
  let whole := cs.takeWhile Char.isDigit
  let rest := cs.dropWhile Char.isDigit
  if !isWhole whole then none
  match rest with
  | '.' :: rest =>
    let fraction := rest.takeWhile Char.isDigit
    if !isDigits fraction then none
    let exponent ← exponent? (rest.dropWhile Char.isDigit)
    pure { negative, whole, fraction := some fraction, exponent }
  | rest =>
    let exponent ← exponent? rest
    pure { negative, whole, fraction := none, exponent }

/-- A literal without fraction and exponent is an integer if it is representable and not a negative
zero; any other literal is the nearest binary64. -/
def toNumber? (n : Numeral) : Option Number :=
  let fraction := n.fraction.getD []
  let digits := digitsValue (n.whole ++ fraction)
  let value : Int := if n.negative then -digits else digits
  if n.fraction.isNone ∧ n.exponent.isNone ∧ Number.IsRepresentable value
      ∧ ¬(n.negative ∧ digits = 0) then
    some (.int value)
  else
    (Binary64.ofDecimal? n.negative digits (n.exponent.getD 0 - fraction.length)).map .float

end Numeral

namespace Json.Reader

/-! ## The machine -/

/-- A list or object whose end has not been reached. -/
inductive Frame where
  | items (done : List Json)
  | entries (done : Dict Json) (key : String)

/-- Where a string stands between two characters. -/
inductive Escape where
  | none
  | backslash
  | unit (digits : Nat) (value : Nat)
  | pair (high : Nat)
  | pairBackslash (high : Nat)
  | pairUnit (high : Nat) (digits : Nat) (value : Nat)

inductive Mode where
  /-- A value is due; directly after `[` the list may also end. -/
  | value (mayClose : Bool)
  /-- A key is due; directly after an opening brace the object may also end. -/
  | key (done : Dict Json) (mayClose : Bool)
  | colon (done : Dict Json) (key : String)
  | after
  | finished (result : Json)
  | string (key : Option (Dict Json)) (reversed : List Char) (escape : Escape)
  | number (reversed : List Char)
  | word (reversed : List Char)

structure Machine where
  mode : Mode
  frames : List Frame

def start : Machine := ⟨.value false, []⟩

def isBlank (c : Char) : Bool := c = ' ' || c = '\t' || c = '\n' || c = '\r'

/-- A complete value goes into the innermost open frame. -/
def Machine.emit (v : Json) : List Frame → Machine
  | [] => ⟨.finished v, []⟩
  | .items done :: rest => ⟨.after, .items (v :: done) :: rest⟩
  | .entries done key :: rest => ⟨.after, .entries (Dict.insert done key v) "" :: rest⟩

def hexValue? (c : Char) : Option Nat :=
  if c.isDigit then some (c.toNat - '0'.toNat)
  else if 'a' ≤ c ∧ c ≤ 'f' then some (c.toNat - 'a'.toNat + 10)
  else if 'A' ≤ c ∧ c ≤ 'F' then some (c.toNat - 'A'.toNat + 10)
  else none

def isHighSurrogate (n : Nat) : Bool := 0xD800 ≤ n && n < 0xDC00

def isLowSurrogate (n : Nat) : Bool := 0xDC00 ≤ n && n < 0xE000

/-- The character that a letter after a backslash stands for. -/
def letterEscape? : Char → Option Char
  | '"' => some '"'
  | '\\' => some '\\'
  | '/' => some '/'
  | 'b' => some (Char.ofNat 8)
  | 'f' => some (Char.ofNat 12)
  | 'n' => some '\n'
  | 'r' => some '\r'
  | 't' => some '\t'
  | _ => none

/-- The string after one more character inside an escape. -/
def escaped? (reversed : List Char) (c : Char) : Escape → Option (List Char × Escape)
  | .none => none
  | .backslash =>
    if c = 'u' then some (reversed, .unit 0 0)
    else (letterEscape? c).map fun e => (e :: reversed, .none)
  | .unit digits value => do
    let h ← hexValue? c
    let value := value * 16 + h
    if digits < 3 then pure (reversed, .unit (digits + 1) value)
    else if isHighSurrogate value then pure (reversed, .pair value)
    else if isLowSurrogate value then none
    else pure (Char.ofNat value :: reversed, .none)
  | .pair high => if c = '\\' then some (reversed, .pairBackslash high) else none
  | .pairBackslash high => if c = 'u' then some (reversed, .pairUnit high 0 0) else none
  | .pairUnit high digits value => do
    let h ← hexValue? c
    let value := value * 16 + h
    if digits < 3 then pure (reversed, .pairUnit high (digits + 1) value)
    else if isLowSurrogate value then
      let code := 0x10000 + (high - 0xD800) * 0x400 + (value - 0xDC00)
      pure (Char.ofNat code :: reversed, .none)
    else none

def wordValue? : List Char → Option Json
  | ['n', 'u', 'l', 'l'] => some .null
  | ['t', 'r', 'u', 'e'] => some (.bool true)
  | ['f', 'a', 'l', 's', 'e'] => some (.bool false)
  | _ => none

def isNumeralChar (c : Char) : Bool :=
  c.isDigit || c = '-' || c = '+' || c = '.' || c = 'e' || c = 'E'

/-- The first character of a value. -/
def opening? (frames : List Frame) (c : Char) : Option Machine :=
  if c = '[' then some ⟨.value true, .items [] :: frames⟩
  else if c = '\x7b' then some ⟨.key [] true, frames⟩
  else if c = '"' then some ⟨.string none [] .none, frames⟩
  else if c.isDigit || c = '-' then some ⟨.number [c], frames⟩
  else if c.isAlpha then some ⟨.word [c], frames⟩
  else none

/-- A character after a complete value. -/
def following? (frames : List Frame) (c : Char) : Option Machine :=
  if isBlank c then some ⟨.after, frames⟩
  else match frames with
    | .items done :: rest =>
      if c = ',' then some ⟨.value false, .items done :: rest⟩
      else if c = ']' then some (Machine.emit (.arr done.reverse) rest)
      else none
    | .entries done _ :: rest =>
      if c = ',' then some ⟨.key done false, rest⟩
      else if c = '\x7d' then some (Machine.emit (.obj done) rest)
      else none
    | [] => none

/-- A number or word ends at the first character that cannot belong to it. -/
def Machine.endScalar? (m : Machine) : Option Machine :=
  match m.mode with
  | .number reversed => do
    let n ← (← Numeral.ofChars? reversed.reverse).toNumber?
    pure (Machine.emit (.num n) m.frames)
  | .word reversed => (wordValue? reversed.reverse).map (Machine.emit · m.frames)
  | _ => some m

/-- One character outside of numbers and words. -/
def Machine.stepPlain? (m : Machine) (c : Char) : Option Machine :=
  match m.mode with
  | .value mayClose =>
    if isBlank c then some m
    else if c = ']' ∧ mayClose then
      match m.frames with
      | .items done :: rest => some (Machine.emit (.arr done.reverse) rest)
      | _ => none
    else opening? m.frames c
  | .key done mayClose =>
    if isBlank c then some m
    else if c = '\x7d' ∧ mayClose then some (Machine.emit (.obj done) m.frames)
    else if c = '"' then some ⟨.string (some done) [] .none, m.frames⟩
    else none
  | .colon done key =>
    if isBlank c then some m
    else if c = ':' then some ⟨.value false, .entries done key :: m.frames⟩
    else none
  | .after => following? m.frames c
  | .finished result => if isBlank c then some ⟨.finished result, m.frames⟩ else none
  | .string key reversed .none =>
    if c = '\\' then some ⟨.string key reversed .backslash, m.frames⟩
    else if c = '"' then
      let s := String.ofList reversed.reverse
      match key with
      | none => some (Machine.emit (.str s) m.frames)
      | some done => some ⟨.colon done s, m.frames⟩
    else if c.toNat < 0x20 then none
    else some ⟨.string key (c :: reversed) .none, m.frames⟩
  | .string key reversed escape =>
    (escaped? reversed c escape).map fun (reversed, escape) =>
      ⟨.string key reversed escape, m.frames⟩
  | .number _ => none
  | .word _ => none

def Machine.step? (m : Machine) (c : Char) : Option Machine :=
  match m.mode with
  | .number reversed =>
    if isNumeralChar c then some ⟨.number (c :: reversed), m.frames⟩
    else m.endScalar?.bind (·.stepPlain? c)
  | .word reversed =>
    if c.isAlpha then some ⟨.word (c :: reversed), m.frames⟩
    else m.endScalar?.bind (·.stepPlain? c)
  | _ => m.stepPlain? c

def Machine.run? : Machine → List Char → Option Machine
  | m, [] => m.endScalar?
  | m, c :: cs => (m.step? c).bind (·.run? cs)

end Json.Reader

/-- The value that the text writes, if it writes exactly one. -/
def Json.read? (text : String) : Option Json := do
  let m ← Json.Reader.start.run? text.toList
  match m.mode with
  | .finished v => some v
  | _ => none

end GraphAssembly
