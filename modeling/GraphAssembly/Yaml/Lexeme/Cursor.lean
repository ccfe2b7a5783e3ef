/-!
# Position in a YAML text

The classes of characters that the form of a document depends on, and a cursor that keeps the text
that is left together with its place. Only a line feed begins a new line at column 0; a carriage
return ends a line too, but the columns go on counting.
-/

namespace GraphAssembly.Yaml.Lexeme

/-! ## Characters -/

def isBreak (c : Char) : Bool := c = '\n' || c = '\r'

def isBlank (c : Char) : Bool := c = ' ' || c = '\t'

def isGap (c : Char) : Bool := isBlank c || isBreak c

def isFlow (c : Char) : Bool := [',', '[', ']', '{', '}'].contains c

def isName (c : Char) : Bool := c.isAlphanum || c = '_' || c = '-'

/-- Whether a blank, a line break or the end comes first. -/
def startsGap : List Char → Bool
  | [] => true
  | c :: _ => isGap c

def startsFlow : List Char → Bool
  | [] => false
  | c :: _ => isFlow c

def hexValue? (digits : List Char) : Option Nat :=
  digits.foldlM (fun n c =>
    if c.isDigit then some (n * 16 + (c.toNat - '0'.toNat))
    else if 'a' ≤ c ∧ c ≤ 'f' then some (n * 16 + (c.toNat - 'a'.toNat + 10))
    else if 'A' ≤ c ∧ c ≤ 'F' then some (n * 16 + (c.toNat - 'A'.toNat + 10))
    else none) 0

/-! ## Position -/

/-- The text that is left. -/
structure Cursor where
  rest : List Char
  index : Nat := 0
  line : Nat := 0
  column : Nat := 0

namespace Cursor

def next (c : Cursor) : Cursor :=
  match c.rest with
  | [] => c
  | x :: rest =>
    if x = '\n' then ⟨rest, c.index + 1, c.line + 1, 0⟩
    else ⟨rest, c.index + 1, c.line, c.column + 1⟩

def skip : Nat → Cursor → Cursor
  | 0, c => c
  | n + 1, c => c.next.skip n

def skipWhile (p : Char → Bool) (c : Cursor) : Cursor := c.skip (c.rest.takeWhile p).length

/-- Skips one line break. -/
def skipBreak (c : Cursor) : Cursor :=
  match c.rest with
  | '\r' :: '\n' :: _ => c.skip 2
  | x :: _ => if isBreak x then c.next else c
  | [] => c

/-- Whether a line begins here that consists of this mark three times. -/
def atMark (mark : Char) (c : Cursor) : Bool :=
  c.column = 0 && c.rest.take 3 = [mark, mark, mark] && startsGap (c.rest.drop 3)

/-- Skips blanks and a comment to the end of the line, and its break. -/
def endLine? (c : Cursor) : Option Cursor :=
  let c := c.skipWhile isBlank
  let c := if c.rest.head? = some '#' then c.skipWhile (!isBreak ·) else c
  if (c.rest.head?.map isBreak).getD true then some c.skipBreak else none

def atDocumentMark (c : Cursor) : Bool := c.atMark '-' || c.atMark '.'

end Cursor

end GraphAssembly.Yaml.Lexeme
