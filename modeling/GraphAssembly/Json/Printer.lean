import GraphAssembly.Json
import GraphAssembly.Binary64.Shortest

/-!
# Compact JSON text

No space is written. A string escapes the quote, the backslash and the control characters only, and
a float takes the fewest digits that read back.
-/

namespace GraphAssembly

/-- Floats are written without an exponent from `1e-5` up to, and without, `1e16`. -/
def Number.layout : Binary64.Layout := ⟨-5, 15⟩

def Number.text : Number → String
  | .int i => toString i
  | .float x => Number.layout.write x

namespace Json

def hexDigit (n : Nat) : Char := Nat.digitChar (n % 16)

/-- The letter that stands for a control character after a backslash. -/
def controlLetter? (c : Char) : Option Char :=
  match c.toNat with
  | 8 => some 'b'
  | 9 => some 't'
  | 10 => some 'n'
  | 12 => some 'f'
  | 13 => some 'r'
  | _ => none

def escapeChar (c : Char) : List Char :=
  if c = '"' then ['\\', '"']
  else if c = '\\' then ['\\', '\\']
  else if c.toNat < 0x20 then
    match controlLetter? c with
    | some l => ['\\', l]
    | none => ['\\', 'u', '0', '0', hexDigit (c.toNat / 16), hexDigit c.toNat]
  else [c]

/-- A string between quotes. -/
def quoted (s : String) : String :=
  "\"" ++ String.ofList (s.toList.flatMap escapeChar) ++ "\""

mutual

/-- The compact text of a value. -/
def text : Json → String
  | .null => "null"
  | .bool b => if b then "true" else "false"
  | .num n => n.text
  | .str s => quoted s
  | .arr items => "[" ++ itemsText items ++ "]"
  | .obj entries => "\x7b" ++ entriesText entries ++ "\x7d"

def itemsText : List Json → String
  | [] => ""
  | [v] => text v
  | v :: rest => text v ++ "," ++ itemsText rest

def entriesText : List (String × Json) → String
  | [] => ""
  | [(k, v)] => quoted k ++ ":" ++ text v
  | (k, v) :: rest => quoted k ++ ":" ++ text v ++ "," ++ entriesText rest

end

end Json

end GraphAssembly
