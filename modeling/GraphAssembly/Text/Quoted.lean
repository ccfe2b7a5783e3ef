import GraphAssembly.Text.Hidden

/-!
# Quoted text

A string between double quotes in which every character shows: the quote, the backslash and the
characters that leave no mark are written as escapes.
-/

namespace GraphAssembly.Text

/-- A code point between braces, in lower case hexadecimal. -/
def codePointEscape (c : Char) : List Char :=
  ['\\', 'u', '\x7b'] ++ Nat.toDigits 16 c.toNat ++ ['\x7d']

def visible (c : Char) : List Char :=
  match c with
  | '\x00' => ['\\', '0']
  | '\t' => ['\\', 't']
  | '\r' => ['\\', 'r']
  | '\n' => ['\\', 'n']
  | '"' => ['\\', '"']
  | '\\' => ['\\', '\\']
  | c =>
    if 0x20 ≤ c.toNat ∧ c.toNat < 0x7F then [c]
    else if isHidden c then codePointEscape c
    else [c]

def quote (s : String) : String :=
  "\"" ++ String.ofList (s.toList.flatMap visible) ++ "\""

end GraphAssembly.Text
