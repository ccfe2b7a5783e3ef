import GraphAssembly.Yaml
import GraphAssembly.Yaml.Lexeme.Cursor

/-!
# Tags and directives of YAML

Both are built from URIs, in which `%` escapes the octets of a character.
-/

namespace GraphAssembly.Yaml.Lexeme

/-! ## URIs -/

def isUri (c : Char) : Bool := isName c || ";/?:@&=+$,.!~*'()[]".contains c

/-- An octet written as `%` and two hexadecimal digits. -/
def octet? : List Char → Option Nat
  | '%' :: high :: low :: _ => hexValue? [high, low]
  | _ => none

/-- The number of octets of a character, by the first of them. -/
def octetCount? (first : Nat) : Option Nat :=
  if first < 0x80 then some 1
  else if first < 0xC0 then none
  else if first < 0xE0 then some 2
  else if first < 0xF0 then some 3
  else if first < 0xF8 then some 4
  else none

/-- The character that an escape stands for, and the number of its octets. The octets are read as
one number, so more than two of them never make a character. -/
def uriEscape? (cs : List Char) : Option (Char × Nat) := do
  let first ← octet? cs
  let count ← octetCount? first
  let code ← (List.range (count - 1)).foldlM (fun code i => do
    let next ← octet? (cs.drop (3 * (i + 1)))
    if next / 64 = 2 then some (code * 256 + next) else none) first
  if code.isValidChar then some (Char.ofNat code, count) else none

/-- The longest URI that a text begins with, its escapes resolved, and its length in the text. -/
def uri? (cs : List Char) : Option (List Char × Nat) :=
  match cs with
  | [] => some ([], 0)
  | c :: rest =>
    if c = '%' then
      match uriEscape? (c :: rest) with
      | none => none
      | some (x, count) =>
        (uri? (rest.drop (3 * count - 1))).map fun (text, length) =>
          (x :: text, 3 * count + length)
    else if isUri c then (uri? rest).map fun (text, length) => (c :: text, length + 1)
    else some ([], 0)
termination_by cs.length
decreasing_by
  · rw [List.length_drop, List.length_cons]
    omega
  · exact Nat.lt_succ_self _

namespace Cursor

def uri? (c : Cursor) : Option (String × Cursor) :=
  (Lexeme.uri? c.rest).map fun (text, length) => (String.ofList text, c.skip length)

/-- A URI of at least one character. -/
def someUri? (c : Cursor) : Option (String × Cursor) :=
  c.uri?.filter fun (text, _) => !text.isEmpty

/-! ## Tags -/

/-- The tag that begins at a `!`: a URI between angle brackets, a handle that ends in a second `!`
and the URI behind it, or a URI behind the first `!`, where nothing at all is a tag of its own. -/
def tag? (c : Cursor) : Option (Tag × Cursor) :=
  if c.next.rest.head? = some '<' then do
    let (suffix, c) ← (c.skip 2).someUri?
    if c.rest.head? = some '>' then some (⟨"", suffix⟩, c.next) else none
  else
    let name := c.next.rest.takeWhile isName
    let behind := c.skip (name.length + 1)
    if behind.rest.head? = some '!' then do
      let (suffix, c) ← behind.next.someUri?
      some (⟨"!" ++ String.ofList name ++ "!", suffix⟩, c)
    else do
      let (suffix, c) ← c.next.uri?
      some (if suffix.isEmpty then ⟨"", "!"⟩ else ⟨"!", suffix⟩, c)

/-! ## Directives -/

/-- A number of one to nine digits. -/
def versionPart? (c : Cursor) : Option Cursor :=
  let length := (c.rest.takeWhile Char.isDigit).length
  if 1 ≤ length && length ≤ 9 then some (c.skip length) else none

def version? (c : Cursor) : Option Cursor := do
  let c ← c.versionPart?
  if c.rest.head? = some '.' then c.next.versionPart? else none

/-- The handle and the URI of a tag directive; only the handle `!` has no second `!`. -/
def tagPrefix? (c : Cursor) : Option Cursor := do
  if c.rest.head? ≠ some '!' then none
  let name := c.next.rest.takeWhile isName
  let c := c.skip (name.length + 1)
  let c ←
    if c.rest.head? = some '!' then some c.next else if name.isEmpty then some c else none
  let (_, c) ← (c.skipWhile isBlank).someUri?
  if startsGap c.rest then some c else none

/-- Skips a directive from its `%` to the end of the line. Those that are not known may say
anything. -/
def directive? (c : Cursor) : Option Cursor := do
  let name := c.next.rest.takeWhile isName
  let c := c.skip (name.length + 1)
  if name.isEmpty || !startsGap c.rest then none
  let c ←
    match String.ofList name with
    | "YAML" => (c.skipWhile isBlank).version?
    | "TAG" => (c.skipWhile isBlank).tagPrefix?
    | _ => some (c.skipWhile (!isBreak ·))
  c.endLine?

end Cursor

end GraphAssembly.Yaml.Lexeme
