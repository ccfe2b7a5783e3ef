import GraphAssembly.Yaml.Lexeme.Scalar
import GraphAssembly.Yaml.Lexeme.Tag

/-!
# Lexemes of YAML

The text of a document is cut into lexemes. Indentation becomes visible: a block collection has a
lexeme where it begins and one where it ends, and a mapping key is preceded by `key`.

1. `Scanner`: the lexemes so far, the open block collections, and the places where a key may have
   begun. Whether a node is a key is known only at the `:` behind it, so `key` is inserted there.
2. `Lexeme.scan?`: all lexemes of a text.
-/

namespace GraphAssembly.Yaml

inductive Lexeme where
  | directive
  | documentStart
  | documentEnd
  | blockSequence
  | blockMapping
  | blockEnd
  | flowSequence
  | flowSequenceEnd
  | flowMapping
  | flowMappingEnd
  | item
  | comma
  | key
  | value
  | alias (name : String)
  | anchor (name : String)
  | tag (tag : Tag)
  | scalar (plain : Bool) (text : String)
deriving DecidableEq, Repr

namespace Lexeme

/-! ## The scanner -/

/-- A place where a key may have begun. -/
structure KeyStart where
  /-- Number of lexemes before it. -/
  position : Nat
  index : Nat
  line : Nat
  column : Nat
  /-- Whether it has to be a key. -/
  required : Bool

structure Scanner where
  cursor : Cursor
  lexemes : List Lexeme := []
  /-- Columns of the open block collections, the innermost first. -/
  indents : List Nat := []
  /-- For each open flow collection and the block around them, the last place that may be a key. -/
  keys : List (Option KeyStart) := [none]
  /-- Whether a key may begin here. -/
  keyAllowed : Bool := true
  /-- Index directly behind the last quoted scalar. -/
  quotedEnd : Option Nat := none

namespace Scanner

def inFlow (s : Scanner) : Bool := 1 < s.keys.length

def indent (s : Scanner) : Int :=
  match s.indents with
  | [] => -1
  | column :: _ => column

def add (l : Lexeme) (s : Scanner) : Scanner := { s with lexemes := s.lexemes ++ [l] }

/-- Adds a lexeme of so many characters. -/
def take (l : Lexeme) (length : Nat) (s : Scanner) : Scanner :=
  { s.add l with cursor := s.cursor.skip length }

def allowKey (allowed : Bool) (s : Scanner) : Scanner := { s with keyAllowed := allowed }

/-- Forgets the place that might have been a key. -/
def forgetKey? (s : Scanner) : Option Scanner :=
  match s.keys with
  | some k :: outer => if k.required then none else some { s with keys := none :: outer }
  | _ => some s

/-- Notes that a key may begin at the cursor. -/
def noteKey? (s : Scanner) : Option Scanner :=
  if s.keyAllowed then do
    let s ← s.forgetKey?
    let required := s.inFlow && s.indent = s.cursor.column
    let k : KeyStart :=
      ⟨s.lexemes.length, s.cursor.index, s.cursor.line, s.cursor.column, required⟩
    some { s with keys := some k :: s.keys.tail }
  else some s

/-- A key ends on its line and within 1024 characters. -/
def dropStaleKeys? (s : Scanner) : Option Scanner := do
  let keys ← s.keys.mapM fun slot =>
    match slot with
    | none => some none
    | some k =>
      if k.line < s.cursor.line || k.index + 1024 < s.cursor.index then
        if k.required then none else some none
      else some (some k)
  some { s with keys }

/-- Opens a block collection at a column further right than the enclosing one. -/
def openBlock (l : Lexeme) (column position : Nat) (s : Scanner) : Scanner :=
  if !s.inFlow && decide (s.indent < column) then
    { s with indents := column :: s.indents, lexemes := s.lexemes.insertIdx position l }
  else s

/-- Ends the block collections further right than a column. -/
def closeBlocks (column : Int) (s : Scanner) : Scanner :=
  if s.inFlow then s
  else
    let closed := (s.indents.takeWhile fun (c : Nat) => decide (column < c)).length
    { s with
      indents := s.indents.drop closed
      lexemes := s.lexemes ++ List.replicate closed .blockEnd }

/-- Skips blanks, line breaks and comments. Behind a line break a key may begin. -/
def skipGap (s : Scanner) : Scanner :=
  let rest := s.cursor.rest
  match rest with
  | [] => s
  | c :: tail =>
    let continueAt (cursor : Cursor) (keyAllowed : Bool) : Scanner :=
      if cursor.rest.length < rest.length then skipGap { s with cursor, keyAllowed } else s
    if c = ' ' || (c = '\t' && (s.inFlow || !s.keyAllowed)) then
      continueAt s.cursor.next s.keyAllowed
    else if isBreak c then continueAt s.cursor.skipBreak (s.keyAllowed || !s.inFlow)
    else if c = '#' then
      continueAt (s.cursor.next.skip (tail.takeWhile (!isBreak ·)).length) s.keyAllowed
    else s
termination_by s.cursor.rest.length

/-- Before a directive or a document mark every block collection ends. -/
def endDocument? (s : Scanner) : Option Scanner := do
  let s ← (s.closeBlocks (-1)).forgetKey?
  some (s.allowKey false)

def directive? (s : Scanner) : Option Scanner := do
  let s ← s.endDocument?
  let cursor ← s.cursor.directive?
  some { s.add .directive with cursor }

def openFlow? (l : Lexeme) (s : Scanner) : Option Scanner := do
  let s ← s.noteKey?
  some (({ s with keys := none :: s.keys }.allowKey true).take l 1)

def closeFlow? (l : Lexeme) (s : Scanner) : Option Scanner := do
  let s ← s.forgetKey?
  let s := if s.inFlow then { s with keys := s.keys.tail } else s
  some ((s.allowKey false).take l 1)

def comma? (s : Scanner) : Option Scanner := do
  let s ← s.forgetKey?
  some ((s.allowKey true).take .comma 1)

def item? (s : Scanner) : Option Scanner := do
  if s.inFlow || !s.keyAllowed then none
  let s ← (s.openBlock .blockSequence s.cursor.column s.lexemes.length).forgetKey?
  some ((s.allowKey true).take .item 1)

/-- The `?` of a key that is not written on one line. -/
def explicitKey? (s : Scanner) : Option Scanner := do
  if !s.inFlow && !s.keyAllowed then none
  let s ← (s.openBlock .blockMapping s.cursor.column s.lexemes.length).forgetKey?
  some ((s.allowKey !s.inFlow).take .key 1)

/-- At the `:` the place that may have been a key becomes one. -/
def value? (s : Scanner) : Option Scanner :=
  match s.keys with
  | some k :: outer =>
    let s := { s with lexemes := s.lexemes.insertIdx k.position .key, keys := none :: outer }
    some (((s.openBlock .blockMapping k.column k.position).allowKey false).take .value 1)
  | _ =>
    if s.inFlow then some ((s.allowKey false).take .value 1)
    else if s.keyAllowed then
      let s := s.openBlock .blockMapping s.cursor.column s.lexemes.length
      some ((s.allowKey true).take .value 1)
    else none

/-- The name behind `&` or `*`. -/
def named? (l : String → Lexeme) (s : Scanner) : Option Scanner := do
  let s := (← s.noteKey?).allowKey false
  let name := s.cursor.rest.tail.takeWhile isName
  let rest := s.cursor.rest.tail.drop name.length
  let ends := startsGap rest
    || (rest.head?.map ['?', ':', ',', ']', '}', '%', '@', '\x60'].contains).getD true
  if name.isEmpty || !ends then none
  else some (s.take (l (String.ofList name)) (name.length + 1))

def tag? (s : Scanner) : Option Scanner := do
  let s := (← s.noteKey?).allowKey false
  let (t, cursor) ← s.cursor.tag?
  if startsGap cursor.rest then some { s.add (.tag t) with cursor } else none

def plainScalar? (s : Scanner) : Option Scanner := do
  let s := (← s.noteKey?).allowKey false
  let found ← plain? s.inFlow (s.indent + 1) s.cursor "" []
  some { s.add (.scalar true found.text) with
    cursor := found.cursor, keyAllowed := found.crossedLine }

def quotedScalar? (single : Bool) (s : Scanner) : Option Scanner := do
  let s := (← s.noteKey?).allowKey false
  let found ← quoted? single s.cursor.next ""
  some { s.add (.scalar false found.text) with
    cursor := found.cursor, quotedEnd := some found.cursor.index }

def blockScalar? (literal : Bool) (s : Scanner) : Option Scanner := do
  let s := (← s.noteKey?).allowKey true
  let found ← block? literal s.indent s.cursor.next
  some { s.add (.scalar false found.text) with cursor := found.cursor }

/-- Scans the lexeme that begins with this character. -/
def lexeme? (c : Char) (rest : List Char) (s : Scanner) : Option Scanner :=
  let ends := startsGap rest
  if c = '%' && s.cursor.column = 0 then s.directive?
  else if s.cursor.atMark '-' then s.endDocument?.map (·.take .documentStart 3)
  else if s.cursor.atMark '.' then s.endDocument?.map (·.take .documentEnd 3)
  else match c with
    | '[' => s.openFlow? .flowSequence
    | '{' => s.openFlow? .flowMapping
    | ']' => s.closeFlow? .flowSequenceEnd
    | '}' => s.closeFlow? .flowMappingEnd
    | ',' => s.comma?
    | '-' => if ends then s.item? else s.plainScalar?
    | '?' => if ends then s.explicitKey? else s.plainScalar?
    | ':' =>
      let adjacent := s.inFlow && (startsFlow rest || s.quotedEnd = some s.cursor.index)
      if ends || adjacent then s.value? else s.plainScalar?
    | '*' => s.named? .alias
    | '&' => s.named? .anchor
    | '!' => s.tag?
    | '|' => if s.inFlow then s.plainScalar? else s.blockScalar? true
    | '>' => if s.inFlow then s.plainScalar? else s.blockScalar? false
    | '\'' => s.quotedScalar? true
    | '"' => s.quotedScalar? false
    | '%' => none
    | '@' => none
    | '\x60' => none
    | _ => s.plainScalar?

/-- Scans to the end of the text. -/
def run? (s : Scanner) : Option (List Lexeme) := do
  let before := s.cursor.rest.length
  let s ← s.skipGap.dropStaleKeys?
  let s := s.closeBlocks s.cursor.column
  match s.cursor.rest with
  | [] => (s.closeBlocks (-1)).forgetKey?.map (·.lexemes)
  | c :: rest =>
    let s ← s.lexeme? c rest
    if s.cursor.rest.length < before then s.run? else none
termination_by s.cursor.rest.length

end Scanner

/-- All lexemes of a text, which a NUL character ends. -/
def scan? (text : String) : Option (List Lexeme) :=
  { cursor := { rest := text.toList.takeWhile (· ≠ '\x00') } : Scanner }.run?

end Lexeme

end GraphAssembly.Yaml
