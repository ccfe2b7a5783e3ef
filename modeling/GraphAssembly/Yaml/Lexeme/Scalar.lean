import GraphAssembly.Yaml.Lexeme.Cursor

/-!
# Scalars of YAML

Plain, quoted and block text with its line folding.
-/

namespace GraphAssembly.Yaml.Lexeme

/-! ## Line folding -/

/-- The number of line breaks in a gap; carriage return and line feed together are one. -/
def breaks : List Char → Nat
  | [] => 0
  | ['\n'] => 1
  | ['\r'] => 1
  | '\r' :: '\n' :: rest => breaks rest + 1
  | c :: rest => (if isBreak c then 1 else 0) + breaks rest

def newlines (n : Nat) : String := String.ofList (List.replicate n '\n')

/-- Blanks within a line are text. One line break is a space, and each further one is kept. -/
def folded (gap : List Char) : String :=
  match breaks gap with
  | 0 => String.ofList gap
  | 1 => " "
  | n + 2 => newlines (n + 1)

/-! ## Plain scalars -/

/-- The text up to the next gap or indicator. -/
def plainWord (inFlow : Bool) : List Char → List Char
  | [] => []
  | c :: rest =>
    if isGap c then []
    else if c = ':' && (startsGap rest || (inFlow && startsFlow rest)) then []
    else if inFlow && isFlow c then []
    else c :: plainWord inFlow rest

/-- A tab that takes part in the indentation of a continued line. -/
def hasMisplacedTab (indent : Int) (c : Cursor) : Nat → Bool → Bool
  | 0, _ => false
  | n + 1, brokenLine =>
    match c.rest with
    | [] => false
    | x :: _ =>
      (brokenLine && x = '\t' && decide ((c.column : Int) < indent))
        || hasMisplacedTab indent c.next n (brokenLine || isBreak x)

/-- A scalar that has been scanned. -/
structure Scanned where
  text : String
  cursor : Cursor
  /-- Whether the scanner has gone on to another line behind the text. -/
  crossedLine : Bool := false

/-- A plain scalar goes on over words and gaps until an indicator, a comment, or a line that is
indented less than `indent`. -/
def plain? (inFlow : Bool) (indent : Int) (c : Cursor) (text : String) (gap : List Char) :
    Option Scanned :=
  let stop := some { text, cursor := c, crossedLine := gap.any isBreak : Scanned }
  if c.atDocumentMark || c.rest.head? = some '#' then stop
  else
    let word := plainWord inFlow c.rest
    let text := if word.isEmpty then text else text ++ folded gap ++ String.ofList word
    let gap := if word.isEmpty then gap else []
    let afterWord := c.skip word.length
    let blanks := afterWord.rest.takeWhile isGap
    if blanks.isEmpty then
      some { text, cursor := afterWord, crossedLine := gap.any isBreak }
    else if hasMisplacedTab indent afterWord blanks.length (gap.any isBreak) then none
    else
      let afterGap := afterWord.skip blanks.length
      if !inFlow && decide ((afterGap.column : Int) < indent) then
        some { text, cursor := afterGap, crossedLine := (gap ++ blanks).any isBreak }
      else if afterGap.rest.length < c.rest.length then
        plain? inFlow indent afterGap text (gap ++ blanks)
      else none
termination_by c.rest.length

/-! ## Quoted scalars -/

/-- The character of an escape with one letter. -/
def escaped? : Char → Option Char
  | '0' => some '\x00'
  | 'a' => some '\x07'
  | 'b' => some '\x08'
  | 't' => some '\t'
  | '\t' => some '\t'
  | 'n' => some '\n'
  | 'v' => some '\x0b'
  | 'f' => some '\x0c'
  | 'r' => some '\r'
  | 'e' => some '\x1b'
  | ' ' => some ' '
  | '"' => some '"'
  | '\'' => some '\''
  | '\\' => some '\\'
  | 'N' => some '\u0085'
  | '_' => some '\u00a0'
  | 'L' => some '\u2028'
  | 'P' => some '\u2029'
  | _ => none

/-- Number of hexadecimal digits behind the letter of a numeric escape. -/
def escapeLength? : Char → Option Nat
  | 'x' => some 2
  | 'u' => some 4
  | 'U' => some 8
  | _ => none

def charOfHex? (length : Nat) (rest : List Char) : Option Char := do
  if rest.length < length then none
  let n ← hexValue? (rest.take length)
  if n.isValidChar then some (Char.ofNat n) else none

/-- What the head of a quoted scalar stands for. -/
inductive QuotedStep where
  | close
  | text (piece : String) (length : Nat)
  | bad

/-- The character that a backslash and what follows it stand for. An escaped line break joins two
lines without a space. -/
def escapeStep : List Char → QuotedStep
  | [] => .bad
  | e :: rest =>
    if isBreak e then
      let breakLength := if e = '\r' && rest.head? = some '\n' then 2 else 1
      let blanks := ((e :: rest).drop breakLength).takeWhile isGap
      .text (newlines (breaks blanks)) (1 + breakLength + blanks.length)
    else match escaped? e, escapeLength? e with
      | some x, _ => .text (String.singleton x) 2
      | none, none => .bad
      | none, some n => match charOfHex? n rest with
        | some x => .text (String.singleton x) (n + 2)
        | none => .bad

def quotedStep (single : Bool) : List Char → QuotedStep
  | [] => .bad
  | c :: rest =>
    if isGap c then
      let blanks := (c :: rest).takeWhile isGap
      .text (folded blanks) blanks.length
    else if single then
      if c ≠ '\'' then .text (String.singleton c) 1
      else if rest.head? = some '\'' then .text (String.singleton c) 2
      else .close
    else if c = '"' then .close
    else if c = '\\' then escapeStep rest
    else .text (String.singleton c) 1

def quoted? (single : Bool) (c : Cursor) (text : String) : Option Scanned :=
  if c.atDocumentMark then none
  else
    match quotedStep single c.rest with
    | .bad => none
    | .close => some { text, cursor := c.next }
    | .text piece length =>
      let next := c.skip length
      if next.rest.length < c.rest.length then quoted? single next (text ++ piece) else none
termination_by c.rest.length

/-! ## Block scalars -/

/-- What becomes of the line breaks at the end of a block scalar. -/
inductive Chomping where
  | clip
  | strip
  | keep
deriving DecidableEq

def chomping? : Char → Option Chomping
  | '+' => some .keep
  | '-' => some .strip
  | _ => none

def indentDigit? (c : Char) : Option Nat :=
  if c.isDigit && c ≠ '0' then some (c.toNat - '0'.toNat) else none

/-- The indicators behind `|` or `>`: chomping and explicit indentation, in either order. -/
def blockHeader (c : Cursor) : Chomping × Option Nat × Cursor :=
  match c.rest with
  | [] => (.clip, none, c)
  | x :: rest =>
    match chomping? x with
    | some chomping =>
      match rest.head?.bind indentDigit? with
      | some n => (chomping, some n, c.skip 2)
      | none => (chomping, none, c.next)
    | none =>
      match indentDigit? x with
      | none => (.clip, none, c)
      | some n =>
        match rest.head?.bind chomping? with
        | some chomping => (chomping, some n, c.skip 2)
        | none => (.clip, some n, c.next)

/-- Skips empty lines and the spaces of an indentation, which may be known. Gives the greatest
column reached and the number of empty lines; a tab is no indentation. -/
def blockGap? (indent : Option Nat) (widest empties : Nat) (c : Cursor) :
    Option (Nat × Nat × Cursor) :=
  let isIndentation (column : Nat) : Bool := (indent.map fun n => decide (column < n)).getD true
  let spaces := (c.rest.takeWhile (· = ' ')).length
  let start := c.skip ((indent.map fun n => min spaces (n - c.column)).getD spaces)
  let widest := max widest start.column
  match start.rest with
  | [] => some (widest, empties, start)
  | x :: _ =>
    if x = '\t' && isIndentation start.column then none
    else if isBreak x then
      let next := start.skipBreak
      if next.rest.length < c.rest.length then blockGap? indent widest (empties + 1) next else none
    else some (widest, empties, start)
termination_by c.rest.length

/-- The text of a block scalar while its lines are added. -/
structure BlockText where
  text : String := ""
  /-- Whether the last line has been ended by a break that is not yet written. -/
  ended : Bool := false
  /-- Empty lines since then. -/
  empties : Nat := 0
  /-- Whether the last line began with a blank. -/
  indented : Bool := false

def BlockText.addLine (literal : Bool) (b : BlockText) (line : List Char) : BlockText :=
  let indented := (line.head?.map isBlank).getD false
  let separator :=
    if !b.ended then ""
    else if !literal && !b.indented && !indented then if b.empties = 0 then " " else ""
    else "\n"
  { b with
    text := b.text ++ separator ++ newlines b.empties ++ String.ofList line
    ended := true, empties := 0, indented }

/-- Adds the lines that begin at the column of the indentation. -/
def BlockText.addLines? (literal : Bool) (indent : Nat) (b : BlockText) (c : Cursor) :
    Option (BlockText × Cursor) :=
  if c.column ≠ indent || c.rest.isEmpty then some (b, c)
  else
    let line := c.rest.takeWhile (!isBreak ·)
    let b := b.addLine literal line
    let afterLine := c.skip line.length
    if afterLine.rest.isEmpty then some ({ b with ended := false }, afterLine)
    else match blockGap? (some indent) 0 0 afterLine.skipBreak with
      | none => none
      | some (_, empties, next) =>
        if next.rest.length < c.rest.length then
          BlockText.addLines? literal indent { b with empties } next
        else none
termination_by c.rest.length

def BlockText.finish (chomping : Chomping) (b : BlockText) : String :=
  let final := if b.ended && chomping ≠ .strip then "\n" else ""
  b.text ++ final ++ (if chomping = .keep then newlines b.empties else "")

/-- The scalar behind `|` or `>`, for an enclosing block collection at column `outer`. Without an
explicit indentation, that of the first line with text counts, or of a wider empty line before
it. -/
def block? (literal : Bool) (outer : Int) (start : Cursor) : Option Scanned := do
  let (chomping, increment, c) := blockHeader start
  let c ← c.endLine?
  let given := increment.map ((max outer 0).toNat + ·)
  let (widest, empties, c) ← blockGap? given 0 0 c
  let indent := given.getD (max widest (max (outer + 1).toNat 1))
  let (b, c) ← BlockText.addLines? literal indent { empties } c
  some { text := b.finish chomping, cursor := c }

end GraphAssembly.Yaml.Lexeme
