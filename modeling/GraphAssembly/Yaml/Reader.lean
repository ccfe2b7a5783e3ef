import GraphAssembly.Yaml
import GraphAssembly.Yaml.Lexeme

/-!
# Reading YAML text

Values are put together from lexemes. Of four nested calls below at least one consumes a lexeme, so
four times their number bounds the depth.
-/

namespace GraphAssembly.Yaml

/-- What a name stands for: the value that begins where so many lexemes are left. It is known once
it has been read. -/
structure Anchor where
  left : Nat
  value : Option Yaml := none

/-- What is left to read, and what the names given so far stand for. -/
structure Reading where
  lexemes : List Lexeme
  anchors : Dict Anchor := []

abbrev Reader (α : Type) := StateT Reading Option α

namespace Reader

def peek : Reader (Option Lexeme) := do pure (← get).lexemes.head?

def advance : Reader Unit := modify fun r => { r with lexemes := r.lexemes.tail }

/-- Consumes this lexeme if it is next. -/
def accept (l : Lexeme) : Reader Bool := do
  if (← peek) = some l then
    advance
    pure true
  else pure false

def expect (l : Lexeme) : Reader Unit := do if !(← accept l) then failure

/-- Whether one of these lexemes is next. -/
def isNext (ls : List Lexeme) : Reader Bool := do
  pure (((← peek).map ls.contains).getD false)

def tag : Reader (Option Tag) := do
  match ← peek with
  | some (.tag t) =>
    advance
    pure (some t)
  | _ => pure none

/-- A name stands for the value that follows, also where it has stood for another one before. -/
def anchor : Reader (Option (String × Nat)) := do
  match ← peek with
  | some (.anchor name) =>
    advance
    let left := (← get).lexemes.length
    modify fun r => { r with anchors := r.anchors.insert name { left } }
    pure (some (name, left))
  | _ => pure none

/-- What stands before a value: its tag and its name, in either order. -/
def properties : Reader (Option Tag × Option (String × Nat)) := do
  match ← tag with
  | some t => pure (some t, ← anchor)
  | none =>
    match ← anchor with
    | some a => pure (← tag, some a)
    | none => pure (none, none)

/-- Keeps a value for its name, unless a value within it has taken the name. -/
def register (named : Option (String × Nat)) (v : Yaml) : Reader Unit := do
  if let some (name, left) := named then
    if ((← get).anchors.get? name).any (·.left = left) then
      modify fun r => { r with anchors := r.anchors.insert name { left, value := some v } }

/-- Only a tag or a name may stand for a value on its own. -/
def absent (tag : Option Tag) (named : Bool) : Reader Yaml :=
  if tag.isSome || named then pure (.scalar tag true "") else failure

mutual

/-- Reads one value. `block` admits block collections, and `indentless` also a sequence that is not
indented further than its key. -/
def value (block indentless : Bool) : Nat → Reader Yaml
  | 0 => failure
  | fuel + 1 => do
    match ← peek with
    | some (.alias name) =>
      advance
      ((← get).anchors.get? name).bind (·.value)
    | _ =>
      let (tag, named) ← properties
      let v ← content block indentless tag named.isSome fuel
      register named v
      pure v

/-- Reads a value behind its tag and name. -/
def content (block indentless : Bool) (tag : Option Tag) (named : Bool) : Nat → Reader Yaml
  | 0 => failure
  | fuel + 1 => do
    match ← peek with
    | some (.scalar plain text) =>
      advance
      pure (.scalar tag plain text)
    | some .flowSequence =>
      advance
      pure (.sequence (← flowItems true fuel))
    | some .flowMapping =>
      advance
      pure (.mapping (← flowEntries true fuel))
    | some l =>
      if l = .item && indentless then
        pure (.sequence (← indentlessItems fuel))
      else if l = .blockSequence && block then
        advance
        pure (.sequence (← blockItems fuel))
      else if l = .blockMapping && block then
        advance
        pure (.mapping (← blockEntries fuel))
      else absent tag named
    | none => absent tag named

/-- Nothing is written where one of these lexemes is next. -/
def valueUnless (ends : List Lexeme) (block indentless : Bool) : Nat → Reader Yaml
  | 0 => failure
  | fuel + 1 => do
    if ← isNext ends then pure missing
    else value block indentless fuel

def blockItems : Nat → Reader (List Yaml)
  | 0 => failure
  | fuel + 1 => do
    if ← accept .blockEnd then pure []
    else
      expect .item
      let v ← valueUnless [.item, .blockEnd] true false fuel
      pure (v :: (← blockItems fuel))

def indentlessItems : Nat → Reader (List Yaml)
  | 0 => failure
  | fuel + 1 => do
    if ← accept .item then
      let v ← valueUnless [.item, .key, .value, .blockEnd] true false fuel
      pure (v :: (← indentlessItems fuel))
    else pure []

/-- The value behind `:`, if there is one. -/
def valueBehind (ends : List Lexeme) (block : Bool) : Nat → Reader Yaml
  | 0 => failure
  | fuel + 1 => do
    if ← accept .value then valueUnless ends block block fuel
    else pure missing

def blockEntries : Nat → Reader (List (Yaml × Yaml))
  | 0 => failure
  | fuel + 1 => do
    if ← accept .blockEnd then pure []
    else
      let key ← blockKey fuel
      let v ← valueBehind [.key, .value, .blockEnd] true fuel
      pure ((key, v) :: (← blockEntries fuel))

def blockKey : Nat → Reader Yaml
  | 0 => failure
  | fuel + 1 => do
    if ← accept .key then valueUnless [.key, .value, .blockEnd] true true fuel
    else if ← isNext [.value] then pure missing
    else failure

def flowItems (first : Bool) : Nat → Reader (List Yaml)
  | 0 => failure
  | fuel + 1 => do
    if ← accept .flowSequenceEnd then pure []
    else
      if !first then expect .comma
      if ← accept .flowSequenceEnd then pure []
      else
        let v ← flowItem fuel
        pure (v :: (← flowItems false fuel))

/-- An item with a key is a mapping with one entry. -/
def flowItem : Nat → Reader Yaml
  | 0 => failure
  | fuel + 1 => do
    if ← accept .key then
      if ← isNext [.value, .comma, .flowSequenceEnd] then
        advance
        let v ← valueBehind [.comma, .flowSequenceEnd] false fuel
        pure (.mapping [(missing, v)])
      else
        let key ← value false false fuel
        let v ← valueBehind [.comma, .flowSequenceEnd] false fuel
        pure (.mapping [(key, v)])
    else value false false fuel

def flowEntries (first : Bool) : Nat → Reader (List (Yaml × Yaml))
  | 0 => failure
  | fuel + 1 => do
    if ← accept .flowMappingEnd then pure []
    else
      if !first then expect .comma
      if ← accept .flowMappingEnd then pure []
      else
        let entry ← flowEntry fuel
        pure (entry :: (← flowEntries false fuel))

/-- A value that is not marked as a key is the key of an entry without a value. -/
def flowEntry : Nat → Reader (Yaml × Yaml)
  | 0 => failure
  | fuel + 1 => do
    if ← accept .key then
      let key ← valueUnless [.value, .comma, .flowMappingEnd] false false fuel
      pure (key, ← valueBehind [.comma, .flowMappingEnd] false fuel)
    else if ← isNext [.value] then
      pure (missing, ← valueBehind [.comma, .flowMappingEnd] false fuel)
    else
      pure (← value false false fuel, missing)

end

/-- A document that begins with directives or a mark may be empty. -/
def document (fuel : Nat) : Reader Yaml := do
  if ← isNext [.directive, .documentStart] then
    modify fun r => { r with lexemes := r.lexemes.dropWhile (· = .directive) }
    expect .documentStart
    match ← peek with
    | none => pure missing
    | some l =>
      if [.directive, .documentStart, .documentEnd].contains l then pure missing
      else value true false fuel
  else value true false fuel

end Reader

/-- The only document of a text. -/
def read? (text : String) : Option Yaml := do
  let lexemes ← Lexeme.scan? text
  let (v, rest) ← (Reader.document (4 * lexemes.length + 4)).run { lexemes }
  if rest.lexemes.all (· = .documentEnd) then some v else none

end GraphAssembly.Yaml
