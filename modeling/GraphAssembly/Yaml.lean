import GraphAssembly.Dict

/-!
# YAML values

A document is a tree of scalars, sequences and mappings. What a scalar means is decided by the place
it is read for, so its text, its tag and whether it was quoted are kept.
-/

namespace GraphAssembly

/-- A tag says of what kind a value is. A handle such as `!!` stands for the head of its name; one
in angle brackets has no handle. -/
structure Yaml.Tag where
  handle : String
  suffix : String
deriving DecidableEq, Repr

inductive Yaml where
  /-- `plain` tells a scalar without quotes. -/
  | scalar (tag : Option Yaml.Tag) (plain : Bool) (text : String)
  | sequence (items : List Yaml)
  | mapping (entries : List (Yaml × Yaml))
deriving Inhabited

namespace Yaml

/-- The scalar that stands where nothing is written. -/
def missing : Yaml := .scalar none true "~"

/-- Every scalar is also a string. -/
def text? : Yaml → Option String
  | .scalar _ _ text => some text
  | _ => none

def Tag.bool : Tag := ⟨"!!", "bool"⟩

/-- A truth value is a plain scalar, or any scalar that is tagged as one. -/
def bool? : Yaml → Option Bool
  | .scalar tag plain text =>
    if (tag.isNone && plain) || tag = some .bool then
      if text = "true" then some true else if text = "false" then some false else none
    else none
  | _ => none

/-- The members of a record. A mapping gives them by name, each at most once and none but these; a
sequence gives them in order and may end early. -/
def members? (names : List String) : Yaml → Option (Dict Yaml)
  | .mapping entries => do
    let pairs ← entries.mapM fun entry => do pure (← entry.1.text?, entry.2)
    let given := Dict.keys pairs
    if given.all names.contains && decide given.Nodup then some pairs else none
  | .sequence items => if items.length ≤ names.length then some (names.zip items) else none
  | .scalar .. => none

end Yaml

end GraphAssembly
