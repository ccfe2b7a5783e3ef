import GraphAssembly.Json

/-!
# Response paths

A path leads from the root of a response to one of its positions, by the key in an object and by the
index in a list. Its text is that of its elements, each after a slash.
-/

namespace GraphAssembly

inductive PathElement where
  | index (position : Nat)
  | key (name : String)
deriving DecidableEq, Inhabited

abbrev Path := List PathElement

namespace Path

/-- The path one step further. -/
def join (p : Path) (e : PathElement) : Path := p ++ [e]

def elementText : PathElement → String
  | .index i => toString i
  | .key k => k

def text (p : Path) : String := String.join (p.map fun e => "/" ++ elementText e)

def elementJson : PathElement → Json
  | .index i => .int i
  | .key k => .str k

def toJson (p : Path) : Json := .arr (p.map elementJson)

end Path

end GraphAssembly
