import GraphAssembly.Text.Words

/-!
# Tokens

A token is the unique name under which an instance is registered. A qualified type name, such as
`store::Cache<store::Entry>`, gives the token of its outermost type without its qualification.
-/

namespace GraphAssembly

structure Token where
  name : String
deriving DecidableEq, Inhabited

namespace Token

def isEmpty (t : Token) : Bool := t.name = ""

/-- The part of the name before any parameters, from after its last qualification. -/
def ofTypeName (typeName : String) : Token :=
  ⟨String.ofList (Text.afterLastColons (typeName.toList.takeWhile (· ≠ '<')))⟩

/-- The tokens of a path, from the outermost to the innermost. -/
def chainText (chain : List Token) : String := " -> ".intercalate (chain.map name)

end Token

end GraphAssembly
