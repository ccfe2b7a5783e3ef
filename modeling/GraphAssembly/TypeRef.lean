import GraphAssembly.Json.Shape

/-!
# Type references

How a field, an argument or an input field refers to a type: by name, as a list, or as never null.
The five built-in scalars have constructors of their own, so a name in `named` is never theirs when
the reference comes from `ofName`.
-/

namespace GraphAssembly

inductive TypeRef where
  | named (name : String)
  | list (item : TypeRef)
  | nonNull (inner : TypeRef)
  | string
  | int
  | float
  | id
  | boolean
deriving DecidableEq, Inhabited

namespace TypeRef

/-- Names of the built-in scalars, in the order in which a graph lists them. -/
def builtinNames : List String := ["String", "Int", "Float", "ID", "Boolean"]

/-- The type of this name, built-in scalars included. -/
def ofName (name : String) : TypeRef :=
  match name with
  | "String" => .string
  | "Int" => .int
  | "Float" => .float
  | "ID" => .id
  | "Boolean" => .boolean
  | name => .named name

def text : TypeRef → String
  | .named name => name
  | .list item => "[" ++ item.text ++ "]"
  | .nonNull inner => inner.text ++ "!"
  | .string => "String"
  | .int => "Int"
  | .float => "Float"
  | .id => "ID"
  | .boolean => "Boolean"

/-- The name under all lists and non-null marks. -/
def baseName : TypeRef → String
  | .named name => name
  | .list item => item.baseName
  | .nonNull inner => inner.baseName
  | .string => "String"
  | .int => "Int"
  | .float => "Float"
  | .id => "ID"
  | .boolean => "Boolean"

def isBuiltin : TypeRef → Bool
  | .named _ | .list _ | .nonNull _ => false
  | .string | .int | .float | .id | .boolean => true

def isNonNull : TypeRef → Bool
  | .nonNull _ => true
  | _ => false

/-- Whether the type is that of single values, which may be null. -/
def isSingle : TypeRef → Bool
  | .nonNull _ | .list _ => false
  | _ => true

theorem baseName_ofName (name : String) : (ofName name).baseName = name := by
  unfold ofName
  split <;> rfl

theorem isSingle_ofName (name : String) : (ofName name).isSingle = true := by
  unfold ofName
  split <;> rfl

/-- Int is limited to 32 bits, and an ID may also be written as an integer. -/
def accepts : TypeRef → Json → Bool
  | .int, .num (.int i) => -2147483648 ≤ i && i ≤ 2147483647
  | .float, .num _ => true
  | .string, .str _ => true
  | .boolean, .bool _ => true
  | .id, .str _ => true
  | .id, .num (.int _) => true
  | _, _ => false

@[simp] theorem accepts_null (t : TypeRef) : t.accepts .null = false := by
  cases t <;> rfl

/-! ## JSON form -/

def variants : List String :=
  ["Named", "List", "NonNull", "String", "Int", "Float", "Id", "Boolean"]

/-- A built-in is its name; the others are an object whose key is the variant. -/
def toJson : TypeRef → Json
  | .named name => .obj [("Named", .str name)]
  | .list item => .obj [("List", item.toJson)]
  | .nonNull inner => .obj [("NonNull", inner.toJson)]
  | .string => .str "String"
  | .int => .str "Int"
  | .float => .str "Float"
  | .id => .str "Id"
  | .boolean => .str "Boolean"

/-- The built-in scalar of this variant. -/
def scalarVariant? : String → Option TypeRef
  | "String" => some .string
  | "Int" => some .int
  | "Float" => some .float
  | "Id" => some .id
  | "Boolean" => some .boolean
  | _ => none

/-- A variant that stands alone. -/
def ofBareVariant (tag : String) : Except ShapeError TypeRef :=
  match scalarVariant? tag with
  | some t => .ok t
  | none =>
    if tag ∈ variants then .error (.invalidType .bareVariant "newtype variant")
    else .error (.unknownVariant tag variants)

/-- A built-in may carry a null. -/
def scalarOfContent (tag : String) (content : Json) : Except ShapeError TypeRef :=
  match scalarVariant? tag with
  | none => .error (.unknownVariant tag variants)
  | some t => if content = .null then .ok t else content.mismatch .byKind "unit"

def ofJson : Json → Except ShapeError TypeRef
  | .str tag => ofBareVariant tag
  | .obj [(tag, content)] =>
    if tag = "Named" then (content.readString .byKind).map .named
    else if tag = "List" then (ofJson content).map .list
    else if tag = "NonNull" then (ofJson content).map .nonNull
    else scalarOfContent tag content
  | .obj _ => .error (.invalidValue .map "map with a single key")
  | v => v.mismatch .byKind "string or map"

end TypeRef

end GraphAssembly
