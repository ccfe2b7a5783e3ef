import GraphAssembly.Json.Record

/-!
# Selections

What a request asks for. A selection is a field, under an alias if it has one, or an inline
fragment, whose selections count only for objects of some type.

1. Selections and their size.
2. The JSON form. A field leaves out what it does not have.
3. Operations and requests.
-/

namespace GraphAssembly

inductive Selection where
  | field (name : String) (alias? : Option String) (arguments : Dict Json)
      (selections : List Selection)
  | fragment (typeCondition : String) (selections : List Selection)
deriving Inhabited

/-- A selected field by itself. -/
structure SelectedField where
  name : String
  alias? : Option String := none
  arguments : Dict Json := []
  selections : List Selection := []
deriving Inhabited

/-- The key of the field in the response. -/
def SelectedField.responseKey (f : SelectedField) : String := f.alias?.getD f.name

def SelectedField.toSelection (f : SelectedField) : Selection :=
  .field f.name f.alias? f.arguments f.selections

namespace Selection

mutual

/-- The number of selections, nested ones included. -/
def size : Selection → Nat
  | .field _ _ _ selections => sizeAll selections + 1
  | .fragment _ selections => sizeAll selections + 1

def sizeAll : List Selection → Nat
  | [] => 0
  | s :: rest => size s + sizeAll rest

end

/-! ## JSON form -/

mutual

def toJson : Selection → Json
  | .field name alias? arguments selections =>
    .obj [("field", .obj ([("name", .str name)]
      ++ (match alias? with
        | some a => [("alias", .str a)]
        | none => [])
      ++ (if arguments.isEmpty then [] else [("arguments", .obj arguments)])
      ++ (if selections.isEmpty then [] else [("selectionSet", .arr (toJsonAll selections))])))]
  | .fragment typeCondition selections =>
    .obj [("inlineFragment", .obj [("type_condition", .str typeCondition),
      ("selection_set", .arr (toJsonAll selections))])]

def toJsonAll : List Selection → List Json
  | [] => []
  | s :: rest => toJson s :: toJsonAll rest

end

def variants : List String := ["field", "inlineFragment"]

/-- A variant without content. -/
def ofBareVariant (tag : String) : Except ShapeError Selection :=
  if tag = "field" then .error (.invalidType .bareVariant "newtype variant")
  else if tag = "inlineFragment" then .error (.invalidType .bareVariant "struct variant")
  else .error (.unknownVariant tag variants)

/-- The members of a field read so far. -/
structure FieldDraft where
  name : Option String := none
  alias? : Option String := none
  arguments : Dict Json := []
  selections : List Selection := []

def FieldDraft.finish (d : FieldDraft) : Except ShapeError SelectedField := do
  pure ⟨← Record.require "name" d.name, d.alias?, d.arguments, d.selections⟩

/-- The members of a fragment read so far. -/
structure FragmentDraft where
  typeCondition : Option String := none
  selections : Option (List Selection) := none

def FragmentDraft.finish (d : FragmentDraft) : Except ShapeError Selection := do
  pure (.fragment (← Record.require "type_condition" d.typeCondition)
    (← Record.require "selection_set" d.selections))

def readAlias (v : Json) : Except ShapeError (Option String) :=
  v.readOption (Json.readString .byKind)

def readArguments (v : Json) : Except ShapeError (Dict Json) := v.readDict .byKind .ok

mutual

def ofJson : Json → Except ShapeError Selection
  | .str tag => ofBareVariant tag
  | .obj [(tag, content)] =>
    if tag = "field" then (fieldOfJson content).map SelectedField.toSelection
    else if tag = "inlineFragment" then fragmentOfJson content
    else .error (.unknownVariant tag variants)
  | .obj _ => .error (.invalidValue .map "map with a single key")
  | v => v.mismatch .byKind "string or map"

def fieldOfJson : Json → Except ShapeError SelectedField
  | .obj entries => do (← fieldMembers {} entries).finish
  | .arr items => fieldItems items
  | v => Record.notRecord "Field" v

def fieldMembers (d : FieldDraft) : List (String × Json) → Except ShapeError FieldDraft
  | [] => .ok d
  | (key, v) :: rest => do
    let d ←
      if key = "name" then do pure { d with name := some (← v.readString .byKind) }
      else if key = "alias" then do pure { d with alias? := ← readAlias v }
      else if key = "arguments" then do pure { d with arguments := ← readArguments v }
      else if key = "selectionSet" then do pure { d with selections := ← listOfJson v }
      else pure d
    fieldMembers d rest

/-- A field as the list of its members. -/
def fieldItems : List Json → Except ShapeError SelectedField
  | [] => Record.tooShort "Field" 4 0
  | [n] => do pure { name := ← n.readString .byKind }
  | [n, a] => do
    let name ← n.readString .byKind
    pure { name, alias? := ← readAlias a }
  | [n, a, g] => do
    let name ← n.readString .byKind
    let alias? ← readAlias a
    pure { name, alias?, arguments := ← readArguments g }
  | n :: a :: g :: s :: rest => do
    let name ← n.readString .byKind
    let alias? ← readAlias a
    let arguments ← readArguments g
    let selections ← listOfJson s
    if rest.isEmpty then pure { name, alias?, arguments, selections }
    else Record.tooLong (rest.length + 4)

def fragmentOfJson : Json → Except ShapeError Selection
  | .obj entries => do (← fragmentMembers {} entries).finish
  | v => v.mismatch .byKind "struct variant"

def fragmentMembers (d : FragmentDraft) : List (String × Json) → Except ShapeError FragmentDraft
  | [] => .ok d
  | (key, v) :: rest => do
    let d ←
      if key = "type_condition" then do
        pure { d with typeCondition := some (← v.readString .byKind) }
      else if key = "selection_set" then do pure { d with selections := some (← listOfJson v) }
      else pure d
    fragmentMembers d rest

def listOfJson : Json → Except ShapeError (List Selection)
  | .arr items => ofJsonAll items
  | v => v.mismatch .byKind "a sequence"

def ofJsonAll : List Json → Except ShapeError (List Selection)
  | [] => .ok []
  | v :: rest => do
    let s ← ofJson v
    pure (s :: (← ofJsonAll rest))

end

end Selection

/-! ## Operations -/

/-- The siblings of a query may be resolved concurrently, those of a mutation never are. -/
inductive Operation where
  | query
  | mutation
deriving DecidableEq, Inhabited

namespace Operation

def text : Operation → String
  | .query => "query"
  | .mutation => "mutation"

def toJson (o : Operation) : Json := .str o.text

def ofText (tag : String) : Except ShapeError Operation :=
  match tag with
  | "query" => .ok .query
  | "mutation" => .ok .mutation
  | tag => .error (.unknownVariant tag ["query", "mutation"])

/-- A name, or an object that gives it a null. -/
def ofJson : Json → Except ShapeError Operation
  | .str tag => ofText tag
  | .obj [(tag, content)] => do
    let o ← ofText tag
    if content = .null then pure o else content.mismatch .byKind "unit"
  | .obj _ => .error (.invalidValue .map "map with a single key")
  | v => v.mismatch .byKind "string or map"

end Operation

/-! ## Requests -/

structure Request where
  operation : Operation := .query
  selections : List Selection := []
deriving Inhabited

/-- A request is a query that selects nothing unless it says otherwise. -/
def Request.ofJson (v : Json) : Except ShapeError Request := do
  let selections ← match v.get? "selections" with
    | some s => Selection.listOfJson s
    | none => .ok []
  let operation ← match v.get? "operation" with
    | some o => Operation.ofJson o
    | none => .ok .query
  pure { operation, selections }

end GraphAssembly
