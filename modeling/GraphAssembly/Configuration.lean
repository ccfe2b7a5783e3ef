import GraphAssembly.Json.Record

/-!
# Configuration

How graphs are assembled and executed. Every part has a default, and a part that is not known is a
mistake.
-/

namespace GraphAssembly

/-- How the object type of a value of an abstract type is found. -/
structure TypeResolution where
  /-- Name of the field in which a value may name its own type. -/
  markerField : String := "__typename"
  /-- Whether a field that only one possible type declares identifies that type. -/
  discriminants : Bool := true
deriving DecidableEq, Inhabited

structure Execution where
  /-- Whether the sibling fields of a query are resolved concurrently. -/
  concurrentFields : Bool := true
deriving DecidableEq, Inhabited

structure Configuration where
  typeResolution : TypeResolution := {}
  execution : Execution := {}
deriving DecidableEq, Inhabited

/-! ## Parts and their JSON form -/

namespace TypeResolution

/-- The given values, and the defaults where a value is not given. -/
def make (markerField : Option String) (discriminants : Option Bool) : TypeResolution :=
  let byDefault : TypeResolution := {}
  { markerField := markerField.getD byDefault.markerField
    discriminants := discriminants.getD byDefault.discriminants }

def members : List String := ["marker_field", "discriminants"]

def toJson (t : TypeResolution) : Json :=
  .obj [("marker_field", .str t.markerField), ("discriminants", .bool t.discriminants)]

def member (t : TypeResolution) (entry : String × Json) : Except ShapeError TypeResolution :=
  match entry with
  | ("marker_field", v) => do pure { t with markerField := ← v.readString .byKind }
  | ("discriminants", v) => do pure { t with discriminants := ← v.readBool .byKind }
  | (name, _) => .error (.unknownField name members)

def ofItems : List Json → Except ShapeError TypeResolution
  | [] => .ok {}
  | [m] => do pure { markerField := ← m.readString .byKind }
  | m :: d :: rest => do
    let markerField ← m.readString .byKind
    let discriminants ← d.readBool .byKind
    if rest.isEmpty then pure { markerField, discriminants } else Record.tooLong (rest.length + 2)

def ofJson : Json → Except ShapeError TypeResolution
  | .obj entries => entries.foldlM member {}
  | .arr items => ofItems items
  | v => Record.notRecord "TypeResolution" v

end TypeResolution

namespace Execution

/-- The given value, or the default. -/
def make (concurrentFields : Option Bool) : Execution :=
  let byDefault : Execution := {}
  { concurrentFields := concurrentFields.getD byDefault.concurrentFields }

def members : List String := ["concurrent_fields"]

def toJson (e : Execution) : Json := .obj [("concurrent_fields", .bool e.concurrentFields)]

def member (e : Execution) (entry : String × Json) : Except ShapeError Execution :=
  match entry with
  | ("concurrent_fields", v) => do pure { e with concurrentFields := ← v.readBool .byKind }
  | (name, _) => .error (.unknownField name members)

def ofItems : List Json → Except ShapeError Execution
  | [] => .ok {}
  | c :: rest => do
    let concurrentFields ← c.readBool .byKind
    if rest.isEmpty then pure { concurrentFields } else Record.tooLong (rest.length + 1)

def ofJson : Json → Except ShapeError Execution
  | .obj entries => entries.foldlM member {}
  | .arr items => ofItems items
  | v => Record.notRecord "Execution" v

end Execution

namespace Configuration

def members : List String := ["type_resolution", "execution"]

def toJson (c : Configuration) : Json :=
  .obj [("type_resolution", c.typeResolution.toJson), ("execution", c.execution.toJson)]

def member (c : Configuration) (entry : String × Json) : Except ShapeError Configuration :=
  match entry with
  | ("type_resolution", v) => do pure { c with typeResolution := ← TypeResolution.ofJson v }
  | ("execution", v) => do pure { c with execution := ← Execution.ofJson v }
  | (name, _) => .error (.unknownField name members)

def ofItems : List Json → Except ShapeError Configuration
  | [] => .ok {}
  | [t] => do pure { typeResolution := ← TypeResolution.ofJson t }
  | t :: e :: rest => do
    let typeResolution ← TypeResolution.ofJson t
    let execution ← Execution.ofJson e
    if rest.isEmpty then pure { typeResolution, execution } else Record.tooLong (rest.length + 2)

def ofJson : Json → Except ShapeError Configuration
  | .obj entries => entries.foldlM member {}
  | .arr items => ofItems items
  | v => Record.notRecord "Configuration" v

/-- The configuration with the given parts, and the defaults where a part is not given. -/
def make (typeResolution : Option TypeResolution) (execution : Option Execution) :
    Configuration :=
  { typeResolution := typeResolution.getD {}, execution := execution.getD {} }

end Configuration

/-! ## Validation -/

inductive ConfigurationError where
  /-- The document is not a configuration. -/
  | unreadable
  | emptyMarkerField
deriving DecidableEq

def ConfigurationError.message : ConfigurationError → String
  | .unreadable => "could not deserialize configuration"
  | .emptyMarkerField => "type_resolution.marker_field must not be empty: empty marker field"

/-- A marker field without a name could never be carried by a value. -/
def Configuration.validate (c : Configuration) : Except ConfigurationError Configuration :=
  if c.typeResolution.markerField = "" then .error .emptyMarkerField else .ok c

end GraphAssembly
