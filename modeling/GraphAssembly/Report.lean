import GraphAssembly.Path
import GraphAssembly.Text.Words
import GraphAssembly.Json.Record

/-!
# Error reports

An error as a response lists it: a message, the path of the position it concerns, and extensions. In
JSON an absent path and empty extensions are left out.
-/

namespace GraphAssembly

structure Report where
  message : String
  path : Option Path := none
  extensions : Dict Json := []
deriving DecidableEq, Inhabited

namespace Report

/-- A report whose only extension is its code, if it has one. -/
def make (message : String) (path : Option Path) (code : Option String) : Report :=
  { message, path, extensions := match code with
      | some c => [("code", .str c)]
      | none => [] }

def code? (r : Report) : Option String := (Dict.get? r.extensions "code").bind Json.asString?

/-- The code of an error that has none of its own: the last part of the qualified name of its type,
in capitals. -/
def codeOfTypeName (typeName : String) : String :=
  Text.shout (String.ofList (Text.afterLastColons typeName.toList))

/-! ## JSON form -/

def toJson (r : Report) : Json :=
  .obj ([("message", .str r.message)]
    ++ (match r.path with
      | some p => [("path", p.toJson)]
      | none => [])
    ++ (if r.extensions.isEmpty then [] else [("extensions", .obj r.extensions)]))

end Report

namespace Path

/-- An index is tried before a key. -/
def elementOfJson : Json → Except ShapeError PathElement
  | .num (.int i) => if 0 ≤ i then .ok (.index i.toNat) else .error (.noVariant "PathElement")
  | .str s => .ok (.key s)
  | _ => .error (.noVariant "PathElement")

def ofJson (v : Json) : Except ShapeError Path := v.readList .byKind elementOfJson

end Path

namespace Report

/-- The members read so far. -/
structure Draft where
  message : Option String := none
  path : Option (Option Path) := none
  extensions : Option (Dict Json) := none

def readExtensions (v : Json) : Except ShapeError (Dict Json) := v.readDict .byKind .ok

def Draft.member (d : Draft) (entry : String × Json) : Except ShapeError Draft :=
  match entry with
  | ("message", v) => do pure { d with message := some (← v.readString .byKind) }
  | ("path", v) => do pure { d with path := some (← v.readOption Path.ofJson) }
  | ("extensions", v) => do pure { d with extensions := some (← readExtensions v) }
  | _ => .ok d

def Draft.finish (d : Draft) : Except ShapeError Report := do
  let message ← Record.require "message" d.message
  pure { message, path := d.path.getD none, extensions := d.extensions.getD [] }

def ofItems : List Json → Except ShapeError Report
  | [] => Record.tooShort "Error" 3 0
  | [m] => do pure { message := ← m.readString .byKind }
  | [m, p] => do
    let message ← m.readString .byKind
    pure { message, path := ← p.readOption Path.ofJson }
  | m :: p :: x :: rest => do
    let message ← m.readString .byKind
    let path ← p.readOption Path.ofJson
    let extensions ← readExtensions x
    if rest.isEmpty then pure { message, path, extensions } else Record.tooLong (rest.length + 3)

def ofJson : Json → Except ShapeError Report
  | .obj entries => do (← entries.foldlM Draft.member {}).finish
  | .arr items => ofItems items
  | v => Record.notRecord "Error" v

end Report

end GraphAssembly
