import GraphAssembly.Report

/-!
# Responses

The answer to a request: the data, and the errors in the order in which they were recorded. Data
that is null belongs to an error that reached the root; data that is absent, to an operation that
the schema does not support.
-/

namespace GraphAssembly

structure Response where
  data : Option Json := none
  errors : List Report := []
deriving DecidableEq, Inhabited

namespace Response

/-- Absent data is written as null, and errors are left out when there are none. -/
def toJson (r : Response) : Json :=
  .obj ([("data", r.data.getD .null)]
    ++ (if r.errors.isEmpty then [] else [("errors", .arr (r.errors.map Report.toJson))]))

def readData (v : Json) : Option Json := if v = .null then none else some v

def readErrors (v : Json) : Except ShapeError (List Report) := v.readList .byKind Report.ofJson

def member (r : Response) (entry : String × Json) : Except ShapeError Response :=
  match entry with
  | ("data", v) => .ok { r with data := readData v }
  | ("errors", v) => do pure { r with errors := ← readErrors v }
  | _ => .ok r

def ofItems : List Json → Except ShapeError Response
  | [] => .ok {}
  | [d] => .ok { data := readData d }
  | d :: e :: rest => do
    let errors ← readErrors e
    if rest.isEmpty then pure { data := readData d, errors } else Record.tooLong (rest.length + 2)

def ofJson : Json → Except ShapeError Response
  | .obj entries => entries.foldlM member {}
  | .arr items => ofItems items
  | v => Record.notRecord "Response" v

end Response

end GraphAssembly
