import GraphAssembly.Component.Json
import GraphAssembly.Graph

/-!
# Graphs as JSON

The types of a graph, without the code behind them, for tools to read. Built-in scalars are left
out.
-/

namespace GraphAssembly

variable {ω : Type}

def InputValue.toJson (v : InputValue) : Json :=
  .obj [("name", .str v.name), ("description", .ofText? v.description), ("type", .str v.type.text)]

def FieldNode.toJson (f : FieldNode ω) : Json :=
  .obj [("name", .str f.name), ("description", .ofText? f.description), ("type", .str f.type.text),
    ("args", .arr (f.arguments.map fun a => .ofStrings [a.1, a.2.type.text]))]

/-- The possible types, and the discriminants by which they are told apart. -/
def Typing.jsonEntries (t : Typing ω) : Dict Json :=
  [("possible", .ofStrings t.possibleTypes),
    ("discriminants", .arr (t.discriminants.map fun d => .ofStrings [d.1, d.2]))]

namespace Node

def fieldsJson (fields : Dict (FieldNode ω)) : Json :=
  .arr ((Dict.values fields).map FieldNode.toJson)

/-- What is particular to the kind of the type. -/
def jsonEntries : Node ω → Dict Json
  | .scalar n => [("kind", .str "scalar"), ("codec", .bool n.codec.isSome)]
  | .object n => [("kind", .str "object"), ("fields", fieldsJson n.fields),
      ("implements", .ofStrings n.implements)]
  | .interface n =>
    [("kind", .str "interface"), ("fields", fieldsJson n.fields)] ++ n.typing.jsonEntries
  | .union n => ("kind", .str "union") :: n.typing.jsonEntries
  | .input n => [("kind", .str "input"),
      ("fields", .arr ((Dict.values n.fields).map InputValue.toJson))]

def toJson (n : Node ω) : Json :=
  .obj ([("name", .str n.name), ("description", .ofText? n.description)] ++ n.jsonEntries)

def isBuiltin : Node ω → Bool
  | .scalar n => n.codec.isNone
  | _ => false

end Node

def Graph.typesJson (g : Graph ω) : Json :=
  .arr (((Dict.values g.nodes).filter fun n => !n.isBuiltin).map Node.toJson)

end GraphAssembly
