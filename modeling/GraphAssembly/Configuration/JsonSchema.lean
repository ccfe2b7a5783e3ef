import GraphAssembly.Configuration

/-!
# The JSON schema of configurations

A description of the document for editors. Its defaults are the defaults of the configuration.
-/

namespace GraphAssembly

namespace JsonSchema

/-- A schema of an object that has these members and no others. -/
def record (description : String) (properties : Dict Json) : Dict Json :=
  [("description", .str description), ("type", .str "object"), ("properties", .obj properties),
    ("additionalProperties", .bool false)]

def scalar (type description : String) (default : Json) : Json :=
  .obj [("description", .str description), ("default", default), ("type", .str type)]

/-- A member whose schema is among the definitions. -/
def part (definition description : String) (default : Json) : Json :=
  .obj [("description", .str description), ("default", default),
    ("allOf", .arr [.obj [("$ref", .str ("#/definitions/" ++ definition))]])]

end JsonSchema

open JsonSchema

namespace TypeResolution

def description : String := "Runtime type resolution for interfaces and unions."

def jsonSchema : Json :=
  let byDefault : TypeResolution := {}
  .obj (record description
    [("marker_field", scalar "string"
        "Name of the field a value may carry to name its own type default: \"__typename\""
        (.str byDefault.markerField)),
      ("discriminants", scalar "boolean"
        "Identify a value's type by a field only that type declares enabled by default"
        (.bool byDefault.discriminants))])

end TypeResolution

namespace Execution

def description : String := "Field execution."

def jsonSchema : Json :=
  let byDefault : Execution := {}
  .obj (record description
    [("concurrent_fields", scalar "boolean"
        ("Resolve the sibling fields of a query concurrently. Mutation fields always resolve " ++
          "one after the other. enabled by default")
        (.bool byDefault.concurrentFields))])

end Execution

namespace Configuration

def description : String :=
  "How schemas are compiled and executed.\n\nCan be created through `serde::Deserialize` from " ++
    "various formats, or inline in Rust code with the builder."

def jsonSchema : Json :=
  let byDefault : Configuration := {}
  .obj ([("$schema", .str "http://json-schema.org/draft-07/schema#"),
      ("title", .str "Configuration")]
    ++ record description
      [("type_resolution", part "TypeResolution" TypeResolution.description
          byDefault.typeResolution.toJson),
        ("execution", part "Execution" Execution.description byDefault.execution.toJson)]
    ++ [("definitions", .obj [("Execution", Execution.jsonSchema),
        ("TypeResolution", TypeResolution.jsonSchema)])])

end Configuration

end GraphAssembly
