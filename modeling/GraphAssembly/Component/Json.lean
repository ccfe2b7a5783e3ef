import GraphAssembly.Component

/-!
# Components as JSON

What a component declares, without the code behind it, for tools to read.
-/

namespace GraphAssembly

variable {ω : Type}

def Json.ofStrings (texts : List String) : Json := .arr (texts.map .str)

/-- An absent text is null. -/
def Json.ofText? (text : Option String) : Json := (text.map Json.str).getD .null

namespace FieldSpec

/-- The declared type alone. -/
def typeEntries (f : FieldSpec) : Dict Json :=
  [("type_name", .str f.typeName), ("list", .bool f.list), ("nullable", .bool f.nullable)]

def toJson (f : FieldSpec) : Json :=
  .obj (f.typeEntries ++ [("description", .ofText? f.description)])

end FieldSpec

/-- The fields of a declaration by name. -/
def Members.toJson (m : Members FieldSpec) : Json :=
  .obj (Dict.mapValues FieldSpec.toJson m.entries)

def Parameter.toJson (p : Parameter) : Json :=
  .obj ([("name", .str p.name)] ++ p.type.typeEntries ++ [("index", .int p.position)])

/-- Options and the result slot are left out where they are not given. -/
def Binding.toJson (b : Binding ω) : Json :=
  .obj ([("token", .str b.token.name)]
    ++ (b.options.map fun o => ("options", o)).toList
    ++ (b.resultName.map fun n => ("resultName", Json.str n)).toList)

def Resolver.toJson (r : Resolver ω) : Json :=
  .obj [("name", .str r.name), ("field", r.field.toJson),
    ("instance_token", .str r.instanceToken.name),
    ("args", .arr (r.parameters.map Parameter.toJson)),
    ("middlewares", .arr (r.bindings.map Binding.toJson))]

def ComponentKind.text : ComponentKind → String
  | .objectDefinition => "objectDefinition"
  | .objectImplementation => "objectImplementation"
  | .interface => "interface"
  | .union => "union"
  | .input => "input"
  | .scalar => "scalar"
  | .middleware => "middleware"
  | .unannotated => "unannotated"

namespace Component

/-- The token of a provider that a component brings with it. -/
def providerJson (p : Option (Provider ω)) : Json := .ofText? (p.map fun q => q.token.name)

/-- What is particular to the kind of the component. -/
def detail : Component ω → Json
  | .definition d => .obj [("fields", d.fields.toJson), ("implements", .ofStrings d.implements)]
  | .implementation i =>
    .obj [("token", .str i.instanceToken.name), ("provider", providerJson i.provider),
      ("implements", .ofStrings i.implements),
      ("middlewares", .arr (i.bindings.map Binding.toJson)),
      ("resolvers", .arr (i.resolvers.entries.map fun entry =>
        .arr [.str entry.1, entry.2.toJson]))]
  | .interface i => .obj [("fields", i.fields.toJson), ("custom", .bool i.chooser.isSome)]
  | .union u => .obj [("types", .ofStrings u.members), ("custom", .bool u.chooser.isSome)]
  | .input i => .obj [("fields", i.fields.toJson)]
  | .scalar s => .obj [("codec", .str s.codec.name), ("provider", providerJson s.provider)]
  | .middleware _ | .unannotated _ => .null

def toJson (c : Component ω) : Json :=
  .obj [("kind", .str c.kind.text), ("name", .str c.name), ("detail", c.detail)]

end Component

end GraphAssembly
