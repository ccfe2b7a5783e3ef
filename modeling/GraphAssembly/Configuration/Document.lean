import GraphAssembly.Configuration
import GraphAssembly.Yaml.Reader

/-!
# Configuration documents

A configuration is written as one YAML document. A member that is left out has its default.
-/

namespace GraphAssembly

/-- The value of a member, or its default where the member is left out. -/
def Yaml.member? {α : Type} (members : Dict Yaml) (name : String) (read : Yaml → Option α)
    (default : α) : Option α :=
  match members.get? name with
  | none => some default
  | some v => read v

def TypeResolution.ofYaml? (v : Yaml) : Option TypeResolution := do
  let given ← v.members? members
  let byDefault : TypeResolution := {}
  pure {
    markerField := ← Yaml.member? given "marker_field" Yaml.text? byDefault.markerField
    discriminants := ← Yaml.member? given "discriminants" Yaml.bool? byDefault.discriminants }

def Execution.ofYaml? (v : Yaml) : Option Execution := do
  let given ← v.members? members
  let byDefault : Execution := {}
  pure {
    concurrentFields :=
      ← Yaml.member? given "concurrent_fields" Yaml.bool? byDefault.concurrentFields }

namespace Configuration

def ofYaml? (v : Yaml) : Option Configuration := do
  let given ← v.members? members
  pure {
    typeResolution := ← Yaml.member? given "type_resolution" TypeResolution.ofYaml? {}
    execution := ← Yaml.member? given "execution" Execution.ofYaml? {} }

/-- The valid configuration that a YAML text describes. -/
def read (text : String) : Except ConfigurationError Configuration :=
  match (Yaml.read? text).bind ofYaml? with
  | none => .error .unreadable
  | some c => c.validate

example : (read "execution:\n  concurrent_fields: false # serial\n").toOption =
    some { execution := { concurrentFields := false } } := by decide +kernel

example : (read "[\x7bmarker_field: 12, discriminants: false\x7d]").toOption =
    some { typeResolution := { markerField := "12", discriminants := false } } := by
  decide +kernel

example : (read "execution: []\nexecution: []\n").toOption = none := by decide +kernel

end Configuration

end GraphAssembly
