import GraphAssembly.Registry.Instance
import GraphAssembly.Text.Quoted

/-!
# Providers

How the instance of a token comes about: it is there from the start, or a factory makes it from the
instances of other tokens.
-/

namespace GraphAssembly

/-- The instances handed to a factory, in the order in which it declares them. -/
abbrev Dependencies (ω : Type) := List (Token × Instance ω)

namespace Dependencies

variable {ω : Type}

def instance? (d : Dependencies ω) (position : Nat) : Except String (Instance ω) :=
  match d[position]? with
  | some (_, i) => .ok i
  | none => .error s!"no dependency declared at position {position}"

/-- The dependency at a position as a value of a type of the host. -/
def get (d : Dependencies ω) (position : Nat) (typeName : String) : Except String Held :=
  match d[position]? with
  | none => .error s!"no dependency declared at position {position}"
  | some (t, i) =>
    match i.asType? typeName with
    | some held => .ok held
    | none => .error s!"dependency '{t.name}' is not a {typeName}"

/-- The tokens of the dependencies, for a developer to read. -/
def inspect (d : Dependencies ω) : String :=
  "[" ++ ", ".intercalate (d.map fun (t, _) => "Token(" ++ Text.quote t.name ++ ")") ++ "]"

end Dependencies

inductive Source (ω : Type) where
  | value (i : Instance ω)
  | factory (dependencies : List Token)
      (build : Dependencies ω → StateM ω (Except String (Instance ω)))

structure Provider (ω : Type) where
  token : Token
  source : Source ω

def Provider.dependencies {ω : Type} (p : Provider ω) : List Token :=
  match p.source with
  | .value _ => []
  | .factory dependencies _ => dependencies

end GraphAssembly
