import GraphAssembly.Graph.Assembly

/-!
# Schemas

A schema is a graph together with the registry that serves its implementations. The registry holds
the providers of the blueprint; a provider that is given beside it takes the place of the one the
blueprint has for the same token.
-/

namespace GraphAssembly

structure Schema (ω : Type) where
  graph : Graph ω
  registry : Registry ω
  configuration : Configuration

variable {ω : Type}

/-- The providers of the blueprint with some of them replaced. -/
def Blueprint.providersWith (b : Blueprint ω) (overrides : List (Provider ω)) :
    List (Provider ω) :=
  overrides ++ b.providers.filter fun p => !overrides.any (·.token = p.token)

namespace Schema

/-- Assembles a blueprint against a registry that is there already. -/
def withRegistry (b : Blueprint ω) (r : Registry ω) (c : Configuration) :
    ExceptT GraphError (StateM (Workshop ω)) (Schema ω) := do
  pure ⟨← b.assemble r c, r, c⟩

/-- Registers the providers of the blueprint, some of them replaced, and assembles it. -/
def withProviders (b : Blueprint ω) (overrides : List (Provider ω)) (c : Configuration) :
    ExceptT GraphError (StateM (Workshop ω)) (Schema ω) := do
  match Registry.ofProviders (b.providersWith overrides) with
  | .error e => throw (.registration e)
  | .ok r => withRegistry b r c

def ofBlueprint (b : Blueprint ω) (c : Configuration) :
    ExceptT GraphError (StateM (Workshop ω)) (Schema ω) :=
  withProviders b [] c

end Schema

/-! ## Drafts -/

/-- A schema that is put together call by call. The root names and the configuration may be given
once; what is not given is the default. -/
structure Draft (ω : Type) where
  rootQuery : Option String := none
  rootMutation : Option String := none
  components : List (Component ω) := []
  providers : List (Provider ω) := []
  configuration : Option Configuration := none

inductive DraftError where
  | rootQueryTwice
  | rootMutationTwice
  | configurationTwice
deriving DecidableEq

def DraftError.message : DraftError → String
  | .rootQueryTwice => "root query was specified twice"
  | .rootMutationTwice => "root mutation was specified twice"
  | .configurationTwice => "configuration was specified twice"

namespace Draft

def withRootQuery (d : Draft ω) (name : String) : Except DraftError (Draft ω) :=
  if d.rootQuery.isSome then .error .rootQueryTwice else .ok { d with rootQuery := some name }

def withRootMutation (d : Draft ω) (name : String) : Except DraftError (Draft ω) :=
  if d.rootMutation.isSome then .error .rootMutationTwice
  else .ok { d with rootMutation := some name }

def withComponent (d : Draft ω) (c : Component ω) : Draft ω :=
  { d with components := d.components ++ [c] }

def withProvider (d : Draft ω) (p : Provider ω) : Draft ω :=
  { d with providers := d.providers ++ [p] }

def withConfiguration (d : Draft ω) (c : Configuration) : Except DraftError (Draft ω) :=
  if d.configuration.isSome then .error .configurationTwice
  else .ok { d with configuration := some c }

def blueprint (d : Draft ω) : Blueprint ω where
  rootQuery := d.rootQuery.getD "Query"
  rootMutation := d.rootMutation
  components := d.components

/-- The schema of the draft, whose providers replace those that the components bring with them. -/
def build (d : Draft ω) : ExceptT GraphError (StateM (Workshop ω)) (Schema ω) :=
  Schema.withProviders d.blueprint d.providers (d.configuration.getD {})

end Draft

end GraphAssembly
