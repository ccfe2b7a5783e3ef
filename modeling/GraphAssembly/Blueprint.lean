import GraphAssembly.Component

/-!
# Blueprints

Everything a graph is assembled from: the components, in any order, the names of the root types, and
the providers of the instances behind them.

1. `providers` gathers the providers that the components bring with them.
2. `Parts` sorts the components by kind.
3. `Fragments` gathers the fragments of one object type.
-/

namespace GraphAssembly

structure Blueprint (ω : Type) where
  rootQuery : String
  rootMutation : Option String := none
  components : List (Component ω)
  /-- Providers in addition to those that the components bring with them. -/
  explicitProviders : List (Provider ω) := []

variable {ω : Type}

/-! ## Providers -/

def Binding.providers (bindings : List (Binding ω)) : List (Provider ω) :=
  bindings.filterMap (·.provider)

/-- The providers of an implementation: of its instance, of its own bindings, and of the bindings of
each of its resolvers. -/
def ObjectImplementation.providers (i : ObjectImplementation ω) : List (Provider ω) :=
  i.provider.toList ++ Binding.providers i.bindings
    ++ (Dict.values i.resolvers.entries).flatMap fun r => Binding.providers r.bindings

def Component.providers : Component ω → List (Provider ω)
  | .implementation i => i.providers
  | .scalar s => s.provider.toList
  | _ => []

/-- Keeps the first provider of each token. -/
def Provider.firstOfEach (ps : List (Provider ω)) : List (Provider ω) :=
  ps.foldl (fun kept p => if kept.any (·.token = p.token) then kept else kept ++ [p]) []

/-- Every provider the blueprint has, the explicit ones first, one for each token. -/
def Blueprint.providers (b : Blueprint ω) : List (Provider ω) :=
  Provider.firstOfEach (b.explicitProviders ++ b.components.flatMap Component.providers)

/-! ## Components by kind -/

structure Parts (ω : Type) where
  interfaces : List (InterfaceDefinition ω)
  unions : List (UnionDefinition ω)
  inputs : List InputDefinition
  scalars : List (ScalarDefinition ω)
  definitions : List ObjectDefinition
  implementations : List (ObjectImplementation ω)

/-- Middleware and components that say nothing have no place in a graph. -/
def Parts.ofComponents (cs : List (Component ω)) : Parts ω where
  interfaces := cs.filterMap fun
    | .interface i => some i
    | _ => none
  unions := cs.filterMap fun
    | .union u => some u
    | _ => none
  inputs := cs.filterMap fun
    | .input i => some i
    | _ => none
  scalars := cs.filterMap fun
    | .scalar s => some s
    | _ => none
  definitions := cs.filterMap fun
    | .definition d => some d
    | _ => none
  implementations := cs.filterMap fun
    | .implementation i => some i
    | _ => none

/-! ## Fragments of object types -/

structure Fragments (ω : Type) where
  definitions : List ObjectDefinition
  implementations : List (ObjectImplementation ω)

/-- Keeps the first occurrence of each name. -/
def firstOccurrences (names : List String) : List String :=
  names.foldl (fun kept n => if n ∈ kept then kept else kept ++ [n]) []

theorem mem_foldl_keep {names kept : List String} {n : String} :
    n ∈ names.foldl (fun kept n => if n ∈ kept then kept else kept ++ [n]) kept ↔
      n ∈ kept ∨ n ∈ names := by
  induction names generalizing kept with
  | nil => simp
  | cons m rest ih =>
    rw [List.foldl_cons, ih, List.mem_cons]
    by_cases hm : m ∈ kept
    · rw [if_pos hm]
      by_cases hn : n = m <;> simp_all
    · rw [if_neg hm, List.mem_append, List.mem_singleton, or_assoc]

theorem nodup_foldl_keep {names kept : List String} (h : kept.Nodup) :
    (names.foldl (fun kept n => if n ∈ kept then kept else kept ++ [n]) kept).Nodup := by
  induction names generalizing kept with
  | nil => exact h
  | cons m rest ih =>
    rw [List.foldl_cons]
    by_cases hm : m ∈ kept
    · rw [if_pos hm]
      exact ih h
    · rw [if_neg hm]
      refine ih (List.nodup_append.2 ⟨h, by simp, fun a ha b hb hab => hm ?_⟩)
      rwa [← List.mem_singleton.1 hb, ← hab]

@[simp] theorem mem_firstOccurrences {names : List String} {n : String} :
    n ∈ firstOccurrences names ↔ n ∈ names := by
  simp [firstOccurrences, mem_foldl_keep]

theorem nodup_firstOccurrences (names : List String) : (firstOccurrences names).Nodup :=
  nodup_foldl_keep List.nodup_nil

/-- The fragments of each object type. The types stand in the order of their first fragment, where
all definitions come before all implementations. -/
def Parts.objects (p : Parts ω) : Dict (Fragments ω) :=
  (firstOccurrences (p.definitions.map (·.name) ++ p.implementations.map (·.name))).map fun n =>
    (n, { definitions := p.definitions.filter (·.name = n)
          implementations := p.implementations.filter (·.name = n) })

end GraphAssembly
