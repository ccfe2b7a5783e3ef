import GraphAssembly.Proofs.Registry.Answers
import Mathlib.Logic.Relation

/-!
# What a resolution needs

The resolution of a token looks at the providers of the token and of those it depends on, directly
or not. It goes the same way whatever the other providers are, so none of their factories runs.
-/

namespace GraphAssembly.Registry

variable {ω : Type} {r r' : Registry ω}

/-- The provider of the first token has the second one among its dependencies. -/
def DependsOn (r : Registry ω) (t d : Token) : Prop :=
  ∃ p, r.provider? t = some p ∧ d ∈ p.dependencies

def Needs (r : Registry ω) : Token → Token → Prop := Relation.ReflTransGen r.DependsOn

/-- An instance is made in the same way from dependencies that are resolved in the same way. -/
theorem make_congr {resolve resolve' : Token → Resolving ω (Instance ω)} (t : Token)
    {p : Provider ω} (h : ∀ d ∈ p.dependencies, resolve' d = resolve d) :
    make resolve' t p.source = make resolve t p.source := by
  cases hs : p.source with
  | value i => rfl
  | factory dependencies build =>
    have hmap : ∀ ds ⊆ dependencies,
        (ds.mapM fun d => do pure (d, ← asDependency t (resolve' d)) :
          Resolving ω (Dependencies ω)) =
        (ds.mapM fun d => do pure (d, ← asDependency t (resolve d)) :) := by
      intro ds hds
      induction ds with
      | nil => rfl
      | cons d ds ih =>
        have hd : resolve' d = resolve d := h d <| by
          rw [Provider.dependencies, hs]
          exact hds List.mem_cons_self
        rw [List.mapM_cons, List.mapM_cons, ih (List.subset_of_cons_subset hds), hd]
    rw [make, make, hmap _ (List.Subset.refl _)]

theorem resolveFrom_congr (chain : List Token) (t : Token)
    (h : ∀ s, r.Needs t s → r'.provider? s = r.provider? s) :
    r'.resolveFrom chain t = r.resolveFrom chain t := by
  funext w
  have ht := h t .refl
  cases hp : r.provider? t with
  | none => rw [resolveFrom_unknown hp, resolveFrom_unknown (ht.trans hp)]
  | some p =>
    rw [resolveFrom_apply hp, resolveFrom_apply (ht.trans hp)]
    cases w.instance? t with
    | some i => rfl
    | none =>
      by_cases hc : t ∈ chain
      · rw [if_pos hc, if_pos hc]
      · have _shrinks := r.idle_append_length_lt chain hp hc
        have hmake := make_congr t (p := p) fun d hd => resolveFrom_congr (chain ++ [t]) d
          fun s hs => h s (.head ⟨p, hp, hd⟩ hs)
        rw [if_neg hc, if_neg hc, hmake]
termination_by (r.idle chain).length
decreasing_by exact _shrinks

/-- A provider that is not needed may be replaced by any other one. -/
theorem resolve_of_not_needs {t s : Token} (hs : ¬ r.Needs t s)
    (h : ∀ k, k ≠ s → r'.provider? k = r.provider? k) : r'.resolve t = r.resolve t :=
  resolveFrom_congr [] t fun k hk => h k fun hks => hs (hks ▸ hk)

end GraphAssembly.Registry
