import GraphAssembly.Proofs.Assembly.References
import GraphAssembly.Proofs.Execution.Congruence

/-!
# Types that are marked twice

The completion of a value has a branch for the content of a position that is marked itself. A sound
graph has no type that leads there, so anything may stand in that branch.

1. `Executor.completeOr`: completion with anything in the place of the branch.
2. Executions in a sound graph.
-/

namespace GraphAssembly

variable {ω : Type}

/-! ## Completion -/

namespace Executor

/-- Completes the content of a position, unless it is marked itself. -/
def completeInnerOr (e : Executor ω)
    (marked : TypeRef → Resolved → Path → Routine (Run ω) Outcome) (label : String)
    (onObject : OnObject ω) : TypeRef → Resolved → Path → Routine (Run ω) Outcome
  | .nonNull inner => marked inner
  | .list (.nonNull item) => unlessNull <| completeList e
    (fun r p => required label p (e.completeInnerOr marked label onObject item r p))
    (.list (.nonNull item))
  | .list item => unlessNull <| completeList e
    (fun r p => absorbed (e.completeInnerOr marked label onObject item r p)) (.list item)
  | t => unlessNull <| completeSingle e onObject t

def completeOr (e : Executor ω) (marked : TypeRef → Resolved → Path → Routine (Run ω) Outcome) :
    Completion ω := fun label onObject t r p =>
  match t with
  | .nonNull inner => required label p (e.completeInnerOr marked label onObject inner r p)
  | t => absorbed (e.completeInnerOr marked label onObject t r p)

variable {e : Executor ω} {marked : TypeRef → Resolved → Path → Routine (Run ω) Outcome}
  {label : String} {onObject : OnObject ω}

theorem completeInnerOr_eq {t : TypeRef} (ht : t.isNonNull = false) (hm : t.MarkedOnce) :
    e.completeInnerOr marked label onObject t = e.completeInner label onObject t := by
  induction t using Executor.completeInner.induct with
  | case1 inner => cases ht
  | case2 item ih => rw [completeInnerOr, completeInner, ih hm.1 hm.2]
  | case3 item hitem ih =>
    have : item.isNonNull = false := by
      cases item with
      | nonNull item => exact absurd rfl (hitem item)
      | _ => rfl
    cases item with
    | nonNull item => cases this
    | _ =>
      rw [completeInnerOr, completeInner, ih this hm]
      all_goals simp
  | case4 t h₁ h₂ h₃ =>
    cases t with
    | nonNull inner => cases ht
    | list item => exact absurd rfl (h₃ item)
    | _ => rfl

theorem completeOr_eq {t : TypeRef} (hm : t.MarkedOnce) (r : Resolved) (p : Path) :
    e.completeOr marked label onObject t r p = e.complete label onObject t r p := by
  cases t with
  | nonNull inner =>
    rw [completeOr, complete, completeInnerOr_eq hm.1 hm.2]
  | _ => exact congrArg absorbed (congrFun (congrFun (completeInnerOr_eq rfl hm) r) p)

end Executor

/-! ## Executions -/

theorem congruence_eq (e : Executor ω) : Congruence e e fun _ => Eq where
  graph := rfl
  registry := rfl
  pure _ := rfl
  bind h hf := by
    obtain rfl := h
    exact congrArg _ (funext hf)
  record _ _ := rfl
  note _ := rfl
  coerce _ _ _ := rfl
  resolve _ _ _ _ := rfl
  serialize _ _ _ := rfl
  typing _ _ _ _ := rfl
  siblings h := by rw [List.forall₂_eq_eq_eq] at h; rw [h]
  items h := by rw [List.forall₂_eq_eq_eq] at h; rw [h]

/-- In a sound graph no value is completed at a type that is marked twice. -/
theorem executeBy_completeOr {e : Executor ω} (hg : e.graph.Sound)
    (marked : TypeRef → Resolved → Path → Routine (Run ω) Outcome) (selections : List Selection)
    {o : ObjectNode ω} (ho : e.graph.Has o) (source : Json) (p : Path) :
    e.executeBy (e.completeOr marked) selections o source p = e.execute selections o source p := by
  have hcomplete : e.executeBy (e.completeOr marked) selections o source p =
      e.executeBy e.complete selections o source p :=
    (congruence_eq e).executeBy (fun o node ⟨_, ho⟩ hnode onObject onObject' hobject label r p =>
      (Executor.completeOr_eq (hg.object ho node hnode).marked r p).trans
        ((congruence_eq e).complete hobject label node.type r p)) selections ho source p
  rw [hcomplete, Executor.executeBy_complete]

end GraphAssembly
