import GraphAssembly.Proofs.Context.Writes

/-!
# Result slots

What a slot holds after any calls, when nothing has been merged into it before and nothing is
inserted in its place.

1. `Call`, and what a slot has gathered after some results.
2. What one merge and one insertion do to an entry and to the count of its merges.
3. `Gathers` ties the entry of the slot to its count and is kept by every call; `AgreesOff` compares
   two contexts everywhere but in the slot.
4. `SlotExact`: what both say about a whole sequence of calls.
-/

namespace GraphAssembly.Context

variable {c c' : Context} {slot k : String} {v : Json}

/-- How often the slot has been merged into. -/
def mergeCount (c : Context) (slot : String) : Nat := (Dict.get? c.merges slot).getD 0

/-- A call that may change a context. -/
inductive Call : Type 1
  | merge (slot : String) (result : Json)
  | insert {α : Type} (shape : Shape α) (key : String) (value : α)

namespace Call

def run (c : Context) : Call → Context
  | merge slot result => c.merge slot result
  | insert shape key value => (c.insert shape key value).2

/-- The calls are made one after the other. -/
def runAll (calls : List Call) (c : Context) : Context := calls.foldl run c

/-- What the call merges into the slot. -/
def into? (slot : String) : Call → Option Json
  | merge s result => if s = slot then some result else none
  | insert _ _ _ => none

/-- The call does not insert in place of the slot. -/
def Spares (slot : String) : Call → Prop
  | merge _ _ => True
  | insert _ key _ => key ≠ slot

end Call

/-- What a slot holds after these results: one of them is kept as it is, more are listed. -/
def gathered (before : Option Json) : List Json → Option Json
  | [] => before
  | [v] => some v
  | vs => some (.arr vs)

/-- The slot holds the results that were merged into it, in their order, and every other entry is
what it would be without them. -/
structure SlotExact (c : Context) (slot : String) (calls : List Call) (c' : Context) : Prop where
  slot_eq : c'.getValue? slot = gathered (c.getValue? slot) (calls.filterMap (·.into? slot))
  others : ∀ k ≠ slot, c'.getValue? k =
    (Call.runAll (calls.filter fun call => (call.into? slot).isNone) c).getValue? k

/-! ## One call -/

/-- The count tells a list that was gathered from a first result that is a list. -/
theorem merged_gathered (before : Option Json) (vs : List Json) (v : Json) :
    some (merged (vs.length + 1) (gathered before vs) v) = gathered before (vs ++ [v]) := by
  match vs with
  | [] => cases before <;> rfl
  | [_] => rfl
  | _ :: _ :: _ => rfl

theorem getValue?_merge (c : Context) (slot k : String) (v : Json) :
    (c.merge slot v).getValue? k =
      if slot = k then some (merged (c.mergeCount slot + 1) (c.getValue? slot) v)
      else c.getValue? k :=
  Dict.get?_insert c.entries slot k _

theorem mergeCount_merge (c : Context) (slot k : String) (v : Json) :
    (c.merge slot v).mergeCount k =
      if slot = k then c.mergeCount slot + 1 else c.mergeCount k := by
  rw [mergeCount, merge, Dict.get?_insert]
  split <;> rfl

section Insert

variable {α : Type} {shape : Shape α} {key : String} {value : α}

theorem mergeCount_insert (c : Context) :
    (c.insert shape key value).2.mergeCount k = c.mergeCount k := by
  unfold insert
  split <;> rfl

/-- What an insertion leaves under a key depends on what was there alone. -/
theorem getValue?_insert_congr (h : c.getValue? k = c'.getValue? k) :
    (c.insert shape key value).2.getValue? k = (c'.insert shape key value).2.getValue? k := by
  cases hw : shape.write value with
  | error e => rw [insert_eq_self hw, insert_eq_self hw, h]
  | ok v => rw [insert_eq_put hw, insert_eq_put hw, getValue?_put, getValue?_put, h]

end Insert

/-! ## The slot -/

/-- As many results as are counted have been merged into the slot since the first context. -/
structure Gathers (c : Context) (slot : String) (vs : List Json) (c' : Context) : Prop where
  count : c'.mergeCount slot = vs.length
  value : c'.getValue? slot = gathered (c.getValue? slot) vs

namespace Gathers

variable {vs : List Json}

theorem merge (h : Gathers c slot vs c') (v : Json) :
    Gathers c slot (vs ++ [v]) (c'.merge slot v) where
  count := by rw [mergeCount_merge, if_pos rfl, h.count, List.length_append, List.length_singleton]
  value := by rw [getValue?_merge, if_pos rfl, h.count, h.value, merged_gathered]

theorem run (h : Gathers c slot vs c') {call : Call} (hcall : call.Spares slot) :
    Gathers c slot (vs ++ (call.into? slot).toList) (call.run c') := by
  cases call with
  | merge s v =>
    by_cases hs : s = slot
    · subst hs
      rw [Call.into?, if_pos rfl]
      exact h.merge v
    · rw [Call.into?, if_neg hs, Option.toList_none, List.append_nil]
      exact ⟨by rw [Call.run, mergeCount_merge, if_neg hs, h.count],
        by rw [Call.run, getValue?_merge, if_neg hs, h.value]⟩
  | insert shape key value =>
    rw [Call.into?, Option.toList_none, List.append_nil]
    exact ⟨by rw [Call.run, mergeCount_insert, h.count],
      by rw [Call.run, getValue?_insert_of_ne (Ne.symm hcall), h.value]⟩

theorem runAll (h : Gathers c slot vs c') {calls : List Call}
    (hcalls : ∀ call ∈ calls, call.Spares slot) :
    Gathers c slot (vs ++ calls.filterMap (·.into? slot)) (Call.runAll calls c') := by
  induction calls generalizing vs c' with
  | nil => rwa [List.filterMap_nil, List.append_nil]
  | cons call calls ih =>
    have hnext := ih (h.run (hcalls call List.mem_cons_self)) fun call hcall =>
      hcalls call (List.mem_cons_of_mem _ hcall)
    rw [List.append_assoc] at hnext
    rw [List.filterMap_cons]
    cases hinto : call.into? slot with
    | none => rwa [hinto] at hnext
    | some v => rwa [hinto] at hnext

end Gathers

/-! ## All other entries -/

/-- The contexts are alike but for the slot. -/
structure AgreesOff (slot : String) (c c' : Context) : Prop where
  value : ∀ k ≠ slot, c.getValue? k = c'.getValue? k
  count : ∀ k ≠ slot, c.mergeCount k = c'.mergeCount k

namespace AgreesOff

theorem refl (slot : String) (c : Context) : AgreesOff slot c c := ⟨fun _ _ => rfl, fun _ _ => rfl⟩

/-- The first context alone is merged into. -/
theorem merge_left (h : AgreesOff slot c c') (v : Json) : AgreesOff slot (c.merge slot v) c' where
  value k hk := by rw [getValue?_merge, if_neg hk.symm, h.value k hk]
  count k hk := by rw [mergeCount_merge, if_neg hk.symm, h.count k hk]

theorem run (h : AgreesOff slot c c') {call : Call} (hinto : call.into? slot = none) :
    AgreesOff slot (call.run c) (call.run c') := by
  cases call with
  | merge s v =>
    have hs : s ≠ slot := by
      intro hs
      rw [Call.into?, if_pos hs] at hinto
      cases hinto
    refine ⟨fun k hk => ?_, fun k hk => ?_⟩
    · rw [Call.run, Call.run, getValue?_merge, getValue?_merge, h.value k hk, h.value s hs,
        h.count s hs]
    · rw [Call.run, Call.run, mergeCount_merge, mergeCount_merge, h.count k hk, h.count s hs]
  | insert shape key value =>
    refine ⟨fun k hk => getValue?_insert_congr (h.value k hk), fun k hk => ?_⟩
    rw [Call.run, Call.run, mergeCount_insert, mergeCount_insert, h.count k hk]

/-- Only the first context is merged into. -/
theorem runAll (h : AgreesOff slot c c') (calls : List Call) : AgreesOff slot (Call.runAll calls c)
    (Call.runAll (calls.filter fun call => (call.into? slot).isNone) c') := by
  induction calls generalizing c c' with
  | nil => exact h
  | cons call calls ih =>
    cases hinto : call.into? slot with
    | none =>
      rw [List.filter_cons_of_pos (by rw [hinto]; rfl)]
      exact ih (h.run hinto)
    | some v =>
      rw [List.filter_cons_of_neg (by rw [hinto]; exact Bool.false_ne_true)]
      refine ih ?_
      cases call with
      | insert shape key value => cases hinto
      | merge s r =>
        rw [Call.into?, Option.ite_none_right_eq_some] at hinto
        rw [hinto.1]
        exact h.merge_left r

end AgreesOff

/-- The slot and the other entries after a whole sequence of calls. -/
theorem slotExact_runAll (hslot : c.mergeCount slot = 0) {calls : List Call}
    (hcalls : ∀ call ∈ calls, call.Spares slot) :
    SlotExact c slot calls (Call.runAll calls c) where
  slot_eq := by
    have hstart : Gathers c slot [] c := ⟨hslot, rfl⟩
    exact (hstart.runAll hcalls).value
  others := ((AgreesOff.refl slot c).runAll calls).value

end GraphAssembly.Context
