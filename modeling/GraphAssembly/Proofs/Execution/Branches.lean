import GraphAssembly.Proofs.Execution.Rules
import GraphAssembly.Proofs.Execution.Selected
import Mathlib.Data.List.Infix

/-!
# Positions next to each other

The fields of an object differ in their keys and the items of a list in their indices. What is left
at such positions together is what is left at each of them, and a path leads below at most one.

1. Paths that branch, and membership in traces.
2. `Branch`: the fields of an object and the items of a list, one by one.
3. `executes_induction`: an execution by way of those below it.
-/

namespace GraphAssembly

/-! ## Paths that branch -/

namespace Path

theorem prefix_join (p : Path) (e : PathElement) : p <+: p.join e := List.prefix_append p [e]

theorem prefix_of_join_prefix {p q : Path} {e : PathElement} (h : p.join e <+: q) : p <+: q :=
  (prefix_join p e).trans h

theorem ne_of_join_prefix {p q : Path} {e : PathElement} (h : p.join e <+: q) : q ≠ p := by
  rintro rfl
  have := h.length_le
  simp only [join, List.length_append, List.length_singleton] at this
  omega

theorem eq_of_join_prefix {p q : Path} {e e' : PathElement} (h : p.join e <+: q)
    (h' : p.join e' <+: q) : e = e' := by
  have : p.join e = p.join e' := by
    rcases List.prefix_or_prefix_of_prefix h h' with h | h
    · exact h.eq_of_length (by simp [join])
    · exact (h.eq_of_length (by simp [join])).symm
  simpa [join] using this

end Path

def Event.path : Event → Path
  | .resolved p _ => p
  | .completed p _ => p
  | .typed p _ => p
  | .serialized p _ => p

@[simp] theorem mem_error_fst {l : Located} {e : FieldError} {p : Path} :
    l ∈ (Trace.error e p).1 ↔ l = ⟨e, p⟩ := Multiset.mem_singleton

@[simp] theorem mem_error_snd {x : Event} {e : FieldError} {p : Path} :
    x ∉ (Trace.error e p).2 := Multiset.notMem_zero x

@[simp] theorem mem_event_fst {l : Located} {e : Event} : l ∉ (Trace.event e).1 :=
  Multiset.notMem_zero l

@[simp] theorem mem_event_snd {x e : Event} : x ∈ (Trace.event e).2 ↔ x = e :=
  Multiset.mem_singleton

@[simp] theorem event_add_fst (e : Event) (d : Trace) : (Trace.event e + d).1 = d.1 := by
  rw [Prod.fst_add]
  exact zero_add _

theorem mem_sum_fst {xs : List Trace} {l : Located} : l ∈ xs.sum.1 ↔ ∃ d ∈ xs, l ∈ d.1 := by
  induction xs with
  | nil => simp
  | cons d xs ih => simp [ih]

theorem mem_sum_snd {xs : List Trace} {e : Event} : e ∈ xs.sum.2 ↔ ∃ d ∈ xs, e ∈ d.2 := by
  induction xs with
  | nil => simp
  | cons d xs ih => simp [ih]

/-! ## Branches -/

/-- What is left at a position one step below another. -/
structure Branch where
  element : PathElement
  trace : Trace
  outcome : Outcome

/-- Positions next to each other end one by one. -/
theorem together_branches {ι : Type} {xs : List ι} {ends : ι → Ending} {d : Trace}
    {outs : List Outcome} (h : Routine.Together (xs.map ends) d outs) (element : ι → PathElement) :
    ∃ bs : List Branch, bs.map Branch.element = xs.map element ∧
      (∀ b ∈ bs, ∃ x ∈ xs, b.element = element x ∧ ends x b.trace b.outcome) ∧
      d = (bs.map Branch.trace).sum ∧ outs = bs.map Branch.outcome := by
  obtain ⟨ys, hys, rfl, rfl⟩ := h
  rw [List.forall₂_map_left_iff] at hys
  induction hys with
  | nil => exact ⟨[], rfl, by simp, rfl, rfl⟩
  | @cons x y xs ys hxy _ ih =>
    obtain ⟨bs, hel, hbs, hsum, houts⟩ := ih
    refine ⟨⟨element x, y.1, y.2⟩ :: bs, by simp [hel], ?_, by simp [hsum], by simp [houts]⟩
    intro b hb
    rcases List.mem_cons.1 hb with rfl | hb
    · exact ⟨x, List.mem_cons_self, rfl, hxy⟩
    · obtain ⟨x', hx', h⟩ := hbs b hb
      exact ⟨x', List.mem_cons_of_mem x hx', h⟩

variable {ω : Type}

/-- The items of a list, by their indices. -/
theorem branches_of_items {rs : List Resolved} {item : Resolved → Path → Ending} {p : Path}
    {d : Trace} {outs : List Outcome}
    (h : Routine.Together (rs.mapIdx fun i r => item r (p.join (.index i))) d outs) :
    ∃ bs : List Branch, bs.map Branch.element = (List.range rs.length).map .index ∧
      (∀ b ∈ bs, ∃ i r, b.element = .index i ∧ rs[i]? = some r ∧
        item r (p.join b.element) b.trace b.outcome) ∧
      d = (bs.map Branch.trace).sum ∧ outs = bs.map Branch.outcome := by
  rw [List.mapIdx_eq_zipIdx_map] at h
  obtain ⟨bs, hel, hbs, hd, houts⟩ := together_branches h fun x => .index x.2
  refine ⟨bs, ?_, fun b hb => ?_, hd, houts⟩
  · rw [hel, List.range_eq_range', ← List.zipIdx_map_snd 0 rs, List.map_map]
    rfl
  · obtain ⟨⟨r, i⟩, hx, he, hends⟩ := hbs b hb
    exact ⟨i, r, he, List.mem_zipIdx_iff_getElem?.1 hx, by rw [he]; exact hends⟩

theorem nodup_indices (n : Nat) : ((List.range n).map PathElement.index).Nodup :=
  List.nodup_range.map fun _ _ h => PathElement.index.inj h

/-- The fields of an object, by their response keys. -/
theorem branches_of_groups {groups : Groups} {ends : String × List SelectedField → Ending}
    {d : Trace} {outs : List Outcome} (h : Routine.Together (groups.map ends) d outs) :
    ∃ bs : List Branch, bs.map Branch.element = (Dict.keys groups).map .key ∧
      (∀ b ∈ bs, ∃ key fields, b.element = .key key ∧ (key, fields) ∈ groups ∧
        ends (key, fields) b.trace b.outcome) ∧
      d = (bs.map Branch.trace).sum ∧ outs = bs.map Branch.outcome := by
  obtain ⟨bs, hel, hbs, hd, houts⟩ := together_branches h fun group => .key group.1
  refine ⟨bs, ?_, fun b hb => ?_, hd, houts⟩
  · rw [hel, Dict.keys, List.map_map]
    rfl
  · obtain ⟨⟨key, fields⟩, hgroup, he, hends⟩ := hbs b hb
    exact ⟨key, fields, he, hgroup, hends⟩

/-- What holds of the selections of an object, if it follows from the same for those below it. -/
theorem executes_induction {s : Schema ω} {P : List Selection → ObjectEnding ω}
    (step : ∀ (selections : List Selection) (o : ObjectNode ω) (source : Json) (p : Path)
      (bs : List Branch),
      bs.map Branch.element = (Dict.keys (s.graph.groupsOn o selections)).map .key →
      (∀ b ∈ bs, ∃ key f rest, b.element = .key key ∧
        (key, f :: rest) ∈ s.graph.groupsOn o selections ∧
        FieldEnds s (Executes s (Selection.nested (f :: rest))) o source f (p.join b.element)
          b.trace b.outcome) →
      (∀ key f rest, (key, f :: rest) ∈ s.graph.groupsOn o selections → ∀ o v p d out,
        Executes s (Selection.nested (f :: rest)) o v p d out →
          P (Selection.nested (f :: rest)) o v p d out) →
      P selections o source p (bs.map Branch.trace).sum (Executor.assembleObject
        (Dict.keys (s.graph.groupsOn o selections)) (bs.map Branch.outcome)))
    {selections : List Selection} {o : ObjectNode ω} {source : Json} {p : Path} {d : Trace}
    {out : Outcome} (h : Executes s selections o source p d out) :
    P selections o source p d out := by
  obtain ⟨outs, htogether, rfl⟩ := executes_iff.1 h
  obtain ⟨bs, hel, hbs, rfl, rfl⟩ := branches_of_groups htogether
  refine step selections o source p bs hel (fun b hb => ?_) fun key f rest hgroup => ?_
  · obtain ⟨key, fields, he, hgroup, hends⟩ := hbs b hb
    obtain ⟨f, rest, rfl⟩ := List.exists_cons_of_ne_nil (Selection.ne_nil_of_mem_collect hgroup)
    exact ⟨key, f, rest, he, hgroup, he ▸ hends⟩
  · have := Selection.sizeAll_lt_of_mem_collect hgroup
    exact fun _ _ _ _ _ h => executes_induction step h
termination_by Selection.sizeAll selections

theorem nodup_keys (g : Graph ω) (o : ObjectNode ω) (selections : List Selection) :
    ((Dict.keys (g.groupsOn o selections)).map PathElement.key).Nodup :=
  (Selection.distinct_collect _ selections).map fun _ _ h => PathElement.key.inj h

end GraphAssembly
