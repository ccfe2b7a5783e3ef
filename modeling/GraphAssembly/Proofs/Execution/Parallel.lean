import GraphAssembly.Proofs.Execution.Footprint
import GraphAssembly.Proofs.Execution.Positions
import Mathlib.Data.Option.Basic
import Mathlib.Order.SetNotation

/-!
# Runs in parallel

Two runs of one request part where a field answers differently in them. What they leave away from
such positions is the same, and so are their values, except at and below the nullable positions that
are nearest to them. This holds of a position if it holds of what the position is made of.

1. `Diverges`, and traces outside of some paths.
2. `Parting`: the paths at which two traces part.
3. `ContentParallel` and `PositionParallel`: two runs before and after a position is settled.
4. Values put together from branches.
-/

namespace GraphAssembly

open scoped Classical

variable {ω : Type}

/-! ## Where two runs part -/

/-- The field at the path answered differently in two runs, and those above it alike. -/
def Diverges (journal journal' : List Event) (p : Path) : Prop :=
  (∃ x x', .resolved p x ∈ journal ∧ .resolved p x' ∈ journal' ∧ x ≠ x') ∧
    ∀ q, q <+: p → q ≠ p → ∀ x, .resolved q x ∈ journal ↔ .resolved q x ∈ journal'

/-- The path leads to or through one of these. -/
def Beyond (P : Set Path) (q : Path) : Prop := ∃ p ∈ P, p <+: q

theorem Beyond.mono {P Q : Set Path} {q : Path} (h : Beyond P q) (hsub : P ⊆ Q) : Beyond Q q := by
  obtain ⟨p, hp, hpq⟩ := h
  exact ⟨p, hsub hp, hpq⟩

namespace Trace

/-- What is left of a trace away from some paths and what is below them. -/
noncomputable def outside (P : Set Path) (d : Trace) : Trace :=
  (d.1.filter fun l => ¬ Beyond P l.path, d.2.filter fun e => ¬ Beyond P e.path)

variable {P Q : Set Path} {d : Trace}

theorem outside_add (P : Set Path) (d d' : Trace) :
    (d + d').outside P = d.outside P + d'.outside P := by
  simp only [outside, Prod.fst_add, Prod.snd_add, Multiset.filter_add, Prod.mk_add_mk]

theorem outside_eq_zero (herrors : ∀ l ∈ d.1, Beyond P l.path)
    (hevents : ∀ e ∈ d.2, Beyond P e.path) : d.outside P = 0 := by
  refine Prod.ext (Multiset.filter_eq_nil.2 fun l hl => ?_)
    (Multiset.filter_eq_nil.2 fun e he => ?_)
  · exact not_not.2 (herrors l hl)
  · exact not_not.2 (hevents e he)

theorem outside_outside (hsub : P ⊆ Q) (d : Trace) : (d.outside P).outside Q = d.outside Q := by
  simp only [outside, Multiset.filter_filter]
  refine Prod.ext (Multiset.filter_congr fun l _ => ?_) (Multiset.filter_congr fun e _ => ?_)
  all_goals exact and_iff_left_of_imp fun h hP => h (hP.mono hsub)

theorem mem_outside_snd {e : Event} : e ∈ (d.outside P).2 ↔ e ∈ d.2 ∧ ¬ Beyond P e.path :=
  Multiset.mem_filter

end Trace

/-! ## Paths at which traces part -/

/-- Two traces at a position part at these paths, none of which is below another, and leave the same
outside of them. -/
structure Parting (P : Set Path) (p : Path) (d d' : Trace) : Prop where
  below : ∀ q ∈ P, p <+: q
  differ : ∀ q ∈ P, ∃ x x', .resolved q x ∈ d.2 ∧ .resolved q x' ∈ d'.2 ∧ x ≠ x'
  apart : ∀ q ∈ P, ∀ q' ∈ P, q <+: q' → q = q'
  outside : d.outside P = d'.outside P

namespace Parting

variable {P : Set Path} {p : Path} {d d' : Trace}

theorem refl (p : Path) (d : Trace) : Parting ∅ p d d := ⟨nofun, nofun, nofun, rfl⟩

theorem add_left (h : Parting P p d d') (k : Trace) : Parting P p (k + d) (k + d') where
  below := h.below
  differ q hq := by
    obtain ⟨x, x', hx, hx', hne⟩ := h.differ q hq
    exact ⟨x, x', Multiset.mem_add.2 (.inr hx), Multiset.mem_add.2 (.inr hx'), hne⟩
  apart := h.apart
  outside := by rw [Trace.outside_add, Trace.outside_add, h.outside]

theorem add_right (h : Parting P p d d') (k : Trace) : Parting P p (d + k) (d' + k) := by
  rw [add_comm d, add_comm d']
  exact h.add_left k

/-- Whatever two runs leave at a position where they part, and below it, they do not share. -/
theorem of_ne {x x' : Except FieldError Resolved} (hne : x ≠ x') (hd : Footprint p d)
    (hd' : Footprint p d') (hx : .resolved p x ∈ d.2) (hx' : .resolved p x' ∈ d'.2) :
    Parting {p} p d d' where
  below := by rintro q rfl; exact List.prefix_rfl
  differ := by rintro q rfl; exact ⟨x, x', hx, hx', hne⟩
  apart := by rintro q rfl q' rfl _; rfl
  outside := by
    have hzero {d : Trace} (hd : Footprint p d) : d.outside {p} = 0 :=
      Trace.outside_eq_zero (fun l hl => ⟨p, rfl, hd.errors l hl⟩)
        fun e he => ⟨p, rfl, hd.events e he⟩
    rw [hzero hd, hzero hd']

/-- Positions at which no path leads below both. -/
theorem union {Q : Set Path} {e : PathElement} {k k' : Trace} (h : Parting P (p.join e) d d')
    (hk : Parting Q p k k') (hapart : ∀ q ∈ P, ∀ q' ∈ Q, ∀ r, q <+: r → ¬ q' <+: r) :
    Parting (P ∪ Q) p (d + k) (d' + k') where
  below := by
    rintro q (hq | hq)
    · exact Path.prefix_of_join_prefix (h.below q hq)
    · exact hk.below q hq
  differ := by
    rintro q (hq | hq)
    · obtain ⟨x, x', hx, hx', hne⟩ := h.differ q hq
      exact ⟨x, x', Multiset.mem_add.2 (.inl hx), Multiset.mem_add.2 (.inl hx'), hne⟩
    · obtain ⟨x, x', hx, hx', hne⟩ := hk.differ q hq
      exact ⟨x, x', Multiset.mem_add.2 (.inr hx), Multiset.mem_add.2 (.inr hx'), hne⟩
  apart := by
    rintro q (hq | hq) q' (hq' | hq') hqq'
    · exact h.apart q hq q' hq' hqq'
    · exact absurd List.prefix_rfl (hapart q hq q' hq' q' hqq')
    · exact absurd hqq' (hapart q' hq' q hq q' List.prefix_rfl)
    · exact hk.apart q hq q' hq' hqq'
  outside := by
    have hwiden {R : Set Path} {d d' : Trace} (hR : R ⊆ P ∪ Q)
        (h : d.outside R = d'.outside R) : d.outside (P ∪ Q) = d'.outside (P ∪ Q) := by
      rw [← Trace.outside_outside hR, h, Trace.outside_outside hR]
    rw [Trace.outside_add, Trace.outside_add, hwiden Set.subset_union_left h.outside,
      hwiden Set.subset_union_right hk.outside]

/-- The paths at which two runs part are those at which their journals diverge. -/
theorem eq_diverges {journal journal' : List Event} {errors errors' : Multiset Located}
    (h : Parting P p (errors, journal) (errors', journal'))
    (hd : Footprint p (errors, journal)) :
    P = {q | Diverges journal journal' q} := by
  have hsame : ∀ q, ¬ Beyond P q → ∀ x, .resolved q x ∈ journal ↔ .resolved q x ∈ journal' := by
    intro q hq x
    have : .resolved q x ∈ (Trace.outside P (errors, journal)).2 ↔
        .resolved q x ∈ (Trace.outside P (errors', journal')).2 := by rw [h.outside]
    rw [Trace.mem_outside_snd, Trace.mem_outside_snd] at this
    exact ⟨fun hx => (this.1 ⟨hx, hq⟩).1, fun hx => (this.2 ⟨hx, hq⟩).1⟩
  ext q
  constructor
  · intro hq
    refine ⟨h.differ q hq, fun q' habove hne => hsame q' ?_⟩
    rintro ⟨r, hr, hrq⟩
    obtain rfl := h.apart r hr q hq (hrq.trans habove)
    exact hne (habove.eq_of_length_le hrq.length_le)
  · rintro ⟨⟨x, x', hx, hx', hne⟩, habove⟩
    obtain ⟨r, hr, hrq⟩ : Beyond P q := by
      by_contra hq
      exact hne (hd.resolved hx ((hsame q hq x').2 hx'))
    by_cases hrq' : r = q
    · exact hrq' ▸ hr
    -- otherwise the fields above `q` do not all answer alike: the one at `r` does not
    · obtain ⟨y, y', hy, hy', hne'⟩ := h.differ r hr
      exact absurd (hd.resolved hy ((habove r hrq hrq' y').2 hy')) hne'

end Parting

/-! ## Runs in parallel -/

/-- A value without what is further down in it. -/
def Json.head : Json → Json
  | .arr items => .arr (items.map fun _ => .null)
  | .obj entries => .obj (Dict.mapValues (fun _ => .null) entries)
  | v => v

theorem head_zip {keys : List String} {vs vs' : List Json} (h : vs.length = vs'.length) :
    (Json.obj (keys.zip vs)).head = (Json.obj (keys.zip vs')).head := by
  have hzip (vs : List Json) : Dict.mapValues (fun _ => Json.null) (keys.zip vs) =
      keys.zip (List.replicate vs.length .null) := by
    rw [← List.map_const', List.zip_map_right]
    rfl
  rw [Json.head, Json.head, hzip, hzip, h]

namespace Layout

variable (L : Layout ω)

/-- The position is at or below the nearest nullable position of one of these paths. -/
def Concerned (P : Set Path) (q : Path) : Prop := ∃ p ∈ P, ∃ a, L.IsAnchor a p ∧ a <+: q

/-- No nullable position is between `p` and one of these paths. -/
def Exposed (P : Set Path) (p : Path) : Prop := ∃ q ∈ P, L.Clear p q

/-- The two values at `p` are the same, except where they are concerned. -/
def Agree (P : Set Path) (p : Path) (v v' : Json) : Prop :=
  ∀ q, ¬ L.Concerned P (p ++ q) → (v.at? q).map Json.head = (v'.at? q).map Json.head

/-- The contents of a position in two runs. They agree, unless a path at which the runs part leaves
the position without a nullable one in between. -/
def ContentParallel (p : Path) (d d' : Trace) (out out' : Outcome) : Prop :=
  ∃ P, Parting P p d d' ∧ (out = some .null ↔ out' = some .null) ∧
    (L.Exposed P p ∨ Option.Rel (L.Agree P p) out out')

/-- The outcomes at a position agree. Only where it is not nullable may there be a value in one run
and none in the other. -/
def OutcomesAgree (P : Set Path) (p : Path) (out out' : Outcome) : Prop :=
  (¬ L.Nullable p ∧ L.Exposed P p) ∨ Option.Rel (L.Agree P p) out out'

/-- A position in two runs. -/
def PositionParallel (p : Path) (d d' : Trace) (out out' : Outcome) : Prop :=
  ∃ P, Parting P p d d' ∧ L.OutcomesAgree P p out out'

end Layout

open Layout

variable {L : Layout ω} {p : Path} {d d' : Trace} {out out' : Outcome}

section Mono

variable {P Q : Set Path} (hsub : P ⊆ Q)

include hsub

theorem Layout.Concerned.mono {q : Path} (h : L.Concerned P q) : L.Concerned Q q := by
  obtain ⟨p, hp, h⟩ := h
  exact ⟨p, hsub hp, h⟩

theorem Layout.Exposed.mono (h : L.Exposed P p) : L.Exposed Q p := by
  obtain ⟨q, hq, h⟩ := h
  exact ⟨q, hsub hq, h⟩

theorem Layout.Agree.mono {v v' : Json} (h : L.Agree P p v v') : L.Agree Q p v v' :=
  fun q hq => h q fun hc => hq (hc.mono hsub)

theorem Layout.OutcomesAgree.mono (h : L.OutcomesAgree P p out out') :
    L.OutcomesAgree Q p out out' := by
  refine h.imp (And.imp_right (Exposed.mono hsub)) fun hagree => ?_
  cases hagree with
  | none => exact .none
  | some hagree => exact .some (hagree.mono hsub)

end Mono

theorem Layout.Agree.refl (P : Set Path) (p : Path) (v : Json) : L.Agree P p v v := fun _ _ => rfl

theorem agree_rel_refl (P : Set Path) (p : Path) (out : Outcome) :
    Option.Rel (L.Agree P p) out out := by
  cases out with
  | none => exact .none
  | some v => exact .some (Agree.refl P p v)

theorem contentParallel_refl (p : Path) (d : Trace) (out : Outcome) :
    L.ContentParallel p d d out out :=
  ⟨∅, Parting.refl p d, Iff.rfl, .inr (agree_rel_refl ∅ p out)⟩

theorem contentParallel_of_eq (h : (d, out) = (d', out')) : L.ContentParallel p d d' out out' := by
  cases h
  exact contentParallel_refl p d out

theorem positionParallel_of_eq (h : (d, out) = (d', out')) :
    L.PositionParallel p d d' out out' := by
  cases h
  exact ⟨∅, Parting.refl p d, .inr (agree_rel_refl ∅ p out)⟩

theorem Layout.ContentParallel.add_left (h : L.ContentParallel p d d' out out') (k : Trace) :
    L.ContentParallel p (k + d) (k + d') out out' := by
  obtain ⟨P, hP, h⟩ := h
  exact ⟨P, hP.add_left k, h⟩

theorem Layout.PositionParallel.add_left (h : L.PositionParallel p d d' out out') (k : Trace) :
    L.PositionParallel p (k + d) (k + d') out out' := by
  obtain ⟨P, hP, h⟩ := h
  exact ⟨P, hP.add_left k, h⟩

/-- At and below a nullable position nothing has to agree if the position is exposed. -/
theorem agree_of_exposed {P : Set Path} (hp : L.Nullable p) (hbelow : ∀ q ∈ P, p <+: q)
    (h : L.Exposed P p) (v v' : Json) : L.Agree P p v v' := by
  intro r hr
  obtain ⟨q, hq, hclear⟩ := h
  exact absurd ⟨q, hq, p, ⟨hbelow q hq, hp, hclear⟩, List.prefix_append p r⟩ hr

/-- A nullable position has a value in both runs. -/
theorem Layout.ContentParallel.positionParallel (h : L.ContentParallel p d d' out out')
    (hp : L.Nullable p) :
    L.PositionParallel p d d' (some (out.getD .null)) (some (out'.getD .null)) := by
  obtain ⟨P, hP, -, hexposed | hagree⟩ := h
  · exact ⟨P, hP, .inr (.some (agree_of_exposed hp hP.below hexposed _ _))⟩
  · refine ⟨P, hP, .inr (.some ?_)⟩
    cases hagree with
    | none => exact Agree.refl P p .null
    | some h => exact h

theorem Settles.of_unmarked {label : String} {c : Trace} {x : Outcome}
    (h : Settles label p c false x d out) : d = c ∧ out = some (x.getD .null) := by
  cases h with
  | absorbed | kept => exact ⟨rfl, rfl⟩

theorem Settles.of_marked {label : String} {c : Trace} {x : Outcome}
    (h : Settles label p c true x d out) :
    (x = some .null ∧ d = c + .error (.nullValue label) p ∧ out = none) ∨
      (x ≠ some .null ∧ d = c ∧ out = x) := by
  cases h with
  | missing => exact .inr ⟨nofun, rfl, rfl⟩
  | null => exact .inl ⟨rfl, rfl, rfl⟩
  | value hv => exact .inr ⟨by simpa using hv, rfl, rfl⟩

theorem settles_parallel {label : String} {marked : Bool} {c c' : Trace} {x x' : Outcome}
    (hs : Settles label p c marked x d out) (hs' : Settles label p c' marked x' d' out')
    (hmarked : L.Nullable p ↔ marked = false) (h : L.ContentParallel p c c' x x') :
    L.PositionParallel p d d' out out' := by
  cases marked with
  | false =>
    obtain ⟨rfl, rfl⟩ := hs.of_unmarked
    obtain ⟨rfl, rfl⟩ := hs'.of_unmarked
    exact h.positionParallel (hmarked.2 rfl)
  | true =>
    have hp : ¬ L.Nullable p := by simp [hmarked]
    obtain ⟨P, hP, hnull, h⟩ := h
    -- a null is refused in both runs or in neither, with the same error
    rcases hs.of_marked with ⟨hx, rfl, rfl⟩ | ⟨hx, rfl, rfl⟩ <;>
      rcases hs'.of_marked with ⟨hx', rfl, rfl⟩ | ⟨hx', rfl, rfl⟩
    · exact ⟨P, hP.add_right _, .inr .none⟩
    · exact absurd (hnull.1 hx) hx'
    · exact absurd (hnull.2 hx') hx
    · exact ⟨P, hP, h.imp_left fun h => ⟨hp, h⟩⟩

/-- What must not be null is not, in either run. -/
theorem Layout.PositionParallel.content (h : L.PositionParallel p d d' out out')
    (hout : out ≠ some .null) (hout' : out' ≠ some .null) :
    L.ContentParallel p d d' out out' := by
  obtain ⟨P, hP, h⟩ := h
  exact ⟨P, hP, iff_of_false hout hout', h.imp_left And.right⟩

/-! ## Branches -/

theorem forall₂_branches {R : Branch → Branch → Prop} {bs bs' : List Branch}
    (hel : bs.map Branch.element = bs'.map Branch.element)
    (h : ∀ b ∈ bs, ∀ b' ∈ bs', b.element = b'.element → R b b') :
    List.Forall₂ (fun b b' => b.element = b'.element ∧ R b b') bs bs' := by
  induction bs generalizing bs' with
  | nil =>
    obtain rfl := List.map_eq_nil_iff.1 hel.symm
    exact .nil
  | cons b bs ih =>
    obtain ⟨b', bs', rfl, he, hel⟩ := List.map_eq_cons_iff.1 hel.symm
    refine .cons ⟨he.symm, h b List.mem_cons_self b' List.mem_cons_self he.symm⟩ ?_
    exact ih hel.symm fun c hc c' hc' =>
      h c (List.mem_cons_of_mem b hc) c' (List.mem_cons_of_mem b' hc')

/-- The branches of two runs part where one of them does. -/
theorem exists_parting {bs bs' : List Branch} (hnodup : (bs.map Branch.element).Nodup)
    (h : List.Forall₂ (fun b b' => b.element = b'.element ∧
      L.PositionParallel (p.join b.element) b.trace b'.trace b.outcome b'.outcome) bs bs') :
    ∃ P, Parting P p (bs.map Branch.trace).sum (bs'.map Branch.trace).sum ∧
      (∀ q ∈ P, ∃ b ∈ bs, p.join b.element <+: q) ∧
      List.Forall₂ (fun b b' => b.element = b'.element ∧
        L.OutcomesAgree P (p.join b.element) b.outcome b'.outcome) bs bs' := by
  induction h with
  | nil => exact ⟨∅, Parting.refl p 0, nofun, .nil⟩
  | @cons b b' bs bs' hb _ ih =>
    obtain ⟨hnew, hnodup⟩ := List.nodup_cons.1 hnodup
    obtain ⟨Q, hQ, hQb, hQout⟩ := ih hnodup
    obtain ⟨he, P, hP, hPout⟩ := hb
    refine ⟨P ∪ Q, ?_, ?_, .cons ⟨he, hPout.mono Set.subset_union_left⟩ ?_⟩
    · refine hP.union hQ fun q hq q' hq' r hqr hqr' => ?_
      obtain ⟨c, hc, hcq⟩ := hQb q' hq'
      have := Path.eq_of_join_prefix ((hP.below q hq).trans hqr) (hcq.trans hqr')
      exact hnew (this ▸ List.mem_map_of_mem hc)
    · rintro q (hq | hq)
      · exact ⟨b, List.mem_cons_self, hP.below q hq⟩
      · obtain ⟨c, hc, hcq⟩ := hQb q hq
        exact ⟨c, List.mem_cons_of_mem b hc, hcq⟩
    · exact hQout.imp fun c c' h => ⟨h.1, h.2.mono Set.subset_union_right⟩

/-- Values put together from values that agree agree. -/
theorem agree_of_branches {P : Set Path} {bs bs' : List Branch} {v v' : Json}
    (hv : Assembled bs v) (hv' : Assembled bs' v') (hhead : v.head = v'.head)
    (h : List.Forall₂ (fun b b' => b.element = b'.element ∧
      Option.Rel (L.Agree P (p.join b.element)) b.outcome b'.outcome) bs bs') :
    L.Agree P p v v' := by
  intro q hq
  cases q with
  | nil => simp [hhead]
  | cons e q =>
    rw [Json.at?_cons, Json.at?_cons]
    rw [List.append_cons] at hq
    cases hstep : v.step? e with
    | some w =>
      obtain ⟨b, hb, rfl, hw⟩ := (hv e w).1 hstep
      obtain ⟨b', hb', he, hagree⟩ := Routine.exists_rel_of_mem h hb
      rw [hw] at hagree
      generalize hw' : b'.outcome = out' at hagree
      cases hagree with
      | @some _ w' hagree =>
        rw [(hv' b.element w').2 ⟨b', hb', he.symm, hw'⟩]
        exact hagree q hq
    | none =>
      cases hstep' : v'.step? e with
      | none => rfl
      | some w' =>
        obtain ⟨b', hb', rfl, hw'⟩ := (hv' e w').1 hstep'
        obtain ⟨b, hb, he, hagree⟩ := Routine.exists_rel_of_mem h.flip hb'
        rw [hw'] at hagree
        generalize hw : b.outcome = out at hagree
        cases hagree with
        | @some w _ _ =>
          rw [(hv b'.element w).2 ⟨b, hb, he, hw⟩] at hstep
          cases hstep

theorem rel_none_iff {R : Json → Json → Prop} (h : Option.Rel R out out') :
    out = none ↔ out' = none := by
  cases h with
  | none => exact Iff.rfl
  | some => exact iff_of_false nofun nofun

theorem gather_eq_none_iff_of_forall₂ {bs bs' : List Branch}
    (h : List.Forall₂ (fun b b' => b.outcome = none ↔ b'.outcome = none) bs bs') :
    Executor.gather (bs.map Branch.outcome) = none ↔
      Executor.gather (bs'.map Branch.outcome) = none := by
  rw [gather_eq_none_iff, gather_eq_none_iff]
  induction h with
  | nil => exact Iff.rfl
  | cons hb _ ih =>
    rw [List.map_cons, List.map_cons, List.mem_cons, List.mem_cons, ih, eq_comm, hb, eq_comm]

section Gathered

variable {bs bs' : List Branch} {elements : List PathElement} {build : List Json → Json}
  (hel : bs.map Branch.element = elements) (hel' : bs'.map Branch.element = elements)
  (hbuild : ∀ {bs vs}, bs.map Branch.element = elements → bs.map Branch.outcome = vs.map some →
    Assembled bs (build vs))
  (hhead : ∀ {vs vs'}, vs.length = vs'.length → (build vs).head = (build vs').head)

include hel hel' hbuild hhead

/-- Outcomes that agree are gathered to values that agree. -/
theorem rel_of_branches {P : Set Path}
    (h : List.Forall₂ (fun b b' => b.element = b'.element ∧
      Option.Rel (L.Agree P (p.join b.element)) b.outcome b'.outcome) bs bs') :
    Option.Rel (L.Agree P p) ((Executor.gather (bs.map Branch.outcome)).map build)
      ((Executor.gather (bs'.map Branch.outcome)).map build) := by
  have hnone := gather_eq_none_iff_of_forall₂ (h.imp fun b b' h => rel_none_iff h.2)
  cases hg : Executor.gather (bs.map Branch.outcome) with
  | none =>
    rw [hnone.1 hg]
    exact .none
  | some vs =>
    have hg' : Executor.gather (bs'.map Branch.outcome) ≠ none := by simp [← hnone, hg]
    obtain ⟨vs', hg'⟩ := Option.ne_none_iff_exists'.1 hg'
    rw [hg']
    have hvs := gather_eq_some_iff.1 hg
    have hvs' := gather_eq_some_iff.1 hg'
    refine .some (agree_of_branches (hbuild hel hvs) (hbuild hel' hvs') (hhead ?_) h)
    have hlen := congrArg List.length hvs
    have hlen' := congrArg List.length hvs'
    rw [List.length_map, List.length_map] at hlen hlen'
    rw [← hlen, ← hlen', h.length_eq]

/-- What stands next to each other in two runs is put together in the same way. -/
theorem contentParallel_of_branches (hnodup : elements.Nodup) (hne : ∀ vs, build vs ≠ .null)
    (h : ∀ b ∈ bs, ∀ b' ∈ bs', b.element = b'.element →
      L.PositionParallel (p.join b.element) b.trace b'.trace b.outcome b'.outcome) :
    L.ContentParallel p (bs.map Branch.trace).sum (bs'.map Branch.trace).sum
      ((Executor.gather (bs.map Branch.outcome)).map build)
      ((Executor.gather (bs'.map Branch.outcome)).map build) := by
  obtain ⟨P, hP, -, hout⟩ :=
    exists_parting (hel ▸ hnodup) (forall₂_branches (hel.trans hel'.symm) h)
  refine ⟨P, hP, ?_, ?_⟩
  · have hnonnull (outs : List Outcome) : (Executor.gather outs).map build ≠ some .null := by
      intro hnull
      obtain ⟨vs, _, hvs⟩ := Option.map_eq_some_iff.1 hnull
      exact hne vs hvs
    exact iff_of_false (hnonnull _) (hnonnull _)
  by_cases hexposed : L.Exposed P p
  · exact .inl hexposed
  -- a branch that must not be null and is exposed would expose the position with it
  have hagree := hout.imp fun b b' h => And.imp_right (Or.resolve_left · fun ⟨hn, q, hq, hclear⟩ =>
    hexposed ⟨q, hq, hclear.parent hn⟩) h
  exact .inr (rel_of_branches hel hel' hbuild hhead hagree)

end Gathered

end GraphAssembly
