import GraphAssembly.Proofs.Execution.Requests

/-!
# Null propagation

An error leaves its position without a value, and what must not be null and has no value leaves
without a value what it belongs to, up to the nearest nullable position. That is null then. Nothing
else makes a position null, except that it was null to begin with.

1. `GivenNull`: where null comes from if not from an error.
2. `ContentExact` and `PositionExact`: what the rules keep, before and after a position is settled.
3. Values put together from branches.
4. The rules, and `executes_exact`.
5. The statement about responses.
-/

namespace GraphAssembly

variable {ω : Type}

/-! ## Nulls and their causes -/

/-- The resolver of the position gave null, or the list that it is an item of has null there, or the
codec of its scalar gave null. -/
inductive GivenNull (journal : List Event) : Path → Prop
  | resolved {p : Path} (h : .resolved p (.ok .null) ∈ journal) : GivenNull journal p
  | item {p : Path} {r : Resolved} {rs : List Resolved} {i : Nat} (h : .completed p r ∈ journal)
    (hrs : Executor.items? r = some rs) (hi : rs[i]? = some .null) :
    GivenNull journal (p.join (.index i))
  | serialized {p : Path} (h : .serialized p .null ∈ journal) : GivenNull journal p

namespace Layout

variable (L : Layout ω) (journal : List Event)

/-- The value at `p` is null where the error has its anchor, or further above where another error
has. -/
def Nulled (p : Path) (errors : Multiset Located) (v : Json) (l : Located) : Prop :=
  ∃ a, L.IsAnchor a l.path ∧ ∃ q, p ++ q <+: a ∧ v.at? q = some .null ∧
    (p ++ q = a ∨ ∃ l' ∈ errors, L.IsAnchor (p ++ q) l'.path)

/-- The position is the anchor of an error, or it is nullable and was given null. -/
def Accounted (errors : Multiset Located) (p : Path) : Prop :=
  (∃ l ∈ errors, L.IsAnchor p l.path) ∨ (L.Nullable p ∧ GivenNull journal p)

/-- No nullable position is between `p` and some error. -/
def Lacking (p : Path) (errors : Multiset Located) : Prop :=
  ∃ l ∈ errors, p <+: l.path ∧ L.Clear p l.path

/-- All errors are accounted for by nulls of a value at `p`, and all nulls below `p` by errors. -/
structure Exact (p : Path) (errors : Multiset Located) (v : Json) : Prop where
  nulled : ∀ l ∈ errors, L.Nulled p errors v l
  below : ∀ q, q ≠ [] → v.at? q = some .null → (L.slot? (p ++ q)).isSome = true →
    L.Accounted journal errors (p ++ q)

/-- The content of a position, which has no value, or one that is null only if it was given. -/
def ContentExact (p : Path) (errors : Multiset Located) : Outcome → Prop
  | none => L.Lacking p errors
  | some v => L.Exact journal p errors v ∧ (v = .null → GivenNull journal p)

/-- A position without a value is not nullable. -/
def PositionExact (p : Path) (errors : Multiset Located) : Outcome → Prop
  | none => ¬ L.Nullable p ∧ L.Lacking p errors
  | some v => L.Exact journal p errors v ∧ (v = .null → L.Accounted journal errors p)

end Layout

open Layout

variable {L : Layout ω} {journal : List Event} {p : Path} {errors : Multiset Located}

theorem Layout.Accounted.mono {errors' : Multiset Located} (h : L.Accounted journal errors p)
    (hsub : ∀ l ∈ errors, l ∈ errors') : L.Accounted journal errors' p :=
  h.imp_left fun ⟨l, hl, ha⟩ => ⟨l, hsub l hl, ha⟩

theorem at?_null {q : Path} (h : q ≠ []) : Json.null.at? q = none := by
  cases q with
  | nil => exact absurd rfl h
  | cons e q => rfl

/-- An error at a position leaves it without a value. -/
theorem lacking_of_mem {l : Located} (hl : l ∈ errors) (hp : l.path = p) : L.Lacking p errors :=
  ⟨l, hl, hp ▸ List.prefix_rfl, hp ▸ clear_self _⟩

/-- A position that lacks a value is null, if it is nullable. -/
theorem Layout.Lacking.positionExact (h : L.Lacking p errors) (hp : L.Nullable p)
    (hbelow : ∀ l ∈ errors, p <+: l.path) : L.PositionExact journal p errors (some .null) := by
  obtain ⟨l, hl, hpl, hclear⟩ := h
  have hanchor : L.IsAnchor p l.path := ⟨hpl, hp, hclear⟩
  refine ⟨⟨fun l' hl' => ?_, fun q hq hnull => ?_⟩, fun _ => .inl ⟨l, hl, hanchor⟩⟩
  · obtain ⟨a, ha, hpa⟩ := exists_isAnchor (hbelow l' hl') hp
    refine ⟨a, ha, [], by rwa [List.append_nil], rfl, .inr ⟨l, hl, ?_⟩⟩
    rwa [List.append_nil]
  · rw [at?_null hq] at hnull
    cases hnull

/-- A nullable position is null if its content has no value. -/
theorem Layout.ContentExact.positionExact {out : Outcome} (h : L.ContentExact journal p errors out)
    (hp : L.Nullable p) (hbelow : ∀ l ∈ errors, p <+: l.path) :
    L.PositionExact journal p errors (some (out.getD .null)) := by
  cases out with
  | none => exact Lacking.positionExact h hp hbelow
  | some v => exact ⟨h.1, fun hnull => .inr ⟨hp, h.2 hnull⟩⟩

theorem settles_exact {label : String} {d d' : Trace} {marked : Bool} {out out' : Outcome}
    (hs : Settles label p d' marked out' d out) (hmarked : L.Nullable p ↔ marked = false)
    (hbelow : ∀ l ∈ d'.1, p <+: l.path) (h : L.ContentExact journal p d'.1 out') :
    L.PositionExact journal p d.1 out := by
  cases hs with
  | missing => exact ⟨by simp [hmarked], h⟩
  | null =>
    refine ⟨by simp [hmarked], lacking_of_mem (l := ⟨.nullValue label, p⟩) ?_ rfl⟩
    rw [Prod.fst_add, Multiset.mem_add, mem_error_fst]
    exact .inr rfl
  | value hv => exact ⟨h.1, fun hnull => absurd hnull hv⟩
  | absorbed | kept => exact h.positionExact (hmarked.2 rfl) hbelow

/-! ## Branches -/

theorem errors_sum_of_mem {bs : List Branch} {b : Branch} (hb : b ∈ bs) {l : Located}
    (hl : l ∈ b.trace.1) : l ∈ (bs.map Branch.trace).sum.1 :=
  mem_sum_fst.2 ⟨b.trace, List.mem_map_of_mem hb, hl⟩

theorem exists_branch_of_error {bs : List Branch} {l : Located}
    (hl : l ∈ (bs.map Branch.trace).sum.1) : ∃ b ∈ bs, l ∈ b.trace.1 := by
  obtain ⟨d, hd, hl⟩ := mem_sum_fst.1 hl
  obtain ⟨b, hb, rfl⟩ := List.mem_map.1 hd
  exact ⟨b, hb, hl⟩

/-- A branch without a value leaves what it belongs to without one. -/
theorem lacking_of_branch {bs : List Branch} {b : Branch} (hb : b ∈ bs) (hout : b.outcome = none)
    (h : L.PositionExact journal (p.join b.element) b.trace.1 b.outcome) :
    L.Lacking p (bs.map Branch.trace).sum.1 := by
  rw [hout] at h
  obtain ⟨hnullable, l, hl, hpl, hclear⟩ := h
  exact ⟨l, errors_sum_of_mem hb hl, Path.prefix_of_join_prefix hpl, hclear.parent hnullable⟩

theorem exact_of_branches {bs : List Branch} {v : Json} (hv : Assembled bs v)
    (hsome : ∀ b ∈ bs, ∃ w, b.outcome = some w)
    (h : ∀ b ∈ bs, L.PositionExact journal (p.join b.element) b.trace.1 b.outcome) :
    L.Exact journal p (bs.map Branch.trace).sum.1 v := by
  constructor
  · intro l hl
    obtain ⟨b, hb, hl⟩ := exists_branch_of_error hl
    obtain ⟨w, hw⟩ := hsome b hb
    have hexact := h b hb
    rw [hw] at hexact
    obtain ⟨a, ha, q, hqa, hnull, hq⟩ := hexact.1.nulled l hl
    refine ⟨a, ha, b.element :: q, ?_, ?_, ?_⟩
    · rwa [List.append_cons]
    · rw [Json.at?_cons, (hv _ w).2 ⟨b, hb, rfl, hw⟩]
      exact hnull
    · rw [List.append_cons]
      exact hq.imp_right fun ⟨l', hl', ha'⟩ => ⟨l', errors_sum_of_mem hb hl', ha'⟩
  · intro q hq hnull hslot
    obtain ⟨e, q, rfl⟩ := List.exists_cons_of_ne_nil hq
    rw [Json.at?_cons, Option.bind_eq_some_iff] at hnull
    obtain ⟨w, hw, hnull⟩ := hnull
    obtain ⟨b, hb, rfl, hout⟩ := (hv e w).1 hw
    have hexact := h b hb
    rw [hout] at hexact
    rw [List.append_cons] at hslot ⊢
    refine Accounted.mono ?_ fun l => errors_sum_of_mem hb
    -- the branch itself is null, or something below it is
    cases q with
    | nil =>
      rw [List.append_nil]
      exact hexact.2 (by simpa using hnull)
    | cons e' q => exact hexact.1.below (e' :: q) (by simp) hnull hslot

/-- What stands next to each other is gathered, if nothing lacks a value. -/
theorem contentExact_of_branches {bs : List Branch} (build : List Json → Json)
    (hbuild : ∀ vs, bs.map Branch.outcome = vs.map some →
      Assembled bs (build vs) ∧ build vs ≠ .null)
    (h : ∀ b ∈ bs, L.PositionExact journal (p.join b.element) b.trace.1 b.outcome) :
    L.ContentExact journal p (bs.map Branch.trace).sum.1
      ((Executor.gather (bs.map Branch.outcome)).map build) := by
  cases hg : Executor.gather (bs.map Branch.outcome) with
  | none =>
    obtain ⟨b, hb, hout⟩ := List.mem_map.1 (gather_eq_none_iff.1 hg)
    exact lacking_of_branch hb hout (h b hb)
  | some vs =>
    have houts := gather_eq_some_iff.1 hg
    obtain ⟨hassembled, hne⟩ := hbuild vs houts
    refine ⟨exact_of_branches hassembled (fun b hb => ?_) h, fun hnull => absurd hnull hne⟩
    have : b.outcome ∈ vs.map some := houts ▸ List.mem_map_of_mem hb
    obtain ⟨w, _, hw⟩ := List.mem_map.1 this
    exact ⟨w, hw.symm⟩

/-! ## The rules -/

section Rules

/-- Where no position stands below, nothing is to be said of the value. -/
theorem exact_leaf (hslot : ∀ e, L.slot? (p.join e) = none) (v : Json) :
    L.Exact journal p 0 v where
  nulled l hl := absurd hl (Multiset.notMem_zero l)
  below q hq _ hs := by
    rw [slot?_below_leaf hslot hq] at hs
    cases hs

theorem exact_null : L.Exact journal p 0 .null where
  nulled l hl := absurd hl (Multiset.notMem_zero l)
  below q hq hnull _ := by
    rw [at?_null hq] at hnull
    cases hnull

theorem lacking_error (e : FieldError) : L.Lacking p (Trace.error e p).1 :=
  lacking_of_mem (l := ⟨e, p⟩) (mem_error_fst.2 rfl) rfl

theorem contentExact_error (e : FieldError) : L.ContentExact journal p (Trace.error e p).1 none :=
  lacking_error e

variable {A : ObjectEnding ω} {t : TypeRef} {selections : List Selection} {d : Trace}
  {out : Outcome}

/-- What the selections of a position come to on its object. -/
def ObjectExact (L : Layout ω) (journal : List Event) (A : ObjectEnding ω)
    (selections : List Selection) : Prop :=
  ∀ {o v p d out}, A o v p d out → Recorded L journal d → L.HasObject p o selections →
    L.ContentExact journal p d.1 out

theorem ObjectEnds.exact {o : ObjectNode ω} {v : Json} (h : ObjectEnds A o v p d out)
    (hA : ObjectExact L journal A selections) (hd : Recorded L journal d)
    (ho : L.HasObject p o selections) : L.ContentExact journal p d.1 out := by
  cases h with
  | notObject => exact contentExact_error _
  | object _ h => exact hA h hd ho

theorem NamedEnds.exact {static : Option String} {v : Json}
    (h : NamedEnds L.graph A t static v p d out) (hA : ObjectExact L journal A selections)
    (hd : Recorded L journal d) {t' : TypeRef} (hslot : L.slot? p = some (.typed t' selections))
    (hbare : t'.bare = t) (ht : t.isSingle = true) : L.ContentExact journal p d.1 out := by
  cases h with
  | builtin hb hv =>
    refine ⟨exact_leaf (slot?_join_leaf hslot (hbare ▸ ht) fun name hname => ?_) v, ?_⟩
    · rw [← hbare, hname] at hb
      cases hb
    · rintro rfl
      rw [TypeRef.accepts_null] at hv
      cases hv
  | notBuiltin | refused | untyped | notOutputType => exact contentExact_error _
  | serialized hb hn =>
    refine ⟨exact_leaf (slot?_join_leaf hslot (hbare ▸ ht) fun name hname => ?_) _, ?_⟩
    · obtain rfl : t = .named name := hbare ▸ hname
      simp only [Layout.objectAt?, show L.graph.node? name = _ from hn]
    · rintro rfl
      exact .serialized (hd.events _ (mem_event_snd.2 rfl))
  | object hb hn ho =>
    refine ho.exact hA hd (hasObject_of_slot hslot (hbare.trans (TypeRef.eq_named ht hb)) ?_)
    simp only [Layout.objectAt?, hn]
  | typed hb hn hy _ hobject ho =>
    rw [event_add_fst]
    refine ho.exact hA hd.of_event_add
      (hasObject_of_slot hslot (hbare.trans (TypeRef.eq_named ht hb)) ?_)
    rw [objectAt?_of_typing hn hy, hd.layout _ _ hd.mem_event]
    exact hobject
  | notObjectType =>
    rw [event_add_fst]
    exact contentExact_error _

theorem SingleEnds.exact {r : Resolved} (h : SingleEnds L.graph A t r p d out)
    (hA : ObjectExact L journal A selections) (hd : Recorded L journal d) {t' : TypeRef}
    (hslot : L.slot? p = some (.typed t' selections)) (hbare : t'.bare = t)
    (ht : t.isSingle = true) : L.ContentExact journal p d.1 out := by
  cases h with
  | unexpectedList => exact contentExact_error _
  | value h | typed h => exact h.exact hA hd hslot hbare ht

theorem ListEnds.exact {item : Resolved → Path → Ending} {r : Resolved}
    (h : ListEnds item t r p d out) (hd : Recorded L journal d)
    (hr : .completed p r ∈ journal)
    (hitem : ∀ {i r d out}, item r (p.join (.index i)) d out → Recorded L journal d →
      (r = .null → GivenNull journal (p.join (.index i))) →
      L.PositionExact journal (p.join (.index i)) d.1 out) :
    L.ContentExact journal p d.1 out := by
  cases h with
  | expectedList => exact contentExact_error _
  | @items rs _ _ _ hrs htogether =>
    obtain ⟨bs, hel, hbs, rfl, rfl⟩ := branches_of_items htogether
    refine contentExact_of_branches .arr (fun vs hvs => ⟨assembled_items hel hvs, by simp⟩)
      fun b hb => ?_
    obtain ⟨i, r, he, hi, hends⟩ := hbs b hb
    rw [he] at hends ⊢
    exact hitem hends (hd.branch hb) fun hnull => .item hr hrs (hnull ▸ hi)

theorem UnlessNull.exact {content : Resolved → Path → Ending} {r : Resolved}
    (h : UnlessNull content r p d out) (hd : Recorded L journal d)
    (hr : r = .null → GivenNull journal p)
    (hcontent : ∀ {d out}, content r p d out → Recorded L journal d → .completed p r ∈ journal →
      L.ContentExact journal p d.1 out) : L.ContentExact journal p d.1 out := by
  cases h with
  | null => exact ⟨exact_null, fun _ => hr rfl⟩
  | content _ h =>
    rw [event_add_fst]
    exact hcontent h hd.of_event_add hd.mem_event

theorem Settled.exact {marked : Bool} {label : String} {content : Ending}
    (h : Settled marked label p content d out) (hmarked : L.Nullable p ↔ marked = false)
    (hd : Recorded L journal d) (hF : ∀ d out, content d out → ContentFootprint p d)
    (hcontent : ∀ {d out}, content d out → Recorded L journal d →
      L.ContentExact journal p d.1 out) : L.PositionExact journal p d.1 out := by
  obtain ⟨d', out', hc, hs⟩ := h
  exact settles_exact hs hmarked (hF _ _ hc).errors
    (hcontent hc ⟨hs.events ▸ hd.events, hd.layout⟩)

/-- What must not be null is not, and has not been made null. -/
theorem Layout.PositionExact.content (h : L.PositionExact journal p errors out)
    (hn : ¬ L.Nullable p) : L.ContentExact journal p errors out := by
  cases out with
  | none => exact h.2
  | some v =>
    refine ⟨h.1, fun hv => ?_⟩
    rcases h.2 hv with ⟨_, _, ha⟩ | ⟨hp, _⟩
    · exact absurd ha.nullable hn
    · exact absurd hp hn

theorem InnerEnds.exact {label : String} {r : Resolved}
    (h : InnerEnds L.graph A label t r p d out) (hA : ObjectExact L journal A selections)
    (hF : ∀ o v p d out, A o v p d out → FootprintBelow p d) (hd : Recorded L journal d)
    (hr : r = .null → GivenNull journal p) {t' : TypeRef}
    (hslot : L.slot? p = some (.typed t' selections)) (hbare : t'.bare = t.bare)
    (hmark : t.isNonNull = true → ¬ L.Nullable p) : L.ContentExact journal p d.1 out := by
  induction t using TypeRef.contentInduction generalizing r p d out t' with
  | nonNull inner ih =>
    -- a mark within a mark: the position is settled once more
    have hn := hmark rfl
    rw [innerEnds_nonNull] at h
    refine h.exact hd hr fun hin hd hmem => ?_
    refine Layout.PositionExact.content ?_ hn
    refine hin.exact (by simp [hn]) hd (fun _ _ => InnerEnds.footprint hF) fun hin hd => ?_
    exact ih hin hd hr hslot hbare fun _ => hn
  | list item ih =>
    rw [innerEnds_list] at h
    refine h.exact hd hr fun hlist hd hmem => hlist.exact hd hmem fun {i _ _ _} hin hd hr => ?_
    have hitem := slot?_item hslot hbare i
    have hnullable := nullable_iff_of_slot_typed hitem
    refine hin.exact hnullable hd (fun _ _ => InnerEnds.footprint hF) fun hin hd => ?_
    refine ih hin hd hr hitem item.bare_unmarked.symm fun hm => ?_
    rw [hnullable, item.isNonNull_of_unmarked hm]
    simp
  | single t ht =>
    rw [innerEnds_single L.graph A label ht] at h
    have hsame := TypeRef.bare_of_isSingle ht
    exact h.exact hd hr fun hsingle hd _ => hsingle.exact hA hd hslot (hbare.trans hsame) ht

theorem Ends.exact {label : String} {r : Resolved}
    (h : Ends L.graph A label t r p d out) (hA : ObjectExact L journal A selections)
    (hF : ∀ o v p d out, A o v p d out → FootprintBelow p d) (hd : Recorded L journal d)
    (hr : r = .null → GivenNull journal p) (hslot : L.slot? p = some (.typed t selections)) :
    L.PositionExact journal p d.1 out := by
  have hnullable := nullable_iff_of_slot_typed hslot
  refine Settled.exact h hnullable hd (fun _ _ => InnerEnds.footprint hF) fun hin hd => ?_
  refine InnerEnds.exact hin hA hF hd hr hslot t.bare_unmarked.symm fun hm => ?_
  rw [hnullable, t.isNonNull_of_unmarked hm]
  simp

/-- An error in place of the value of a field. -/
theorem positionExact_nullFor (hslot : L.slot? p = some (.typed t selections)) (e : FieldError) :
    L.PositionExact journal p (Trace.error e p).1 (Executor.nullFor t) := by
  have hlacking := lacking_error (L := L) (p := p) e
  have hnullable := nullable_iff_of_slot_typed hslot
  cases hm : t.isNonNull with
  | true =>
    rw [Executor.nullFor, if_pos hm]
    exact ⟨by simp [hnullable, hm], hlacking⟩
  | false =>
    rw [Executor.nullFor, if_neg (by simp [hm])]
    exact hlacking.positionExact (hnullable.2 hm) (footprint_error e p).errors

theorem FieldEnds.exact {s : Schema ω} (hs : s.graph = L.graph) {o : ObjectNode ω} {source : Json}
    {f : SelectedField} (h : FieldEnds s A o source f p d out) (rest : List SelectedField)
    (hA : ObjectExact L journal A (Selection.nested (f :: rest)))
    (hF : ∀ o v p d out, A o v p d out → FootprintBelow p d) (hd : Recorded L journal d)
    (hslot : L.slot? p = Slot.ofGroup o (f :: rest)) : L.PositionExact journal p d.1 out := by
  cases h with
  | typename hname =>
    rw [Slot.ofGroup, if_pos hname] at hslot
    refine ⟨exact_leaf (fun e => ?_) _, by simp⟩
    rw [slot?_join, hslot]
    rfl
  | unknown hname hf =>
    simp only [Slot.ofGroup, if_neg hname, hf] at hslot
    refine (lacking_error _).positionExact ?_
      (footprint_error _ p).errors
    simp [nullable_iff_of_slot hslot, Slot.isNullable]
  | badArguments hname hf =>
    simp only [Slot.ofGroup, if_neg hname, hf] at hslot
    exact positionExact_nullFor hslot _
  | failed hname hf =>
    simp only [Slot.ofGroup, if_neg hname, hf] at hslot
    rw [event_add_fst]
    exact positionExact_nullFor hslot _
  | resolved hname hf _ _ hends =>
    simp only [Slot.ofGroup, if_neg hname, hf] at hslot
    have hgiven := hd.mem_event
    rw [event_add_fst]
    rw [hs] at hends
    refine hends.exact hA hF hd.of_event_add (fun hnull => ?_) hslot
    exact .resolved (hnull ▸ hgiven)

end Rules

/-- What is selected on an object leaves nulls just where its errors have them. -/
theorem executes_exact {s : Schema ω} (hs : s.graph = L.graph) {selections : List Selection} :
    ObjectExact L journal (Executes s selections) selections := by
  intro o v p d out h
  refine executes_induction (P := fun selections o _ p d out => Recorded L journal d →
    L.HasObject p o selections → L.ContentExact journal p d.1 out) ?_ h
  intro selections o source p bs hel hbs ih hd ho
  refine contentExact_of_branches (fun vs =>
    .obj ((Dict.keys (s.graph.groupsOn o selections)).zip vs)) (fun vs hvs => ?_) fun b hb => ?_
  · exact ⟨assembled_obj (Selection.distinct_collect _ _) hel hvs, by simp⟩
  · obtain ⟨key, f, rest, he, hgroup, hends⟩ := hbs b hb
    refine hends.exact hs rest (fun {o v p d out} h => ?_)
      (fun o v p d out => executes_footprint) (hd.branch hb) ?_
    · exact ih key f rest hgroup o v p d out h
    · have hget : Dict.get? (s.graph.groupsOn o selections) key = some (f :: rest) :=
        Dict.get?_of_mem (Selection.distinct_collect _ _) hgroup
      rw [he, ho key, ← hs, hget]
      rfl

/-! ## Responses -/

/-- Errors leave null at the nearest nullable position, and null stands where an error has left it
or where it was given. -/
structure NullsExact (L : Layout ω) (journal : List Event) (errors : List Report) (data : Json) :
    Prop where
  nulled : ∀ report ∈ errors, ∃ p, report.path = some p ∧ ∃ a, L.IsAnchor a p ∧
    ∃ q, q <+: a ∧ data.at? q = some .null ∧
      (q = a ∨ ∃ other ∈ errors, ∃ p', other.path = some p' ∧ L.IsAnchor q p')
  accounted : ∀ q, (L.slot? q).isSome = true → data.at? q = some .null →
    (∃ report ∈ errors, ∃ p, report.path = some p ∧ L.IsAnchor q p) ∨
      (L.Nullable q ∧ GivenNull journal q)

theorem Layout.PositionExact.nullsExact {errors : List Located} {v : Json}
    (h : L.PositionExact journal [] errors (some v)) :
    NullsExact L journal (errors.map fun l => l.error.report (some l.path)) v where
  nulled := by
    intro report hreport
    obtain ⟨l, hl, rfl⟩ := List.mem_map.1 hreport
    obtain ⟨a, ha, q, hqa, hnull, hq⟩ := h.1.nulled l hl
    refine ⟨l.path, rfl, a, ha, q, hqa, hnull, hq.imp_right fun ⟨l', hl', ha'⟩ => ?_⟩
    exact ⟨_, List.mem_map_of_mem hl', l'.path, rfl, ha'⟩
  accounted := by
    intro q hslot hnull
    have haccounted : L.Accounted journal errors q := by
      by_cases hq : q = []
      · subst hq
        exact h.2 (Option.some.inj hnull)
      · exact h.1.below q hq hnull hslot
    refine haccounted.imp_left fun ⟨l, hl, ha⟩ => ?_
    exact ⟨_, List.mem_map_of_mem hl, l.path, rfl, ha⟩

theorem answer_nullsExact {e : Executor ω} (he : e.Schedules) {operation : Operation}
    (hroot : (e.schema.root? operation).isSome = true) (selections : List Selection)
    (w : World ω) :
    ∃ data, (e.answer operation selections w).1.data = some data ∧
      NullsExact (e.layout operation selections w) (e.journal operation selections w)
        (e.answer operation selections w).1.errors data := by
  obtain ⟨root, hroot⟩ := Option.isSome_iff_exists.1 hroot
  obtain ⟨errors, out, hends, hdata, herrors⟩ := answer_ends he hroot selections w
  have hcontent := executes_exact rfl hends (recorded_root he hroot selections w errors)
    (hasObject_root hroot selections w)
  have hposition := hcontent.positionExact (nullable_root hroot selections w)
    (executes_footprint hends).errors
  exact ⟨_, hdata, herrors ▸ hposition.nullsExact⟩

/-- The nulls of a response are those that its errors account for and those that were given, however
the request is executed: with or without concurrency, and in whatever order siblings and items go
on. -/
theorem execute_nullsExact (s : Schema ω) (operation : Operation) (selections : List Selection)
    (w : World ω) (hroot : (s.root? operation).isSome = true) :
    (∃ data, (s.execute operation selections w).1.data = some data ∧
      NullsExact (s.layout operation selections w) (s.journal operation selections w)
        (s.execute operation selections w).1.errors data) ∧
    ∀ e : Executor ω, e.schema = s → e.Schedules →
      ∃ data, (e.answer operation selections w).1.data = some data ∧
        NullsExact (e.layout operation selections w) (e.journal operation selections w)
          (e.answer operation selections w).1.errors data := by
  constructor
  · rw [Schema.execute_eq_answer]
    exact answer_nullsExact (schedules_forOperation s operation) hroot selections w
  · rintro e rfl he
    exact answer_nullsExact he hroot selections w

/-- A query for a hero, who may be missing, but has a name if there is one. -/
def heroes : Blueprint Unit where
  rootQuery := "Query"
  components := [
    .implementation {
      name := "Query"
      instanceToken := ⟨"Heroes"⟩
      resolvers := .ofList [("hero", {
        name := "hero"
        field := { typeName := "Hero", nullable := true }
        instanceToken := ⟨"Heroes"⟩
        parameters := []
        bindings := []
        method := fun _ _ => pure (.ok (.value (.obj []))) })]
      provider := some ⟨⟨"Heroes"⟩, .value ⟨0, .held "Heroes" .null⟩⟩ },
    .definition { name := "Hero", fields := .ofList [("name", { typeName := "String" })] }]

/-- The hero that is found has no name. -/
theorem heroes_nullsExact :
    let selections := [.field "hero" none [] [.field "name" none [] []]]
    ∃ s w data data', Schema.ofBlueprint heroes {} ⟨[], ()⟩ = (.ok s, w) ∧
      (s.root? .query).isSome = true ∧ (s.execute .query selections ⟨{}, w⟩).1.data = some data ∧
      NullsExact (s.layout .query selections ⟨{}, w⟩) (s.journal .query selections ⟨{}, w⟩)
        (s.execute .query selections ⟨{}, w⟩).1.errors data ∧
      let e := Executor.itemByItem s
      e.Schedules ∧ (e.answer .query selections ⟨{}, w⟩).1.data = some data' ∧
        NullsExact (e.layout .query selections ⟨{}, w⟩) (e.journal .query selections ⟨{}, w⟩)
          (e.answer .query selections ⟨{}, w⟩).1.errors data' := by
  intro selections
  obtain ⟨s, w, hs, hroot⟩ : ∃ s w, Schema.ofBlueprint heroes {} ⟨[], ()⟩ = (.ok s, w) ∧
      (s.root? .query).isSome = true := ⟨_, _, rfl, rfl⟩
  obtain ⟨⟨data, hdata, hexact⟩, hall⟩ := execute_nullsExact s .query selections ⟨{}, w⟩ hroot
  have he := schedules_itemByItem s
  obtain ⟨data', hdata', hexact'⟩ := hall _ rfl he
  exact ⟨s, w, data, data', hs, hroot, hdata, hexact, he, hdata', hexact'⟩

end GraphAssembly
