import GraphAssembly.Proofs.Execution.Parallel
import GraphAssembly.Proofs.Execution.Requests
import GraphAssembly.Proofs.Execution.Skeletons

/-!
# Isolation

Two graphs with the same skeleton differ in the code behind their fields. Whatever that code does in
two runs of one request, everything that does not concern a field which answers differently in them
is the same in both: the errors, the data outside of what may have become null on its account, and
how often each field is asked for its value.

1. The rules in two runs, and `executes_parallel`.
2. The statement about responses.
-/

namespace GraphAssembly

open scoped Classical
open Layout

variable {ω : Type} {L : Layout ω} {p : Path} {d d' : Trace} {out out' : Outcome}

/-! ## The rules -/

section Rules

variable {g : Graph ω} {journal : List Event} {A A' : ObjectEnding ω} {t : TypeRef}
  {selections : List Selection}

/-- What the selections of a position come to on its object in two runs. -/
def ObjectParallel (L : Layout ω) (journal : List Event) (A A' : ObjectEnding ω)
    (selections : List Selection) : Prop :=
  ∀ {o o' v p d d' out out'}, o'.skeleton = o.skeleton → A o v p d out → A' o' v p d' out' →
    Recorded L journal d → L.HasObject p o selections → L.ContentParallel p d d' out out'

theorem ObjectEnds.parallel {o o' : ObjectNode ω} {v : Json} (h : ObjectEnds A o v p d out)
    (h' : ObjectEnds A' o' v p d' out') (ho : o'.skeleton = o.skeleton)
    (hA : ObjectParallel L journal A A' selections) (hd : Recorded L journal d)
    (hobject : L.HasObject p o selections) : L.ContentParallel p d d' out out' := by
  cases h with
  | notObject hv =>
    cases h' with
    | notObject => exact contentParallel_of_eq (by rw [name_of_skeleton ho])
    | object hv' => cases hv.symm.trans hv'
  | object hv h =>
    cases h' with
    | notObject hv' => cases hv.symm.trans hv'
    | object _ h' => exact hA ho h h' hd hobject

theorem TypedEnds.parallel {v : Json} {x : Except FieldError String}
    (h : TypedEnds L.graph A t v p x d out) (h' : TypedEnds g A' t v p x d' out')
    (hg : g.skeleton = L.graph.skeleton) (hA : ObjectParallel L journal A A' selections)
    (hd : Recorded L journal d)
    (hobject : ∀ name o, L.runtimeType? p = some name → L.graph.object? name = some o →
      L.HasObject p o selections) : L.ContentParallel p d d' out out' := by
  cases h with
  | untyped =>
    cases h'
    exact contentParallel_refl p _ _
  | @typed name o _ _ ho h =>
    have hskeleton := object?_of_skeleton hg name
    rw [ho] at hskeleton
    obtain ⟨o', ho', hskeleton⟩ := Option.map_eq_some_iff.1 hskeleton
    cases h' with
    | typed ho'' h' =>
      cases ho'.symm.trans ho''
      refine (h.parallel h' hskeleton hA hd.of_event_add ?_).add_left _
      exact hobject name o (hd.layout p name hd.mem_event) ho
    | notObjectType ho'' => cases ho'.symm.trans ho''
  | @notObjectType name ho =>
    have hskeleton := object?_of_skeleton hg name
    rw [ho, Option.map_none, Option.map_eq_none_iff] at hskeleton
    cases h' with
    | typed ho' => cases hskeleton.symm.trans ho'
    | notObjectType => exact contentParallel_refl p _ _

theorem NamedEnds.parallel {static : Option String} {v : Json}
    (h : NamedEnds L.graph A t static v p d out) (h' : NamedEnds g A' t static v p d' out')
    (hg : g.skeleton = L.graph.skeleton) (hpure : L.graph.Pure)
    (hA : ObjectParallel L journal A A' selections) (hd : Recorded L journal d) {t' : TypeRef}
    (hslot : L.slot? p = some (.typed t' selections)) (hbare : t'.bare = t)
    (ht : t.isSingle = true) : L.ContentParallel p d d' out out' := by
  cases hb : t.isBuiltin with
  | true => exact contentParallel_of_eq ((h.of_builtin hb).trans (h'.of_builtin hb).symm)
  | false =>
  have hnamed : t'.bare = .named t.baseName := hbare.trans (TypeRef.eq_named ht hb)
  have hother (hn : ∀ n, L.graph.node? t.baseName = some n → n.isCompletable = false)
      (hn' : ∀ n, g.node? t.baseName = some n → n.isCompletable = false) :
      L.ContentParallel p d d' out out' :=
    contentParallel_of_eq
      ((h.of_notCompletable hb hn).trans (h'.of_notCompletable hb hn').symm)
  have htyping {n n' : Node ω} (hn : L.graph.node? t.baseName = some n)
      (hn' : g.node? t.baseName = some n') {y : Typing ω} (hy : n.typing? = some y)
      (hy' : n'.typing? = some y) : L.ContentParallel p d d' out out' := by
    obtain ⟨c, h⟩ := h.of_typing hb hn hy
    obtain ⟨c', h'⟩ := h'.of_typing hb hn' hy'
    rw [hpure.resolve hn hy static v c' c] at h'
    refine h.parallel h' hg hA hd fun name o hname ho => hasObject_of_slot hslot hnamed ?_
    rw [objectAt?_of_typing hn hy, hname]
    exact ho
  -- the node decides the rule in both runs, so there are no pairs of rules to compare
  cases hn : L.graph.node? t.baseName with
  | none =>
    have hn' := node?_eq_none_of_skeleton hg hn
    exact hother (by simp [hn]) (by simp [hn'])
  | some n =>
    obtain ⟨n', hn', hskeleton⟩ := exists_node_of_skeleton hg hn
    cases n with
    | scalar n =>
      rw [Node.eq_scalar_of_skeleton hskeleton] at hn'
      cases hc : n.codec with
      | none =>
        exact hother (by simp [hn, Node.isCompletable, hc]) (by simp [hn', Node.isCompletable, hc])
      | some c =>
        obtain ⟨u, h⟩ := h.of_codec hb hn hc
        obtain ⟨u', h'⟩ := h'.of_codec hb hn' hc
        rw [(hpure.serialize hn hc).eq v u u'] at h
        exact contentParallel_of_eq (h.trans h'.symm)
    | object o =>
      obtain ⟨o', rfl, ho⟩ := Node.eq_object_of_skeleton hskeleton
      refine (h.of_object hb hn).parallel (h'.of_object hb hn') ho hA hd
        (hasObject_of_slot hslot hnamed ?_)
      simp only [objectAt?, hn]
    | interface n | union n =>
      refine htyping hn hn' rfl ?_
      rw [← Node.typing?_skeleton, hskeleton]
      rfl
    | input n =>
      rw [Node.eq_input_of_skeleton hskeleton] at hn'
      exact hother (by simp [hn, Node.isCompletable]) (by simp [hn', Node.isCompletable])

theorem SingleEnds.parallel {r : Resolved} (h : SingleEnds L.graph A t r p d out)
    (h' : SingleEnds g A' t r p d' out') (hg : g.skeleton = L.graph.skeleton)
    (hpure : L.graph.Pure) (hA : ObjectParallel L journal A A' selections)
    (hd : Recorded L journal d) {t' : TypeRef}
    (hslot : L.slot? p = some (.typed t' selections)) (hbare : t'.bare = t)
    (ht : t.isSingle = true) : L.ContentParallel p d d' out out' := by
  cases h with
  | unexpectedList =>
    cases h'
    exact contentParallel_refl p _ _
  | value h =>
    cases h' with | value h' =>
    exact h.parallel h' hg hpure hA hd hslot hbare ht
  | typed h =>
    cases h' with | typed h' =>
    exact h.parallel h' hg hpure hA hd hslot hbare ht

theorem ListEnds.parallel {item item' : Resolved → Path → Ending} {r : Resolved}
    (h : ListEnds item t r p d out) (h' : ListEnds item' t r p d' out')
    (hd : Recorded L journal d)
    (hitem : ∀ {i r d d' out out'}, item r (p.join (.index i)) d out →
      item' r (p.join (.index i)) d' out' → Recorded L journal d →
      L.PositionParallel (p.join (.index i)) d d' out out') :
    L.ContentParallel p d d' out out' := by
  cases h with
  | expectedList hr =>
    cases h' with
    | expectedList => exact contentParallel_refl p _ _
    | items hr' => cases hr.symm.trans hr'
  | @items rs _ _ _ hr htogether =>
    cases h' with
    | expectedList hr' => cases hr.symm.trans hr'
    | items hr' htogether' =>
      cases hr.symm.trans hr'
      obtain ⟨bs, hel, hbs, rfl, rfl⟩ := branches_of_items htogether
      obtain ⟨bs', hel', hbs', rfl, rfl⟩ := branches_of_items htogether'
      refine contentParallel_of_branches hel hel' assembled_items
        (fun hlen => by simp [Json.head, hlen]) (nodup_indices rs.length) (by simp)
        fun b hb b' hb' he => ?_
      obtain ⟨i, r, hi, hr, hends⟩ := hbs b hb
      obtain ⟨i', r', hi', hr', hends'⟩ := hbs' b' hb'
      obtain rfl := PathElement.index.inj (hi.symm.trans (he.trans hi'))
      cases hr.symm.trans hr'
      rw [hi] at hends ⊢
      rw [hi'] at hends'
      exact hitem hends hends' (hd.branch hb)

theorem UnlessNull.parallel {content content' : Resolved → Path → Ending} {r : Resolved}
    (h : UnlessNull content r p d out) (h' : UnlessNull content' r p d' out')
    (hd : Recorded L journal d)
    (hcontent : ∀ {d d' out out'}, content r p d out → content' r p d' out' →
      Recorded L journal d → L.ContentParallel p d d' out out') :
    L.ContentParallel p d d' out out' := by
  cases h with
  | null =>
    cases h' with
    | null => exact contentParallel_refl p _ _
    | content hr => exact absurd rfl hr
  | content hr h =>
    cases h' with
    | null => exact absurd rfl hr
    | content _ h' => exact (hcontent h h' hd.of_event_add).add_left _

theorem Settled.parallel {marked : Bool} {label : String} {content content' : Ending}
    (h : Settled marked label p content d out) (h' : Settled marked label p content' d' out')
    (hmarked : L.Nullable p ↔ marked = false) (hd : Recorded L journal d)
    (hcontent : ∀ {d d' out out'}, content d out → content' d' out' → Recorded L journal d →
      L.ContentParallel p d d' out out') : L.PositionParallel p d d' out out' := by
  obtain ⟨c, x, hc, hs⟩ := h
  obtain ⟨c', x', hc', hs'⟩ := h'
  exact settles_parallel hs hs' hmarked
    (hcontent hc hc' ⟨hs.events ▸ hd.events, hd.layout⟩)

theorem Settled.ne_null {label : String} {content : Ending}
    (h : Settled true label p content d out) : out ≠ some .null := by
  obtain ⟨c, x, -, hs⟩ := h
  rcases hs.of_marked with ⟨-, -, rfl⟩ | ⟨hx, -, rfl⟩
  · exact nofun
  · exact hx

theorem InnerEnds.parallel {label : String} {r : Resolved}
    (h : InnerEnds L.graph A label t r p d out) (h' : InnerEnds g A' label t r p d' out')
    (hg : g.skeleton = L.graph.skeleton) (hpure : L.graph.Pure)
    (hA : ObjectParallel L journal A A' selections) (hd : Recorded L journal d) {t' : TypeRef}
    (hslot : L.slot? p = some (.typed t' selections)) (hbare : t'.bare = t.bare)
    (hmark : t.isNonNull = true → ¬ L.Nullable p) : L.ContentParallel p d d' out out' := by
  induction t using TypeRef.contentInduction generalizing r p d d' out out' t' with
  | nonNull inner ih =>
    have hn := hmark rfl
    rw [innerEnds_nonNull] at h h'
    refine h.parallel h' hd fun hin hin' hd => ?_
    refine PositionParallel.content ?_ hin.ne_null hin'.ne_null
    refine hin.parallel hin' (by simp [hn]) hd fun hin hin' hd => ?_
    exact ih hin hin' hd hslot hbare fun _ => hn
  | list item ih =>
    rw [innerEnds_list] at h h'
    refine h.parallel h' hd fun hlist hlist' hd =>
      hlist.parallel hlist' hd fun {i _ _ _ _ _} hin hin' hd => ?_
    have hitem := slot?_item hslot hbare i
    have hnullable := nullable_iff_of_slot_typed hitem
    refine Settled.parallel hin hin' hnullable hd fun hin hin' hd => ?_
    refine ih hin hin' hd hitem item.bare_unmarked.symm fun hm => ?_
    rw [hnullable, item.isNonNull_of_unmarked hm]
    simp
  | single t ht =>
    rw [innerEnds_single _ _ label ht] at h h'
    have hsame := TypeRef.bare_of_isSingle ht
    exact h.parallel h' hd fun hsingle hsingle' hd =>
      hsingle.parallel hsingle' hg hpure hA hd hslot (hbare.trans hsame) ht

theorem Ends.parallel {label : String} {r : Resolved} (h : Ends L.graph A label t r p d out)
    (h' : Ends g A' label t r p d' out') (hg : g.skeleton = L.graph.skeleton)
    (hpure : L.graph.Pure) (hA : ObjectParallel L journal A A' selections)
    (hd : Recorded L journal d) (hslot : L.slot? p = some (.typed t selections)) :
    L.PositionParallel p d d' out out' := by
  have hnullable := nullable_iff_of_slot_typed hslot
  refine Settled.parallel h h' hnullable hd fun hin hin' hd => ?_
  refine hin.parallel hin' hg hpure hA hd hslot t.bare_unmarked.symm fun hm => ?_
  rw [hnullable, t.isNonNull_of_unmarked hm]
  simp

theorem AnswerEnds.exists_some {label : String} {x : Except FieldError Resolved}
    (h : AnswerEnds g A label t p x d out) (ht : t.isNonNull = false) : ∃ v, out = some v := by
  cases h with
  | failed => exact ⟨.null, if_neg (by simp [ht])⟩
  | resolved h =>
    obtain ⟨c, y, -, hs⟩ := h
    rw [ht] at hs
    exact ⟨_, hs.of_unmarked.2⟩

theorem AnswerEnds.parallel {label : String} {x : Except FieldError Resolved}
    (h : AnswerEnds L.graph A label t p x d out) (h' : AnswerEnds g A' label t p x d' out')
    (hg : g.skeleton = L.graph.skeleton) (hpure : L.graph.Pure)
    (hA : ObjectParallel L journal A A' selections) (hd : Recorded L journal d)
    (hslot : L.slot? p = some (.typed t selections)) : L.PositionParallel p d d' out out' := by
  cases h with
  | failed =>
    cases h'
    exact positionParallel_of_eq rfl
  | resolved h =>
    cases h' with | resolved h' =>
    exact h.parallel h' hg hpure hA hd hslot

/-- Two runs part at a field that answers differently in them. -/
theorem CallEnds.parallel {label : String} {args : Except FieldError (Dict Json)}
    (h : CallEnds L.graph A label t p args d out) (h' : CallEnds g A' label t p args d' out')
    (hfootprint : Footprint p d) (hfootprint' : Footprint p d')
    (hg : g.skeleton = L.graph.skeleton) (hpure : L.graph.Pure)
    (hA : ObjectParallel L journal A A' selections) (hd : Recorded L journal d)
    (hslot : L.slot? p = some (.typed t selections)) : L.PositionParallel p d d' out out' := by
  cases h with
  | badArguments =>
    cases h'
    exact positionParallel_of_eq rfl
  | @answered _ x _ _ h =>
    cases h' with | @answered _ x' _ _ h' =>
    by_cases hx : x = x'
    · subst hx
      exact (h.parallel h' hg hpure hA hd.of_event_add hslot).add_left _
    · -- whatever either run does from here on is at or below `p`
      refine ⟨{p}, .of_ne hx hfootprint hfootprint' (mem_event_add_snd.2 (.inl rfl))
        (mem_event_add_snd.2 (.inl rfl)), ?_⟩
      have hexposed : L.Exposed {p} p := ⟨p, rfl, clear_self p⟩
      by_cases hp : L.Nullable p
      · have ht := (nullable_iff_of_slot_typed hslot).1 hp
        obtain ⟨v, rfl⟩ := h.exists_some ht
        obtain ⟨v', rfl⟩ := h'.exists_some ht
        refine .inr (.some (agree_of_exposed hp ?_ hexposed v v'))
        rintro q rfl
        exact List.prefix_rfl
      · exact .inl ⟨hp, hexposed⟩

theorem FieldEnds.parallel {s s' : Schema ω} (hs : s.graph = L.graph)
    (hskeleton : s'.graph.skeleton = s.graph.skeleton) (hpure : s.graph.Pure)
    {o o' : ObjectNode ω} (ho : o'.skeleton = o.skeleton) {source : Json} {f : SelectedField}
    (rest : List SelectedField) (h : FieldEnds s A o source f p d out)
    (h' : FieldEnds s' A' o' source f p d' out')
    (hA : ObjectParallel L journal A A' (Selection.nested (f :: rest)))
    (hF : ∀ o v p d out, A o v p d out → FootprintBelow p d)
    (hF' : ∀ o v p d out, A' o v p d out → FootprintBelow p d) (hd : Recorded L journal d)
    (hslot : L.slot? p = Slot.ofGroup o (f :: rest)) : L.PositionParallel p d d' out out' := by
  have hfields := fields_of_skeleton ho f.name
  by_cases hname : f.name = Executor.typenameField
  · refine positionParallel_of_eq ((h.of_typename hname).trans ?_)
    rw [h'.of_typename hname, name_of_skeleton ho]
  cases hf : Dict.get? o.fields f.name with
  | none =>
    rw [hf, Option.map_none, Option.map_eq_none_iff] at hfields
    refine positionParallel_of_eq ((h.of_unknown hname hf).trans ?_)
    rw [h'.of_unknown hname hfields, name_of_skeleton ho]
  | some node =>
    rw [hf] at hfields
    obtain ⟨node', hf', hnode⟩ := Option.map_eq_some_iff.1 hfields
    obtain ⟨u, hcall⟩ := h.of_node hname hf
    obtain ⟨u', hcall'⟩ := h'.of_node hname hf'
    simp only [Slot.ofGroup, if_neg hname, hf] at hslot
    have htype : node'.type = node.type := (congrArg FieldNode.type hnode :)
    have hlabel : node'.name = node.name := (congrArg FieldNode.name hnode :)
    rw [← coerceArguments_agree hskeleton hpure hnode f.arguments u u', htype, hlabel,
      name_of_skeleton ho] at hcall'
    rw [hs] at hcall hcall' hskeleton hpure
    exact hcall.parallel hcall' (h.footprint hF) (h'.footprint hF') hskeleton hpure hA hd hslot

end Rules

/-- What is selected on an object runs in parallel over graphs with the same skeleton. -/
theorem executes_parallel {s s' : Schema ω} {journal : List Event} (hs : s.graph = L.graph)
    (hskeleton : s'.graph.skeleton = s.graph.skeleton) (hpure : s.graph.Pure)
    {selections : List Selection} :
    ObjectParallel L journal (Executes s selections) (Executes s' selections) selections := by
  intro o o' v p d d' out out' ho h h'
  refine executes_induction (P := fun selections o v p d out => ∀ {o' d' out'},
    o'.skeleton = o.skeleton → Executes s' selections o' v p d' out' → Recorded L journal d →
      L.HasObject p o selections → L.ContentParallel p d d' out out') ?_ h ho h'
  intro selections o source p bs hel hbs ih o' d' out' ho h' hd hobject
  have hgroups := groupsOn_of_skeleton hskeleton ho selections
  obtain ⟨outs', htogether, rfl⟩ := executes_iff.1 h'
  obtain ⟨bs', hel', hbs', rfl, rfl⟩ := branches_of_groups htogether
  rw [hgroups] at hel' hbs' ⊢
  refine contentParallel_of_branches hel hel' (assembled_obj (Selection.distinct_collect _ _))
    (fun hlen => ?_) (nodup_keys s.graph o selections) (by simp) fun b hb b' hb' he => ?_
  · exact head_zip hlen
  · obtain ⟨key, f, rest, hkey, hgroup, hends⟩ := hbs b hb
    obtain ⟨key', fields', hkey', hgroup', hends'⟩ := hbs' b' hb'
    obtain rfl := PathElement.key.inj (hkey.symm.trans (he.trans hkey'))
    have hdistinct : Dict.Distinct (s.graph.groupsOn o selections) :=
      Selection.distinct_collect _ _
    cases (Dict.get?_of_mem hdistinct hgroup).symm.trans (Dict.get?_of_mem hdistinct hgroup')
    refine hends.parallel hs hskeleton hpure ho rest (he ▸ hkey' ▸ hends')
      (fun ho h h' => ih key f rest hgroup _ _ _ _ _ h ho h')
      (fun o v p d out => executes_footprint) (fun o v p d out => executes_footprint)
      (hd.branch hb) ?_
    rw [hkey, hobject key, ← hs, Dict.get?_of_mem hdistinct hgroup]
    rfl

/-! ## Responses -/

/-- The field at the path is asked for its value. -/
def Event.isInvocation (q : Path) : Event → Bool
  | .resolved p _ => p = q
  | _ => false

/-- The report concerns none of these paths and nothing below them. -/
def Report.IsOutside (P : Set Path) (r : Report) : Prop := ∀ q, r.path = some q → ¬ Beyond P q

/-- Away from some paths two runs of a request have the same errors, ask the same fields for their
values, and have the same data wherever none of these paths may have left null. -/
structure Isolated (L : Layout ω) (P : Set Path) (journal journal' : List Event)
    (x x' : Response) : Prop where
  errors : (x.errors : Multiset Report).filter (Report.IsOutside P) =
    (x'.errors : Multiset Report).filter (Report.IsOutside P)
  data : ∀ q, ¬ L.Concerned P q →
    (x.data.bind (·.at? q)).map Json.head = (x'.data.bind (·.at? q)).map Json.head
  invocations : ∀ q, ¬ Beyond P q →
    journal.countP (Event.isInvocation q) = journal'.countP (Event.isInvocation q)

theorem root?_of_skeleton {s s' : Schema ω} (h : s'.graph.skeleton = s.graph.skeleton)
    (operation : Operation) : (s'.root? operation).map ObjectNode.skeleton =
      (s.root? operation).map ObjectNode.skeleton := by
  have hname : s'.rootName? operation = s.rootName? operation := by
    cases operation with
    | query => exact congrArg some (congrArg Graph.query h :)
    | mutation => exact (congrArg Graph.mutation h :)
  rw [Schema.root?_eq, Schema.root?_eq, hname]
  cases s.rootName? operation with
  | none => rfl
  | some name => exact object?_of_skeleton h name

theorem Event.path_of_isInvocation {q : Path} {e : Event} (h : e.isInvocation q = true) :
    e.path = q := by
  cases e with
  | resolved p x => exact of_decide_eq_true h
  | completed | typed | serialized => cases h

theorem countP_isInvocation {P : Set Path} {q : Path} (hq : ¬ Beyond P q)
    (errors : Multiset Located) (journal : List Event) :
    journal.countP (Event.isInvocation q) =
      (Trace.outside P (errors, journal)).2.countP (Event.isInvocation q ·) := by
  rw [Trace.outside, Multiset.countP_filter]
  calc journal.countP (Event.isInvocation q)
      = (journal : Multiset Event).countP (Event.isInvocation q ·) := by simp
    _ = _ := Multiset.countP_congr rfl fun e _ =>
      propext (and_iff_left_of_imp fun he => Event.path_of_isInvocation he ▸ hq).symm

theorem Parting.isolated {P : Set Path} {p : Path} {errors errors' : List Located}
    {journal journal' : List Event} {x x' : Response}
    (h : Parting P p (errors, journal) (errors', journal'))
    (hx : x.errors = errors.map fun l => l.error.report (some l.path))
    (hx' : x'.errors = errors'.map fun l => l.error.report (some l.path))
    (hdata : ∀ q, ¬ L.Concerned P q →
      (x.data.bind (·.at? q)).map Json.head = (x'.data.bind (·.at? q)).map Json.head) :
    Isolated L P journal journal' x x' where
  errors := by
    have hreports (errors : List Located) (journal : List Event) :
        ((errors.map fun l => l.error.report (some l.path) : List Report) :
          Multiset Report).filter (Report.IsOutside P) =
          (Trace.outside P (errors, journal)).1.map fun l => l.error.report (some l.path) := by
      rw [← Multiset.map_coe, Multiset.filter_map, Trace.outside]
      refine congrArg _ (Multiset.filter_congr fun l _ => ?_)
      simp [Report.IsOutside, FieldError.report]
    rw [hx, hx', hreports errors journal, hreports errors' journal', h.outside]
  data := hdata
  invocations q hq := by
    rw [countP_isInvocation hq errors, countP_isInvocation hq errors', h.outside]

theorem answer_isolated {e e' : Executor ω} (he : e.Schedules) (he' : e'.Schedules)
    (hskeleton : e'.graph.skeleton = e.graph.skeleton) (hpure : e.graph.Pure)
    (operation : Operation) (selections : List Selection) (w w' : World ω) :
    Isolated (e.layout operation selections w)
      {p | Diverges (e.journal operation selections w) (e'.journal operation selections w') p}
      (e.journal operation selections w) (e'.journal operation selections w')
      (e.answer operation selections w).1 (e'.answer operation selections w').1 := by
  have hroots := root?_of_skeleton hskeleton operation
  cases hroot : e.schema.root? operation with
  | none =>
    rw [hroot, Option.map_none, Option.map_eq_none_iff] at hroots
    have hsame : (e.answer operation selections w).1 = (e'.answer operation selections w').1 := by
      rw [Executor.answer, Executor.answer, hroot, hroots]
    have hjournal : e.journal operation selections w = e'.journal operation selections w' := by
      rw [Executor.journal, Executor.journal, hroot, hroots]
    rw [hsame, hjournal]
    exact ⟨rfl, fun _ _ => rfl, fun _ _ => rfl⟩
  | some root =>
    rw [hroot] at hroots
    obtain ⟨root', hroot', ho⟩ := Option.map_eq_some_iff.1 hroots
    obtain ⟨errors, out, hends, hdata, herrors⟩ := answer_ends he hroot selections w
    obtain ⟨errors', out', hends', hdata', herrors'⟩ := answer_ends he' hroot' selections w'
    have hcontent := executes_parallel rfl hskeleton hpure ho hends hends'
      (recorded_root he hroot selections w errors) (hasObject_root hroot selections w)
    have hnullable := nullable_root hroot selections w
    obtain ⟨P, hP, hagree⟩ := hcontent.positionParallel hnullable
    rw [← hP.eq_diverges (executes_footprint hends).toFootprint]
    refine hP.isolated herrors herrors' fun q hq => ?_
    rw [hdata, hdata']
    cases hagree.resolve_left fun h => h.1 hnullable with
    | some hagree => exact hagree q hq

/-- Whatever the fields of two graphs with the same skeleton answer, whatever state each run starts
from, and in whatever order siblings and items go on in each, a field that answers differently is
isolated. -/
theorem execute_isolated (s s' : Schema ω) (hskeleton : s'.graph.skeleton = s.graph.skeleton)
    (hpure : s.graph.Pure) (operation : Operation) (selections : List Selection) (w w' : World ω) :
    Isolated (s.layout operation selections w)
      {p | Diverges (s.journal operation selections w) (s'.journal operation selections w') p}
      (s.journal operation selections w) (s'.journal operation selections w')
      (s.execute operation selections w).1 (s'.execute operation selections w').1 ∧
    ∀ e e' : Executor ω, e.schema = s → e'.schema = s' → e.Schedules → e'.Schedules →
      Isolated (e.layout operation selections w)
        {p | Diverges (e.journal operation selections w) (e'.journal operation selections w') p}
        (e.journal operation selections w) (e'.journal operation selections w')
        (e.answer operation selections w).1 (e'.answer operation selections w').1 := by
  constructor
  · rw [s.execute_eq_answer, s'.execute_eq_answer]
    exact answer_isolated (schedules_forOperation s operation) (schedules_forOperation s' operation)
      hskeleton hpure operation selections w w'
  · rintro e e' rfl rfl he he'
    exact answer_isolated he he' hskeleton hpure operation selections w w'

/-- A query for a greeting, which a method gives. -/
def greetings (method : Method Unit) : Schema Unit where
  graph := {
    nodes := [("Query", .object {
      name := "Query"
      description := none
      fields := [("greeting", {
        name := "greeting"
        description := none
        type := .string
        arguments := []
        source := .method {
          name := "greeting"
          field := { typeName := "String", nullable := true }
          instanceToken := ⟨"Greetings"⟩
          parameters := []
          bindings := []
          method } [] })]
      implements := [] })]
    query := "Query"
    mutation := none }
  registry := ⟨[⟨⟨"Greetings"⟩, .value ⟨0, .held "Greetings" .null⟩⟩]⟩
  configuration := {}

/-- The greeting fails in one of two runs, the name of the type is the same in both. One of the runs
may go on item by item. -/
theorem greetings_isolated :
    let s := greetings fun _ _ => pure (.ok (.value (.str "hello")))
    let s' := greetings fun _ _ => pure (.error "nothing to say")
    let selections := [.field "greeting" none [] [], .field "__typename" none [] []]
    let w : World Unit := ⟨{}, [], ()⟩
    s'.graph.skeleton = s.graph.skeleton ∧ s.graph.Pure ∧
      Isolated (s.layout .query selections w)
        {p | Diverges (s.journal .query selections w) (s'.journal .query selections w) p}
        (s.journal .query selections w) (s'.journal .query selections w)
        (s.execute .query selections w).1 (s'.execute .query selections w).1 ∧
      let e := Executor.forOperation s .query
      let e' := Executor.itemByItem s'
      e.Schedules ∧ e'.Schedules ∧
        Isolated (e.layout .query selections w)
          {p | Diverges (e.journal .query selections w) (e'.journal .query selections w) p}
          (e.journal .query selections w) (e'.journal .query selections w)
          (e.answer .query selections w).1 (e'.answer .query selections w).1 := by
  intro s s' selections w
  have hskeleton : s'.graph.skeleton = s.graph.skeleton := rfl
  have hobject {name : String} {n : Node Unit} (hn : s.graph.node? name = some n) :
      ∃ o, n = .object o :=
    ⟨_, (Prod.mk.inj (List.mem_singleton.1 (Dict.mem_of_get? hn))).2⟩
  have hpure : s.graph.Pure := by
    refine ⟨fun hn => ?_, fun hn => ?_, fun hn hy => ?_⟩
    · cases (hobject hn).choose_spec
    · cases (hobject hn).choose_spec
    · obtain ⟨o, rfl⟩ := hobject hn
      cases hy
  have he := schedules_forOperation s .query
  have he' := schedules_itemByItem s'
  obtain ⟨hexecute, hall⟩ := execute_isolated s s' hskeleton hpure .query selections w w
  exact ⟨hskeleton, hpure, hexecute, he, he', hall _ _ rfl rfl he he'⟩

end GraphAssembly
