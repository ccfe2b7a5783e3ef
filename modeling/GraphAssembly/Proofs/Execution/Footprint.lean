import GraphAssembly.Proofs.Execution.Branches

/-!
# Where errors and events are

Whatever is recorded while a position is completed concerns that position or one below it, so what
is recorded at one of several positions next to each other is never mixed up with what is recorded
at another. The object type of a value is found at most once, and its field resolved at most once.

1. `Footprint`, and how footprints are put together.
2. The footprints of the rules, and `executes_footprint`.
-/

namespace GraphAssembly

variable {ω : Type}

/-! ## Footprints -/

/-- Everything recorded is at the position or below it. For each position at most one object type
is found, and its field is resolved at most once. -/
structure Footprint (p : Path) (d : Trace) : Prop where
  errors : ∀ l ∈ d.1, p <+: l.path
  events : ∀ e ∈ d.2, p <+: e.path
  typed : ∀ {q a b}, .typed q a ∈ d.2 → .typed q b ∈ d.2 → a = b
  resolved : ∀ {q a b}, .resolved q a ∈ d.2 → .resolved q b ∈ d.2 → a = b

/-- The footprint of a value: its field has been resolved before. -/
structure ContentFootprint (p : Path) (d : Trace) : Prop extends Footprint p d where
  unresolved : ∀ a, .resolved p a ∉ d.2

/-- The footprint of what stands below a position. -/
structure FootprintBelow (p : Path) (d : Trace) : Prop extends Footprint p d where
  below : ∀ e ∈ d.2, e.path ≠ p

theorem FootprintBelow.content {p : Path} {d : Trace} (h : FootprintBelow p d) :
    ContentFootprint p d := ⟨h.toFootprint, fun _ ha => h.below _ ha rfl⟩

theorem footprint_error (e : FieldError) (p : Path) : FootprintBelow p (.error e p) := by
  constructor
  · constructor <;> simp
  · simp

theorem footprintBelow_zero (p : Path) : FootprintBelow p 0 := by
  constructor
  · constructor <;> simp
  · simp

theorem footprint_branches {p : Path} {bs : List Branch} (hnodup : (bs.map Branch.element).Nodup)
    (h : ∀ b ∈ bs, Footprint (p.join b.element) b.trace) :
    FootprintBelow p (bs.map Branch.trace).sum := by
  have same : ∀ b ∈ bs, ∀ b' ∈ bs, ∀ e ∈ b.trace.2, ∀ e' ∈ b'.trace.2, e.path = e'.path →
      b = b' := by
    intro b hb b' hb' e he e' he' hpath
    refine List.inj_on_of_nodup_map hnodup hb hb' ?_
    exact Path.eq_of_join_prefix ((h b hb).events e he) (hpath ▸ (h b' hb').events e' he')
  refine ⟨⟨fun l hl => ?_, fun e he => ?_, fun {q a b} ha hb => ?_, fun {q a b} ha hb => ?_⟩,
    fun e he => ?_⟩
  all_goals simp only [mem_sum_fst, mem_sum_snd, List.mem_map, exists_exists_and_eq_and] at *
  · obtain ⟨b, hb, hl⟩ := hl
    exact Path.prefix_of_join_prefix ((h b hb).errors l hl)
  · obtain ⟨b, hb, he⟩ := he
    exact Path.prefix_of_join_prefix ((h b hb).events e he)
  · obtain ⟨x, hx, ha⟩ := ha
    obtain ⟨y, hy, hb⟩ := hb
    obtain rfl := same x hx y hy _ ha _ hb rfl
    exact (h x hx).typed ha hb
  · obtain ⟨x, hx, ha⟩ := ha
    obtain ⟨y, hy, hb⟩ := hb
    obtain rfl := same x hx y hy _ ha _ hb rfl
    exact (h x hx).resolved ha hb
  · obtain ⟨b, hb, he⟩ := he
    exact Path.ne_of_join_prefix ((h b hb).events e he)

theorem mem_event_add_snd {x e : Event} {d : Trace} :
    x ∈ (Trace.event e + d).2 ↔ x = e ∨ x ∈ d.2 := by
  rw [Prod.snd_add, Multiset.mem_add, mem_event_snd]

/-- One event more at the position, of a kind that has not been there. -/
theorem Footprint.event_add {p : Path} {d : Trace} (h : Footprint p d) {e : Event}
    (hp : e.path = p) (ht : ∀ a, e = .typed p a → ∀ b, .typed p b ∉ d.2)
    (hr : ∀ a, e = .resolved p a → ∀ b, .resolved p b ∉ d.2) : Footprint p (.event e + d) := by
  constructor
  · intro l hl
    rw [Prod.fst_add, Multiset.mem_add] at hl
    exact h.errors l (hl.resolve_left mem_event_fst)
  · intro x hx
    rcases mem_event_add_snd.1 hx with rfl | hx
    · exact hp ▸ List.prefix_rfl
    · exact h.events x hx
  · intro q a b ha hb
    rcases mem_event_add_snd.1 ha with ha' | ha' <;> rcases mem_event_add_snd.1 hb with hb' | hb'
    · exact (Event.typed.inj (ha'.trans hb'.symm)).2
    · obtain rfl : q = p := by rw [← hp, ← ha']; rfl
      exact absurd hb' (ht a ha'.symm b)
    · obtain rfl : q = p := by rw [← hp, ← hb']; rfl
      exact absurd ha' (ht b hb'.symm a)
    · exact h.typed ha' hb'
  · intro q a b ha hb
    rcases mem_event_add_snd.1 ha with ha' | ha' <;> rcases mem_event_add_snd.1 hb with hb' | hb'
    · exact (Event.resolved.inj (ha'.trans hb'.symm)).2
    · obtain rfl : q = p := by rw [← hp, ← ha']; rfl
      exact absurd hb' (hr a ha'.symm b)
    · obtain rfl : q = p := by rw [← hp, ← hb']; rfl
      exact absurd ha' (hr b hb'.symm a)
    · exact h.resolved ha' hb'

theorem ContentFootprint.event_add {p : Path} {d : Trace} (h : ContentFootprint p d) {e : Event}
    (hp : e.path = p) (ht : ∀ a, e = .typed p a → ∀ b, .typed p b ∉ d.2)
    (hr : ∀ a, e ≠ .resolved p a) : ContentFootprint p (.event e + d) where
  toFootprint := h.toFootprint.event_add hp ht fun a ha => absurd ha (hr a)
  unresolved a ha := by
    rcases mem_event_add_snd.1 ha with ha | ha
    · exact hr a ha.symm
    · exact h.unresolved a ha

/-- One error more at the position. -/
theorem ContentFootprint.add_error {p : Path} {d : Trace} (h : ContentFootprint p d)
    (e : FieldError) : ContentFootprint p (d + .error e p) := by
  have hsnd : (d + Trace.error e p).2 = d.2 := by
    rw [Prod.snd_add]
    exact add_zero _
  refine ⟨⟨fun l hl => ?_, ?_, ?_, ?_⟩, ?_⟩
  · rw [Prod.fst_add, Multiset.mem_add, mem_error_fst] at hl
    rcases hl with hl | rfl
    · exact h.errors l hl
    · exact List.prefix_rfl
  all_goals rw [hsnd]
  · exact h.events
  · exact h.typed
  · exact h.resolved
  · exact h.unresolved

/-! ## Footprints of the rules -/

section Rules

variable {g : Graph ω} {A : ObjectEnding ω} {t : TypeRef} {p : Path} {d : Trace} {out : Outcome}

theorem ObjectEnds.footprint (hA : ∀ o v d out, A o v p d out → FootprintBelow p d)
    {o : ObjectNode ω} {v : Json} (h : ObjectEnds A o v p d out) : FootprintBelow p d := by
  cases h with
  | notObject => exact footprint_error _ p
  | object _ ho => exact hA _ _ _ _ ho

theorem NamedEnds.footprint (hA : ∀ o v d out, A o v p d out → FootprintBelow p d)
    {static : Option String} {v : Json} (h : NamedEnds g A t static v p d out) :
    ContentFootprint p d := by
  cases h with
  | builtin => exact (footprintBelow_zero p).content
  | notBuiltin | refused | untyped | notOutputType => exact (footprint_error _ p).content
  | @serialized _ _ w =>
    rw [← add_zero (Trace.event _)]
    exact (footprintBelow_zero p).content.event_add rfl (by simp) (by simp)
  | object _ _ ho => exact (ho.footprint hA).content
  | typed _ _ _ _ _ ho =>
    have := ho.footprint hA
    exact this.content.event_add rfl (fun _ _ b hb => this.below _ hb rfl) (by simp)
  | notObjectType =>
    exact (footprint_error _ p).content.event_add rfl (by simp) (by simp)

theorem SingleEnds.footprint (hA : ∀ o v p d out, A o v p d out → FootprintBelow p d)
    {r : Resolved} (h : SingleEnds g A t r p d out) : ContentFootprint p d := by
  cases h with
  | unexpectedList => exact (footprint_error _ p).content
  | value h => exact h.footprint fun o v => hA o v p
  | typed h => exact h.footprint fun o v => hA o v p

theorem ListEnds.footprint {item : Resolved → Path → Ending} {r : Resolved}
    (hitem : ∀ r p d out, item r p d out → ContentFootprint p d)
    (h : ListEnds item t r p d out) : ContentFootprint p d := by
  cases h with
  | expectedList => exact (footprint_error _ p).content
  | items _ hd =>
    obtain ⟨bs, hel, hbs, rfl, rfl⟩ := branches_of_items hd
    refine (footprint_branches (hel ▸ nodup_indices _) fun b hb => ?_).content
    obtain ⟨_, _, _, _, hitem'⟩ := hbs b hb
    exact (hitem _ _ _ _ hitem').toFootprint

theorem UnlessNull.footprint {content : Resolved → Path → Ending} {r : Resolved}
    (hc : ∀ d out, content r p d out → ContentFootprint p d)
    (h : UnlessNull content r p d out) : ContentFootprint p d := by
  cases h with
  | null =>
    rw [← add_zero (Trace.event _)]
    exact (footprintBelow_zero p).content.event_add rfl (by simp) (by simp)
  | content _ hd => exact (hc _ _ hd).event_add rfl (by simp) (by simp)

theorem Settles.events {label : String} {d d' : Trace} {marked : Bool} {out out' : Outcome}
    (hs : Settles label p d' marked out' d out) : d.2 = d'.2 := by
  cases hs with
  | null =>
    rw [Prod.snd_add]
    exact add_zero _
  | missing | value | absorbed | kept => rfl

theorem Settled.footprint {marked : Bool} {label : String} {content : Ending}
    (hc : ∀ d out, content d out → ContentFootprint p d)
    (h : Settled marked label p content d out) : ContentFootprint p d := by
  obtain ⟨d', out', hd, hs⟩ := h
  cases hs with
  | null => exact (hc _ _ hd).add_error _
  | missing | value | absorbed | kept => exact hc _ _ hd

theorem InnerEnds.footprint (hA : ∀ o v p d out, A o v p d out → FootprintBelow p d)
    {label : String} {r : Resolved} (h : InnerEnds g A label t r p d out) :
    ContentFootprint p d := by
  induction t using TypeRef.contentInduction generalizing r p d out with
  | nonNull inner ih =>
    exact UnlessNull.footprint (fun _ _ => Settled.footprint fun _ _ => ih) h
  | list item ih =>
    rw [innerEnds_list] at h
    exact h.footprint fun _ _ =>
      ListEnds.footprint fun _ _ _ _ => Settled.footprint fun _ _ => ih
  | single t ht =>
    rw [innerEnds_single g A label ht] at h
    exact h.footprint fun _ _ => SingleEnds.footprint hA

theorem Ends.footprint (hA : ∀ o v p d out, A o v p d out → FootprintBelow p d)
    {label : String} {r : Resolved} (h : Ends g A label t r p d out) : ContentFootprint p d :=
  Settled.footprint (fun _ _ => InnerEnds.footprint hA) h

theorem FieldEnds.footprint {s : Schema ω}
    (hA : ∀ o v p d out, A o v p d out → FootprintBelow p d) {o : ObjectNode ω} {source : Json}
    {f : SelectedField} (h : FieldEnds s A o source f p d out) : Footprint p d := by
  cases h with
  | typename => exact (footprintBelow_zero p).toFootprint
  | unknown | badArguments => exact (footprint_error _ p).toFootprint
  | failed =>
    exact (footprint_error _ p).toFootprint.event_add rfl (by simp) (by simp)
  | resolved _ _ _ _ hd =>
    have := Ends.footprint hA hd
    exact this.toFootprint.event_add rfl (by simp) fun _ _ b => this.unresolved b

end Rules

theorem executes_footprint {s : Schema ω} {selections : List Selection} {o : ObjectNode ω}
    {source : Json} {p : Path} {d : Trace} {out : Outcome}
    (h : Executes s selections o source p d out) : FootprintBelow p d := by
  refine executes_induction (P := fun _ _ _ p d _ => FootprintBelow p d) ?_ h
  intro selections o source p bs hel hbs ih
  refine footprint_branches (hel ▸ nodup_keys ..) fun b hb => ?_
  obtain ⟨key, f, rest, _, hgroup, hfield⟩ := hbs b hb
  exact hfield.footprint (ih key f rest hgroup)

end GraphAssembly
