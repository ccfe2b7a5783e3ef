import GraphAssembly.Proofs.Execution.Congruence
import GraphAssembly.Proofs.Execution.Requests
import Mathlib.Data.Multiset.Pairwise

/-!
# Errors apart from each other

A position that fails has one error, at the position or somewhere below it. So no error of a
response stands at the position of another one, or above or below it.

1. Paths and errors `Apart`.
2. The rules keep errors apart, and a value that is null has left none.
3. The statement about responses.
-/

namespace GraphAssembly

variable {ω : Type}

/-! ## Paths and errors -/

/-- Neither of the two positions is at or above the other one. -/
def Path.Apart (p q : Path) : Prop := ¬ p <+: q ∧ ¬ q <+: p

instance : Std.Symm fun l l' : Located => l.path.Apart l'.path := ⟨fun _ _ h => ⟨h.2, h.1⟩⟩

/-- What is below one of two positions next to each other is apart from what is below the other. -/
theorem Path.apart_of_join_prefix {p q q' : Path} {e e' : PathElement} (he : e ≠ e')
    (h : p.join e <+: q) (h' : p.join e' <+: q') : q.Apart q' :=
  ⟨fun hq => he <| eq_of_join_prefix (h.trans hq) h',
    fun hq => he <| eq_of_join_prefix h (h'.trans hq)⟩

/-- All errors of the trace are apart from each other. -/
def Trace.Apart (d : Trace) : Prop := d.1.Pairwise fun l l' => l.path.Apart l'.path

theorem Trace.apart_of_eq_zero {d : Trace} (h : d.1 = 0) : d.Apart := by
  rw [Trace.Apart, h]
  exact Multiset.pairwise_zero _

theorem Trace.apart_error (e : FieldError) (p : Path) : (Trace.error e p).Apart :=
  ⟨[⟨e, p⟩], rfl, List.pairwise_singleton _ _⟩

theorem Trace.Apart.add {d d' : Trace} (h : d.Apart) (h' : d'.Apart)
    (hcross : ∀ l ∈ d.1, ∀ l' ∈ d'.1, l.path.Apart l'.path) : (d + d').Apart := by
  obtain ⟨ls, hls, h⟩ := h
  obtain ⟨ls', hls', h'⟩ := h'
  refine ⟨ls ++ ls', ?_, List.pairwise_append.2 ⟨h, h', fun l hl l' hl' => hcross l ?_ l' ?_⟩⟩
  · rw [Prod.fst_add, hls, hls', Multiset.coe_add]
  · rwa [hls, Multiset.mem_coe]
  · rwa [hls', Multiset.mem_coe]

theorem Trace.Apart.event_add {d : Trace} (h : d.Apart) (e : Event) :
    (Trace.event e + d).Apart := by
  rwa [Trace.Apart, event_add_fst]

theorem apart_branches {p : Path} {bs : List Branch} (hnodup : (bs.map Branch.element).Nodup)
    (hbelow : ∀ b ∈ bs, ∀ l ∈ b.trace.1, p.join b.element <+: l.path)
    (h : ∀ b ∈ bs, b.trace.Apart) : (bs.map Branch.trace).sum.Apart := by
  induction bs with
  | nil => exact Trace.apart_of_eq_zero rfl
  | cons b bs ih =>
    obtain ⟨hb, hnodup⟩ := List.nodup_cons.1 hnodup
    have hrest := ih hnodup (fun b hb => hbelow b (List.mem_cons_of_mem _ hb))
      fun b hb => h b (List.mem_cons_of_mem _ hb)
    refine (h b List.mem_cons_self).add hrest fun l hl l' hl' => ?_
    obtain ⟨_, hd, hl'⟩ := mem_sum_fst.1 hl'
    obtain ⟨b', hb', rfl⟩ := List.mem_map.1 hd
    have hne : b.element ≠ b'.element := fun he => hb (he ▸ List.mem_map_of_mem hb')
    exact Path.apart_of_join_prefix hne (hbelow b List.mem_cons_self l hl)
      (hbelow b' (List.mem_cons_of_mem _ hb') l' hl')

/-! ## The rules -/

/-- The content of a position keeps its errors apart, and if it is null there are none. -/
structure ContentApart (d : Trace) (out : Outcome) : Prop where
  apart : d.Apart
  clean : out = some .null → d.1 = 0

theorem contentApart_error (e : FieldError) (p : Path) : ContentApart (.error e p) none :=
  ⟨Trace.apart_error e p, nofun⟩

theorem contentApart_of_eq_zero {d : Trace} (h : d.1 = 0) (out : Outcome) : ContentApart d out :=
  ⟨Trace.apart_of_eq_zero h, fun _ => h⟩

theorem ContentApart.event_add {d : Trace} {out : Outcome} (h : ContentApart d out) (e : Event) :
    ContentApart (.event e + d) out :=
  ⟨h.apart.event_add e, fun hout => (event_add_fst e d).trans (h.clean hout)⟩

section Rules

variable {g : Graph ω} {A : ObjectEnding ω} {t : TypeRef} {p : Path} {d : Trace} {out : Outcome}

theorem ObjectEnds.apart (hA : ∀ o v d out, A o v p d out → ContentApart d out)
    {o : ObjectNode ω} {v : Json} (h : ObjectEnds A o v p d out) : ContentApart d out := by
  cases h with
  | notObject => exact contentApart_error _ p
  | object _ ho => exact hA _ _ _ _ ho

theorem NamedEnds.apart (hA : ∀ o v d out, A o v p d out → ContentApart d out)
    {static : Option String} {v : Json} (h : NamedEnds g A t static v p d out) :
    ContentApart d out := by
  cases h with
  | builtin | serialized => exact contentApart_of_eq_zero rfl _
  | notBuiltin | refused | untyped | notOutputType => exact contentApart_error _ p
  | object _ _ ho => exact ho.apart hA
  | typed _ _ _ _ _ ho => exact (ho.apart hA).event_add _
  | notObjectType => exact (contentApart_error _ p).event_add _

theorem SingleEnds.apart (hA : ∀ o v p d out, A o v p d out → ContentApart d out)
    {r : Resolved} (h : SingleEnds g A t r p d out) : ContentApart d out := by
  cases h with
  | unexpectedList => exact contentApart_error _ p
  | value h | typed h => exact h.apart fun o v => hA o v p

theorem ListEnds.apart {item : Resolved → Path → Ending} {r : Resolved}
    (hbelow : ∀ r p d out, item r p d out → ∀ l ∈ d.1, p <+: l.path)
    (hitem : ∀ r p d out, item r p d out → d.Apart) (h : ListEnds item t r p d out) :
    ContentApart d out := by
  cases h with
  | expectedList => exact contentApart_error _ p
  | items _ hd =>
    obtain ⟨bs, hel, hbs, rfl, rfl⟩ := branches_of_items hd
    refine ⟨?_, by simp⟩
    refine apart_branches (p := p) (hel ▸ nodup_indices _) (fun b hb => ?_) fun b hb => ?_
    · obtain ⟨_, _, _, _, h⟩ := hbs b hb
      exact hbelow _ _ _ _ h
    · obtain ⟨_, _, _, _, h⟩ := hbs b hb
      exact hitem _ _ _ _ h

theorem UnlessNull.apart {content : Resolved → Path → Ending} {r : Resolved}
    (hc : ∀ d out, content r p d out → ContentApart d out) (h : UnlessNull content r p d out) :
    ContentApart d out := by
  cases h with
  | null => exact contentApart_of_eq_zero rfl _
  | content _ hd => exact (hc _ _ hd).event_add _

/-- A null that must not be is the only error of its position. -/
theorem Settled.apart {marked : Bool} {label : String} {content : Ending}
    (hc : ∀ d out, content d out → ContentApart d out) (h : Settled marked label p content d out) :
    d.Apart ∧ (marked = true → out ≠ some .null) := by
  obtain ⟨d', out', hd, hs⟩ := h
  have hd' := hc _ _ hd
  cases hs with
  | null =>
    have hclean : d'.1 = 0 := hd'.clean rfl
    refine ⟨?_, by simp⟩
    rw [Trace.Apart, Prod.fst_add, hclean, zero_add]
    exact Trace.apart_error _ p
  | missing => exact ⟨hd'.apart, by simp⟩
  | value hv => exact ⟨hd'.apart, by simpa using hv⟩
  | absorbed | kept => exact ⟨hd'.apart, by simp⟩

theorem InnerEnds.apart (hA : ∀ o v p d out, A o v p d out → ContentApart d out)
    (hF : ∀ o v p d out, A o v p d out → FootprintBelow p d) {label : String} {r : Resolved}
    (h : InnerEnds g A label t r p d out) : ContentApart d out := by
  induction t using TypeRef.contentInduction generalizing r p d out with
  | nonNull inner ih =>
    refine UnlessNull.apart (fun d out hs => ?_) h
    obtain ⟨hapart, hnull⟩ := Settled.apart (fun _ _ => ih) hs
    exact ⟨hapart, fun hout => absurd hout (hnull rfl)⟩
  | list item ih =>
    rw [innerEnds_list] at h
    refine h.apart fun _ _ => ListEnds.apart (fun _ _ _ _ hitem => ?_) fun _ _ _ _ hitem => ?_
    · exact (Ends.footprint hF hitem).errors
    · exact (Settled.apart (fun _ _ => ih) hitem).1
  | single t ht =>
    rw [innerEnds_single g A label ht] at h
    exact h.apart fun _ _ => SingleEnds.apart hA

theorem FieldEnds.apart {s : Schema ω} (hA : ∀ o v p d out, A o v p d out → ContentApart d out)
    (hF : ∀ o v p d out, A o v p d out → FootprintBelow p d) {o : ObjectNode ω} {source : Json}
    {f : SelectedField} (h : FieldEnds s A o source f p d out) : d.Apart := by
  cases h with
  | typename => exact Trace.apart_of_eq_zero rfl
  | unknown | badArguments => exact Trace.apart_error _ p
  | failed => exact (Trace.apart_error _ p).event_add _
  | resolved _ _ _ _ hd =>
    exact (Settled.apart (fun _ _ => InnerEnds.apart hA hF) hd).1.event_add _

end Rules

/-- The errors of what is selected on an object are below it, and apart from each other. -/
theorem executes_apart {s : Schema ω} {selections : List Selection} {o : ObjectNode ω}
    {source : Json} {p : Path} {d : Trace} {out : Outcome}
    (h : Executes s selections o source p d out) :
    ContentApart d out ∧ ∀ l ∈ d.1, l.path ≠ p := by
  refine executes_induction
    (P := fun _ _ _ p d out => ContentApart d out ∧ ∀ l ∈ d.1, l.path ≠ p) ?_ h
  intro selections o source p bs hel hbs ih
  have hbelow : ∀ b ∈ bs, ∀ l ∈ b.trace.1, p.join b.element <+: l.path := fun b hb => by
    obtain ⟨key, f, rest, _, hgroup, hfield⟩ := hbs b hb
    exact (hfield.footprint fun _ _ _ _ _ => executes_footprint).errors
  refine ⟨⟨apart_branches (hel ▸ nodup_keys ..) hbelow fun b hb => ?_, ?_⟩, fun l hl => ?_⟩
  · obtain ⟨key, f, rest, _, hgroup, hfield⟩ := hbs b hb
    exact hfield.apart (fun o v p d out h => (ih key f rest hgroup o v p d out h).1)
      fun _ _ _ _ _ => executes_footprint
  · simp [Executor.assembleObject]
  · obtain ⟨_, hd, hl⟩ := mem_sum_fst.1 hl
    obtain ⟨b, hb, rfl⟩ := List.mem_map.1 hd
    exact Path.ne_of_join_prefix (hbelow b hb l hl)

/-! ## Responses -/

/-- All errors have paths that are not empty, and no path leads to another one or further. -/
structure ErrorsApart (errors : List Report) : Prop where
  located : ∀ report ∈ errors, ∃ p, report.path = some p ∧ p ≠ []
  apart : errors.Pairwise fun report report' => ∀ p p', report.path = some p →
    report'.path = some p' → p.Apart p'

theorem runWith_errorsApart {e : Executor ω} (he : e.Schedules) (root : ObjectNode ω)
    (selections : List Selection) (w : World ω) :
    let run := Schema.runWith e root selections w
    ErrorsApart (Schema.respond run.1 run.2).errors := by
  intro run
  obtain ⟨⟨hapart, -⟩, hbelow⟩ := executes_apart (runWith_ends he root selections w)
  have hapart : run.2.errors.Pairwise fun l l' => l.path.Apart l'.path :=
    Multiset.pairwise_coe_iff_pairwise.1 hapart
  refine ⟨fun report hreport => ?_, List.pairwise_map.2 (hapart.imp ?_)⟩
  · obtain ⟨l, hl, rfl⟩ := List.mem_map.1 hreport
    exact ⟨l.path, rfl, hbelow l (Multiset.mem_coe.2 hl)⟩
  · rintro l l' h p p' ⟨⟩ ⟨⟩
    exact h

/-- The errors of a response are apart from each other, however the request is executed: with or
without concurrency, and in whatever order siblings and items go on. -/
theorem execute_errorsApart {s : Schema ω} {operation : Operation} {root : ObjectNode ω}
    (hroot : s.root? operation = some root) (selections : List Selection) (w : World ω) :
    ErrorsApart (s.execute operation selections w).1.errors ∧
      ∀ e : Executor ω, e.schema = s → Routine.Scheduling e.siblings → Routine.Scheduling e.items →
        let run := Schema.runWith e root selections w
        ErrorsApart (Schema.respond run.1 run.2).errors := by
  constructor
  · rw [Schema.execute_of_root hroot]
    exact runWith_errorsApart (schedules_forOperation s operation) root selections w
  · rintro e - hsiblings hitems
    exact runWith_errorsApart ⟨hsiblings, hitems⟩ root selections w

section Team

/-- A team whose captain must have a name, and whose scores must be whole numbers. -/
def team : Schema Unit where
  graph := .ofQuery [
    ("captain", {
      name := "captain"
      description := none
      type := .nonNull .string
      arguments := []
      source := .property }),
    ("scores", {
      name := "scores"
      description := none
      type := .list (.nonNull .int)
      arguments := []
      source := .method {
        name := "scores"
        field := { typeName := "Int", list := true }
        instanceToken := ⟨"Team"⟩
        parameters := []
        bindings := []
        method := fun _ _ => pure (.ok (.list [.value (.str "none"), .null])) } [] })]
  registry := ⟨[⟨⟨"Team"⟩, .value ⟨0, .held "Team" .null⟩⟩]⟩
  configuration := {}

/-- The captain has no name, and no score is a number. -/
theorem team_errorsApart : ∃ root, team.root? .query = some root ∧
    let selections := [.field "captain" none [] [], .field "scores" none [] []]
    let w : World Unit := ⟨{}, [], ()⟩
    ErrorsApart (team.execute .query selections w).1.errors ∧
      ∀ e : Executor Unit, e.schema = team → Routine.Scheduling e.siblings →
        Routine.Scheduling e.items →
          let run := Schema.runWith e root selections w
          ErrorsApart (Schema.respond run.1 run.2).errors := by
  obtain ⟨root, hroot⟩ : ∃ root, team.root? .query = some root := ⟨_, rfl⟩
  exact ⟨root, hroot, execute_errorsApart hroot _ _⟩

end Team

end GraphAssembly
