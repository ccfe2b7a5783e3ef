import GraphAssembly.Proofs.Execution.Rules

/-!
# Executions end by the rules

Each step of an execution leaves what its rule says, whatever the fields answer, and in whatever
order siblings and items go on, as long as the joins are transparent.

1. Errors, events, and the code behind the fields.
2. Completion.
3. Fields and selections.
4. Runs.
-/

namespace GraphAssembly

open Routine

/-! ## Errors, events, and the code behind the fields -/

variable {ω : Type} {e : Executor ω} {Q : Ending}

theorem trace_record (e : FieldError) (p : Path) (s : Run ω) :
    Run.trace { s with errors := s.errors ++ [⟨e, p⟩] } = s.trace + .error e p := by
  simp [Run.trace, Trace.error, ← Multiset.coe_add]

theorem trace_note (e : Event) (s : Run ω) :
    Run.trace { s with journal := e :: s.journal } = s.trace + .event e := by
  simp [Run.trace, Trace.event, ← Multiset.cons_coe, ← Multiset.singleton_add, add_comm]

theorem leaves_record (e : FieldError) (p : Path) :
    Leaves (Run.trace (ω := ω)) (fun d _ => d = .error e p) (Run.record e p) :=
  leaves_modify (trace_record e p) rfl

theorem leaves_note (e : Event) :
    Leaves (Run.trace (ω := ω)) (fun d _ => d = .event e) (Run.note e) :=
  leaves_modify (trace_note e) rfl

theorem leaves_fail {e : FieldError} {p : Path} (h : Q (.error e p) none) :
    Leaves (Run.trace (ω := ω)) Q (Run.fail e p) := by
  refine leaves_bind (leaves_record e p) fun d _ hd => leaves_pure ?_
  rw [hd, add_zero]
  exact h

/-- An event before what follows it. -/
theorem leaves_note_bind {α : Type} {Q : Trace → α → Prop} {e : Event} {r : Routine (Run ω) α}
    (hr : Leaves Run.trace (fun d a => Q (.event e + d) a) r) :
    Leaves Run.trace Q (do Run.note e; r) := by
  refine leaves_bind (leaves_note e) fun d _ hd => ?_
  subst hd
  exact hr

theorem leaves_inWorld {α : Type} {Q : Trace → α → Prop} {r : Routine (World ω) α}
    (h : ∀ a, Returns r a → Q 0 a) : Leaves Run.trace Q (Run.inWorld r) := by
  have hu (w : World ω) (s : Run ω) : (Run.withWorld w s).trace = s.trace := rfl
  exact leaves_zoom hu h

theorem leaves_inUser {α : Type} {Q : Trace → α → Prop} {m : StateM ω α}
    (h : ∀ a, (∃ u, (m u).1 = a) → Q 0 a) : Leaves Run.trace Q (Run.inUser m) :=
  leaves_inWorld fun a ha => h a (returns_ofState (returns_zoom ha))

theorem leaves_inScope {α : Type} {Q : Trace → α → Prop} {m : StateM (Scope ω) α}
    (h : ∀ a, (∃ c, (m c).1 = a) → Q 0 a) : Leaves Run.trace Q (Run.inScope m) :=
  leaves_inWorld fun a ha => h a (returns_ofState (returns_zoom ha))

/-! ## Completion -/

theorem leaves_required {content : Ending} {r : Routine (Run ω) Outcome} (label : String)
    (p : Path) (hr : Leaves Run.trace content r) :
    Leaves Run.trace (Settled true label p content) (Executor.required label p r) := by
  refine leaves_bind hr fun d out hd => ?_
  rcases out with _ | v
  · exact leaves_pure ⟨d, none, hd, by rw [add_zero]; exact .missing⟩
  · show Leaves _ _ (if v.isNull then _ else _)
    split
    · rename_i hv
      obtain rfl := Json.isNull_eq_true.1 hv
      exact leaves_fail ⟨d, _, hd, .null⟩
    · rename_i hv
      refine leaves_pure ⟨d, some v, hd, ?_⟩
      rw [add_zero]
      exact .value (by simpa using hv)

theorem leaves_absorbed {content : Ending} {r : Routine (Run ω) Outcome} (label : String)
    (p : Path) (hr : Leaves Run.trace content r) :
    Leaves Run.trace (Settled false label p content) (Executor.absorbed r) := by
  refine leaves_bind hr fun d out hd => ?_
  rcases out with _ | v
  · exact leaves_pure ⟨d, none, hd, by rw [add_zero]; exact .absorbed⟩
  · exact leaves_pure ⟨d, some v, hd, by rw [add_zero]; exact .kept v⟩

variable {onObject : OnObject ω} {A : ObjectEnding ω}

theorem leaves_completeObject (hA : ∀ o v p, Leaves Run.trace (A o v p) (onObject o v p))
    (o : ObjectNode ω) (v : Json) (p : Path) :
    Leaves Run.trace (ObjectEnds A o v p) (Executor.completeObject onObject o v p) := by
  unfold Executor.completeObject
  split
  · rename_i hv
    exact (hA o v p).mono fun _ _ ho => .object hv ho
  · rename_i hv
    exact leaves_fail (.notObject (by simpa using hv))

theorem leaves_completeCustom {t : TypeRef} {c : Codec ω} {v : Json} {p : Path}
    (hout : ∀ w, (∃ u, (c.serialize v u).1 = .ok w) → Q (.event (.serialized p w)) (some w))
    (hreason : ∀ reason, (∃ u, (c.serialize v u).1 = .error reason) →
      Q (.error (.invalidValue t.text (.refused reason)) p) none) :
    Leaves Run.trace Q (Executor.completeCustom t c v p) := by
  refine leaves_bind (leaves_inUser (Q := fun d a => d = 0 ∧ ∃ u, (c.serialize v u).1 = a)
    fun a ha => ⟨rfl, ha⟩) fun d a ⟨hd, ha⟩ => ?_
  subst hd
  simp only [zero_add]
  rcases a with reason | w
  · exact leaves_fail (hreason reason ha)
  · refine leaves_note_bind (leaves_pure ?_)
    rw [add_zero]
    exact hout w ha

theorem leaves_completeAbstract (hA : ∀ o v p, Leaves Run.trace (A o v p) (onObject o v p))
    {t : TypeRef} {y : Typing ω} {static : Option String} {v : Json} {p : Path} {n : Node ω}
    (ht : t.isBuiltin = false) (hn : e.graph.node? t.baseName = some n) (hy : n.typing? = some y) :
    Leaves Run.trace (NamedEnds e.graph A t static v p)
      (e.completeAbstract onObject t y static v p) := by
  refine leaves_bind (leaves_inScope
    (Q := fun d a => d = 0 ∧ ∃ c, (y.resolve static v c).1 = a) fun a ha => ⟨rfl, ha⟩)
    fun d a ⟨hd, ha⟩ => ?_
  subst hd
  simp only [zero_add]
  rcases a with error | name
  · exact leaves_fail (.untyped ht hn hy ha)
  · refine leaves_note_bind ?_
    split
    · rename_i o ho
      exact (leaves_completeObject hA o v p).mono fun d out hd => .typed ht hn hy ha ho hd
    · rename_i ho
      exact leaves_fail (.notObjectType ht hn hy ha ho)

theorem leaves_completeNamed (hA : ∀ o v p, Leaves Run.trace (A o v p) (onObject o v p))
    (t : TypeRef) (static : Option String) (v : Json) (p : Path) :
    Leaves Run.trace (NamedEnds e.graph A t static v p)
      (e.completeNamed onObject t static v p) := by
  unfold Executor.completeNamed
  by_cases ht : t.isBuiltin = true
  · rw [if_pos ht]
    by_cases hv : t.accepts v = true
    · rw [if_pos hv]
      exact leaves_pure (.builtin ht hv)
    · rw [if_neg hv]
      exact leaves_fail (.notBuiltin ht (by simpa using hv))
  · rw [if_neg ht]
    have ht : t.isBuiltin = false := by simpa using ht
    split
    · rename_i hn
      exact leaves_completeCustom (fun w hw => .serialized ht hn rfl hw)
        fun reason hw => .refused ht hn rfl hw
    · rename_i o hn
      exact (leaves_completeObject hA o v p).mono fun d out hd => .object ht hn hd
    · rename_i n hn
      exact leaves_completeAbstract hA ht hn rfl
    · rename_i n hn
      exact leaves_completeAbstract hA ht hn rfl
    · rename_i hscalar hobject hinterface hunion
      refine leaves_fail (.notOutputType ht fun n hn => ?_)
      cases n with
      | scalar n =>
        obtain ⟨name, description, codec⟩ := n
        cases codec with
        | none => rfl
        | some c => exact absurd hn (hscalar _ _ _)
      | object n => exact absurd hn (hobject n)
      | interface n => exact absurd hn (hinterface n)
      | union n => exact absurd hn (hunion n)
      | input n => rfl

theorem leaves_completeSingle (hA : ∀ o v p, Leaves Run.trace (A o v p) (onObject o v p))
    (t : TypeRef) (r : Resolved) (p : Path) :
    Leaves Run.trace (SingleEnds e.graph A t r p) (e.completeSingle onObject t r p) := by
  cases r with
  | list rs => exact leaves_fail (.unexpectedList rs p)
  | value v => exact (leaves_completeNamed hA t none v p).mono fun _ _ hd => .value hd
  | typed name v => exact (leaves_completeNamed hA t (some name) v p).mono fun _ _ hd => .typed hd

theorem leaves_completeList (hitems : Transparent Run.trace e.items)
    {complete : Resolved → Path → Routine (Run ω) Outcome} {item : Resolved → Path → Ending}
    (h : ∀ r p, Leaves Run.trace (item r p) (complete r p)) (t : TypeRef) (r : Resolved)
    (p : Path) : Leaves Run.trace (ListEnds item t r p) (e.completeList complete t r p) := by
  unfold Executor.completeList
  split
  · rename_i hr
    exact leaves_fail (.expectedList hr)
  · rename_i rs hr
    refine leaves_bind (hitems (rs.mapIdx fun i r => item r (p.join (.index i))) _ ?_)
      fun d outs hd => leaves_pure ?_
    · rw [List.forall₂_iff_get]
      simp only [List.length_mapIdx, List.get_eq_getElem, List.getElem_mapIdx, true_and]
      exact fun i _ _ => h _ _
    · rw [add_zero]
      exact .items hr hd

theorem leaves_unlessNull {complete : Resolved → Path → Routine (Run ω) Outcome}
    {content : Resolved → Path → Ending} (h : ∀ r p, Leaves Run.trace (content r p) (complete r p))
    (r : Resolved) (p : Path) :
    Leaves Run.trace (UnlessNull content r p) (Executor.unlessNull complete r p) := by
  refine leaves_note_bind ?_
  split
  · rename_i hr
    obtain rfl := Resolved.isNull_eq_true.1 hr
    exact leaves_pure (by rw [add_zero]; exact .null p)
  · rename_i hr
    exact (h r p).mono fun d out hd => .content (by simpa using hr) hd

theorem leaves_completeInner (hitems : Transparent Run.trace e.items)
    (hA : ∀ o v p, Leaves Run.trace (A o v p) (onObject o v p)) (label : String) (t : TypeRef)
    (r : Resolved) (p : Path) :
    Leaves Run.trace (InnerEnds e.graph A label t r p)
      (e.completeInner label onObject t r p) := by
  induction t using Executor.completeInner.induct generalizing r p with
  | case1 inner ih => exact leaves_unlessNull (fun r p => leaves_required label p (ih r p)) r p
  | case2 item ih =>
    exact leaves_unlessNull
      (leaves_completeList hitems (fun r p => leaves_required label p (ih r p)) _) r p
  | case3 item _ ih =>
    cases item with
    | nonNull item => simp_all
    | _ =>
      exact leaves_unlessNull
        (leaves_completeList hitems (fun r p => leaves_absorbed label p (ih r p)) _) r p
  | case4 t h₁ h₂ h₃ =>
    cases t with
    | nonNull inner => exact absurd rfl (h₁ inner)
    | list item => exact absurd rfl (h₃ item)
    | _ => exact leaves_unlessNull (leaves_completeSingle hA _) r p

theorem leaves_complete (hitems : Transparent Run.trace e.items)
    (hA : ∀ o v p, Leaves Run.trace (A o v p) (onObject o v p)) (label : String) (t : TypeRef)
    (r : Resolved) (p : Path) :
    Leaves Run.trace (Ends e.graph A label t r p) (e.complete label onObject t r p) := by
  cases t with
  | nonNull inner => exact leaves_required label p (leaves_completeInner hitems hA label inner r p)
  | _ => exact leaves_absorbed label p (leaves_completeInner hitems hA label _ r p)

/-! ## Fields and selections -/

theorem leaves_resolveField {Q : Trace → Except FieldError Resolved → Prop} {node : FieldNode ω}
    {source : Json} {given : Dict Json} {p : Path}
    (hbad : ∀ error, (∃ u, ((e.graph.coerceArguments node given).run u).1 = .error error) →
      Q 0 (.error error))
    (hout : ∀ args outcome, (∃ u, ((e.graph.coerceArguments node given).run u).1 = .ok args) →
      Returns (node.resolve e.schema.registry source args).run outcome →
      Q (.event (.resolved p outcome)) outcome) :
    Leaves Run.trace Q (e.resolveField node source given p) := by
  refine leaves_bind (leaves_inUser
    (Q := fun d a => d = 0 ∧ ∃ u, ((e.graph.coerceArguments node given).run u).1 = a)
    fun a ha => ⟨rfl, ha⟩) fun d a ⟨hd, ha⟩ => ?_
  subst hd
  simp only [zero_add]
  rcases a with error | args
  · exact leaves_pure (hbad error ha)
  · refine leaves_bind (leaves_inWorld
      (Q := fun d b => d = 0 ∧ Returns (node.resolve e.schema.registry source args).run b)
      fun b hb => ⟨rfl, hb⟩) fun d b ⟨hd, hb⟩ => ?_
    subst hd
    refine leaves_note_bind (leaves_pure ?_)
    rw [add_zero, zero_add]
    exact hout args b ha hb

theorem leaves_executeNode (hitems : Transparent Run.trace e.items)
    (hA : ∀ o v p, Leaves Run.trace (A o v p) (onObject o v p)) {o : ObjectNode ω}
    {node : FieldNode ω} {f : SelectedField} (source : Json) (p : Path)
    (h : f.name ≠ Executor.typenameField) (hf : Dict.get? o.fields f.name = some node) :
    Leaves Run.trace (FieldEnds e.schema A o source f p)
      (e.executeNode o node source f onObject p) := by
  refine leaves_bind (leaves_resolveField
    (Q := fun d outcome =>
      (∀ error, outcome = .error error → FieldEnds e.schema A o source f p (d + .error error p)
        (Executor.nullFor node.type)) ∧
      ∀ r, outcome = .ok r → ∀ d' out,
        Ends e.graph A s!"{o.name}.{node.name}" node.type r p d' out →
          FieldEnds e.schema A o source f p (d + d') out)
    (fun error he => ⟨?_, nofun⟩) fun args outcome hargs hr => ⟨?_, ?_⟩) fun d outcome hd => ?_
  · rintro _ ⟨⟩
    rw [zero_add]
    exact .badArguments h hf he
  · rintro error rfl
    exact .failed h hf hargs hr
  · rintro r rfl d' out hd'
    exact .resolved h hf hargs hr hd'
  · cases outcome with
    | error error =>
      refine leaves_bind (leaves_record error p) fun d' _ hd' => leaves_pure ?_
      rw [hd', add_zero]
      exact hd.1 error rfl
    | ok r => exact (leaves_complete hitems hA _ node.type r p).mono (hd.2 r rfl)

theorem leaves_executeField (hitems : Transparent Run.trace e.items)
    (hA : ∀ o v p, Leaves Run.trace (A o v p) (onObject o v p)) (o : ObjectNode ω) (source : Json)
    (f : SelectedField) (p : Path) :
    Leaves Run.trace (FieldEnds e.schema A o source f p)
      (e.executeField o source f onObject p) := by
  unfold Executor.executeField
  split
  · rename_i h
    exact leaves_pure (.typename h)
  · rename_i h
    split
    · rename_i hf
      refine leaves_bind (leaves_record _ _) fun d _ hd => leaves_pure ?_
      rw [hd, add_zero]
      exact .unknown h hf
    · rename_i node hf
      exact leaves_executeNode hitems hA source p h hf

theorem leaves_execute (hsiblings : Transparent Run.trace e.siblings)
    (hitems : Transparent Run.trace e.items) (selections : List Selection) (o : ObjectNode ω)
    (source : Json) (p : Path) :
    Leaves Run.trace (Executes e.schema selections o source p)
      (e.execute selections o source p) := by
  let ends := GroupEnds e.schema (fun fields => Executes e.schema (Selection.nested fields))
    o source p
  have body : Leaves Run.trace (fun d out => ∃ outs,
      Together ((e.graph.groupsOn o selections).map ends) d outs ∧
        out = Executor.assembleObject (Dict.keys (e.graph.groupsOn o selections)) outs)
      (e.execute selections o source p) := by
    rw [Executor.execute, ← List.attach_map_val]
    refine leaves_bind
      (hsiblings ((e.graph.groupsOn o selections).attach.map fun group => ends group.1) _ ?_)
      fun d outs hd => leaves_pure ?_
    · rw [List.forall₂_map_left_iff, List.forall₂_map_right_iff, List.forall₂_same]
      rintro ⟨⟨key, fields⟩, collected⟩ _
      cases fields with
      | nil => exact leaves_pure ⟨rfl, rfl⟩
      | cons f rest =>
        have := Selection.sizeAll_lt_of_mem_collect collected
        exact leaves_executeField hitems (leaves_execute hsiblings hitems _) o source f _
    · rw [add_zero]
      exact ⟨outs, hd, rfl⟩
  exact body.mono fun _ _ h => executes_iff.2 h
termination_by Selection.sizeAll selections

/-! ## Runs -/

/-- The executor interleaves siblings, and the items of lists, in an order of its own. -/
structure Executor.Schedules (e : Executor ω) : Prop where
  siblings : Scheduling e.siblings
  items : Scheduling e.items

theorem schedules_forOperation (s : Schema ω) (operation : Operation) :
    (Executor.forOperation s operation).Schedules where
  siblings := by
    unfold Executor.forOperation
    dsimp only
    split
    · exact scheduling_concurrently
    · exact scheduling_inOrder
  items := scheduling_concurrently

/-- Siblings go on in passes, and the items of lists one after the other. -/
def Executor.itemByItem (s : Schema ω) : Executor ω := ⟨s, inPasses, inOrder⟩

theorem schedules_itemByItem (s : Schema ω) : (Executor.itemByItem s).Schedules :=
  ⟨scheduling_inPasses, scheduling_inOrder⟩

/-- What a run leaves, by the rules. -/
theorem runWith_ends (he : e.Schedules) (root : ObjectNode ω) (selections : List Selection)
    (w : World ω) :
    Executes e.schema selections root .null [] (Schema.runWith e root selections w).2.trace
      (Schema.runWith e root selections w).1 := by
  have hleaves := leaves_execute he.siblings.transparent he.items.transparent selections root .null
    []
  obtain ⟨d, hd, h⟩ := leaves_run hleaves { world := w }
  rw [show Run.trace { world := w } = 0 from rfl, zero_add] at hd
  exact hd ▸ h

end GraphAssembly
