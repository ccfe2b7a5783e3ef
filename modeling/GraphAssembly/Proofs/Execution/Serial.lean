import GraphAssembly.Proofs.Execution.Conformance
import GraphAssembly.Proofs.Execution.Congruence
import GraphAssembly.Proofs.Routine.Strands

/-!
# One field after the other

The siblings of a mutation, and of a query without concurrent fields, are executed in order. All
that is done for a field, down to what is selected below it, is done before the next field is begun;
and no field is left out, whatever has become of those before it. The items of a list still go on
together, so that what is done for an object in a list is a strand of what is done for the list.

1. `Executor.SerialOn`: courses on which this is so for all objects, at any depth.
2. The groups of fields under one key.
3. The courses of one field, and of the selections of an object.
4. The statement about requests, and a mutation whose first field fails.
-/

namespace GraphAssembly

open Routine

variable {ω : Type}

namespace Executor

/-! ## Serial executions -/

/-- The code that an executor calls, and what it writes down itself. -/
inductive Calls (e : Executor ω) : {α : Type} → Routine (Run ω) α → Prop
  | record (error : FieldError) (p : Path) : Calls e (Run.record error p)
  | note (event : Event) : Calls e (Run.note event)
  | coerce (node : FieldNode ω) (given : Dict Json) :
    Calls e (Run.inUser (e.graph.coerceArguments node given).run)
  /-- The factories, the middleware and the method of a field. -/
  | resolve (node : FieldNode ω) (source : Json) (args : Dict Json) :
    Calls e (Run.inWorld (node.resolve e.schema.registry source args).run)
  | serialize (c : Codec ω) (v : Json) : Calls e (Run.inUser (c.serialize v))
  | typing (y : Typing ω) (static : Option String) (v : Json) :
    Calls e (Run.inScope (y.resolve static v))

mutual

/-- Selections are executed on an object. The course has one part for each response key, in the
order in which the keys first occur, and nothing besides; each part begins where the one before
stopped. -/
inductive SerialOn (e : Executor ω) :
    List Selection → ObjectNode ω → Json → Path → Part (Run ω) Outcome → Prop
  | fields {selections : List Selection} {o : ObjectNode ω} {source : Json} {p : Path}
    {keys : List String} {xs : List (Part (Run ω) Outcome)} {s s' : Run ω}
    (hkeys : keys = firstOccurrences ((e.graph.selectedOn o selections).map (·.responseKey)))
    (hlength : xs.length = keys.length)
    (hfields : ∀ (i : Nat) (key : String) (x : Part (Run ω) Outcome),
      keys[i]? = some key → xs[i]? = some x →
        FieldSerial e o source (p.join (.key key))
          ((e.graph.selectedOn o selections).filter (·.responseKey = key)) x)
    (hlinked : Linked s xs s') :
    SerialOn e selections o source p
      ⟨s, xs.flatMap Part.moves, assembleObject keys (xs.map Part.result), s'⟩

/-- The fields selected under one key are executed, of which the first stands for all. What they
select together is executed on objects where `onObject` is called, whichever that is: the part
cannot be explained in another way. -/
inductive FieldSerial (e : Executor ω) :
    ObjectNode ω → Json → Path → List SelectedField → Part (Run ω) Outcome → Prop
  | field {o : ObjectNode ω} {source : Json} {p : Path} {f : SelectedField}
    {rest : List SelectedField} {x : Part (Run ω) Outcome}
    (hx : x.Of (e.executeField o source f (e.execute (Selection.nested (f :: rest))) p))
    (hgoes : ∀ onObject : OnObject ω, Goes e (Selection.nested (f :: rest)) onObject
      (e.executeField o source f onObject p) x) :
    FieldSerial e o source p (f :: rest) x

/-- The part is a course of the routine, but for calls of `onObject`: in the place of each one
stands an execution of the selections on the object. -/
inductive Goes (e : Executor ω) :
    {α : Type} → List Selection → OnObject ω → Routine (Run ω) α → Part (Run ω) α → Prop
  | pure {α : Type} {selections : List Selection} {onObject : OnObject ω} (a : α) (s : Run ω) :
    Goes e selections onObject (pure a) ⟨s, [], a, s⟩
  | call {α : Type} {selections : List Selection} {onObject : OnObject ω}
    {r : Routine (Run ω) α} {x : Part (Run ω) α} (hr : Calls e r) (hx : x.Of r) :
    Goes e selections onObject r x
  | bind {α β : Type} {selections : List Selection} {onObject : OnObject ω}
    {r : Routine (Run ω) α} {f : α → Routine (Run ω) β} {s t s' : Run ω}
    {first rest : List (Move (Run ω))} {a : α} {b : β}
    (hr : Goes e selections onObject r ⟨s, first, a, t⟩)
    (hf : Goes e selections onObject (f a) ⟨t, rest, b, s'⟩) :
    Goes e selections onObject (r >>= f) ⟨s, first ++ rest, b, s'⟩
  | object {selections : List Selection} {onObject : OnObject ω} {o : ObjectNode ω} {v : Json}
    {p : Path} {x : Part (Run ω) Outcome} (h : SerialOn e selections o v p x) :
    Goes e selections onObject (onObject o v p) x
  | items {selections : List Selection} {onObject : OnObject ω}
    {rs : List (Routine (Run ω) Outcome)} {xs : List (Part (Run ω) Outcome)}
    {acts : List (Act (Run ω))} {s s' : Run ω} (hacts : Acts s acts s')
    (hlength : xs.length = rs.length)
    (hgoes : ∀ (i : Nat) (r : Routine (Run ω) Outcome) (x : Part (Run ω) Outcome),
      rs[i]? = some r → xs[i]? = some x → Goes e selections onObject r x)
    (hstrand : ∀ (i : Nat) (x : Part (Run ω) Outcome), xs[i]? = some x → x.IsStrand i acts) :
    Goes e selections onObject (e.items rs)
      ⟨s, acts.filterMap Act.whole?, xs.map Part.result, s'⟩

end

/-! ## Groups -/

/-- Executes the fields selected under one key. -/
def executeGroup (e : Executor ω) (o : ObjectNode ω) (source : Json) (p : Path) :
    List SelectedField → Routine (Run ω) Outcome
  | f :: rest => e.executeField o source f (e.execute (Selection.nested (f :: rest))) p
  | [] => pure (some .null)

theorem execute_eq_siblings (e : Executor ω) (selections : List Selection) (o : ObjectNode ω)
    (source : Json) (p : Path) :
    let selected := e.graph.selectedOn o selections
    let keys := firstOccurrences (selected.map (·.responseKey))
    e.execute selections o source p = assembleObject keys <$> e.siblings (keys.map fun key =>
      e.executeGroup o source (p.join (.key key)) (selected.filter (·.responseKey = key))) := by
  intro selected keys
  have hkeys : Dict.keys (e.graph.groupsOn o selections) = keys := Selection.keys_collect _ _
  rw [execute, ← hkeys]
  refine congrArg (fun rs => assembleObject _ <$> e.siblings rs) ?_
  rw [Dict.keys, List.map_map]
  refine Eq.trans (List.map_congr_left fun group _ => ?_) List.attach_map_val
  obtain ⟨⟨key, fields⟩, hmem⟩ := group
  have hfields : selected.filter (·.responseKey = key) = fields :=
    (Selection.fields_of_mem_collect hmem).symm
  rw [Function.comp_apply, hfields]
  cases fields <;> rfl

/-! ## One field -/

/-- The second routine calls `onObject` where the first one executes the selections. -/
def Follows (e : Executor ω) (selections : List Selection) (onObject : OnObject ω) (α : Type)
    (r r' : Routine (Run ω) α) : Prop :=
  ∀ x : Part (Run ω) α, x.Of r → Goes e selections onObject r' x

variable {e : Executor ω} {selections : List Selection} {onObject : OnObject ω}

theorem Calls.follows {α : Type} {r : Routine (Run ω) α} (h : Calls e r) :
    Follows e selections onObject α r r := fun _ hx => .call h hx

theorem follows_items (hitems : Scheduling e.items) {rs rs' : List (Routine (Run ω) Outcome)}
    (h : List.Forall₂ (Follows e selections onObject Outcome) rs rs') :
    Follows e selections onObject _ (e.items rs) (e.items rs') := by
  intro ⟨s, ms, as, s'⟩ hx
  obtain ⟨acts, xs, hacts, rfl, hxs, rfl, hstrand⟩ := hitems.exists_parts hx
  refine .items hacts (hxs.length_eq.symm.trans h.length_eq) (fun i r x hr hx => ?_) hstrand
  have hi : i < rs.length := hxs.length_eq ▸ (List.getElem?_eq_some_iff.1 hx).1
  have hrs : rs[i]? = some rs[i] := List.getElem?_eq_getElem hi
  exact rel_of_getElem? h hrs hr x (rel_of_getElem? hxs hrs hx)

theorem compatible_follows (hitems : Scheduling e.items) :
    Compatible e e (Follows e selections onObject) where
  graph := rfl
  registry := rfl
  pure a := by
    intro ⟨s, ms, b, s'⟩ hx
    have hx : Course (.done a) s ms b s' := hx
    obtain ⟨rfl, rfl, rfl⟩ := course_done_iff.1 hx
    exact .pure _ _
  bind hr hf := by
    intro ⟨s, ms, b, s'⟩ hx
    obtain ⟨first, a, t, rest, rfl, hcourse, hrest⟩ := course_bind_iff.1 hx
    exact .bind (hr ⟨s, first, a, t⟩ hcourse) (hf a ⟨t, rest, b, s'⟩ hrest)
  record error p := (Calls.record error p).follows
  note event := (Calls.note event).follows
  coerce _ _ given := (Calls.coerce _ given).follows
  resolve _ _ source args := (Calls.resolve _ source args).follows
  serialize _ _ v := (Calls.serialize _ v).follows
  typing _ _ static v := (Calls.typing _ static v).follows
  items h := follows_items hitems h

/-! ## Selections -/

/-- Induction on what is selected: a step for the fields of one object. -/
theorem serialOn_of_course (hsiblings : e.siblings = inOrder) (hitems : Scheduling e.items)
    (selections : List Selection) {o : ObjectNode ω} (ho : e.graph.Has o) (source : Json)
    (p : Path) {x : Part (Run ω) Outcome} (hx : x.Of (e.execute selections o source p)) :
    e.SerialOn selections o source p x := by
  obtain ⟨s, ms, out, s'⟩ := x
  rw [execute_eq_siblings, hsiblings] at hx
  obtain ⟨as, rfl, hcourse⟩ := course_map_iff.1 hx
  obtain ⟨xs, hxs, hlinked, rfl, rfl⟩ := course_inOrder_iff.1 hcourse
  refine .fields rfl (by simpa using hxs.length_eq.symm) (fun i key x hkey hx => ?_) hlinked
  obtain ⟨f, rest, hmem, hfields⟩ := Selection.exists_group (List.mem_of_getElem? hkey)
  have hx : x.Of (e.executeGroup o source (p.join (.key key)) (f :: rest)) := by
    rw [← hfields]
    exact rel_of_getElem? (List.forall₂_map_left_iff.1 hxs) hkey hx
  have := Selection.sizeAll_lt_of_mem_collect hmem
  rw [Graph.selectedOn, hfields]
  exact .field hx fun onObject => (compatible_follows hitems).executeField
    (fun o v p ho x hx => .object (serialOn_of_course hsiblings hitems _ ho v p hx))
    ho source f _ x hx
termination_by Selection.sizeAll selections

theorem FieldSerial.course {o : ObjectNode ω} {source : Json} {p : Path}
    {fields : List SelectedField} {x : Part (Run ω) Outcome}
    (h : FieldSerial e o source p fields x) : x.Of (e.executeGroup o source p fields) := by
  cases h with
  | field hx _ => exact hx

theorem SerialOn.course (hsiblings : e.siblings = inOrder) {o : ObjectNode ω} {source : Json}
    {p : Path} {x : Part (Run ω) Outcome} (h : e.SerialOn selections o source p x) :
    x.Of (e.execute selections o source p) := by
  cases h with
  | @fields _ _ _ _ keys xs s s' hkeys hlength hfields hlinked =>
    subst hkeys
    rw [execute_eq_siblings, hsiblings]
    refine course_map_iff.2 ⟨_, rfl, course_inOrder_iff.2 ⟨xs, ?_, hlinked, rfl, rfl⟩⟩
    rw [List.forall₂_map_left_iff, List.forall₂_iff_get]
    refine ⟨hlength.symm, fun i hi hj => ?_⟩
    exact (hfields i _ _ (List.getElem?_eq_getElem hi) (List.getElem?_eq_getElem hj)).course

/-- There are no other courses. -/
theorem serialOn_iff (hsiblings : e.siblings = inOrder) (hitems : Scheduling e.items)
    {o : ObjectNode ω} (ho : e.graph.Has o) {source : Json} {p : Path}
    {x : Part (Run ω) Outcome} :
    e.SerialOn selections o source p x ↔ x.Of (e.execute selections o source p) :=
  ⟨SerialOn.course hsiblings, serialOn_of_course hsiblings hitems selections ho source p⟩

end Executor

/-! ## Requests -/

theorem siblings_forOperation {s : Schema ω} {operation : Operation}
    (h : operation = .mutation ∨ s.configuration.execution.concurrentFields = false) :
    (Executor.forOperation s operation).siblings = inOrder := by
  refine if_neg ?_
  rintro ⟨rfl, hconcurrent⟩
  obtain hmutation | hconfiguration := h
  · cases hmutation
  · cases hconfiguration.symm.trans hconcurrent

/-- In whatever order the items of lists go on, whatever happens while code is suspended, and
whichever fields fail: the courses of a mutation, or of a query without concurrent fields, are those
on which the fields of every object are executed one after the other. The request as it is run, with
its response, is one of them. -/
theorem execute_serial {s : Schema ω} {operation : Operation}
    (hserial : operation = .mutation ∨ s.configuration.execution.concurrentFields = false)
    {root : ObjectNode ω} (hroot : s.root? operation = some root) (selections : List Selection) :
    (∀ items : Join (Run ω) Outcome, Scheduling items →
      let e : Executor ω := { Executor.forOperation s operation with items }
      ∀ x : Part (Run ω) Outcome, x.Of (e.execute selections root .null []) ↔
        e.SerialOn selections root .null [] x) ∧
    ∀ w, ∃ x : Part (Run ω) Outcome, x.start = { world := w } ∧
      (Executor.forOperation s operation).SerialOn selections root .null [] x ∧
      s.execute operation selections w = (Schema.respond x.result x.stop, x.stop.world) := by
  have serial (items : Join (Run ω) Outcome) (hitems : Scheduling items) :
      let e : Executor ω := { Executor.forOperation s operation with items }
      ∀ x : Part (Run ω) Outcome, x.Of (e.execute selections root .null []) ↔
        e.SerialOn selections root .null [] x := by
    intro e x
    have hsiblings : e.siblings = inOrder := siblings_forOperation hserial
    exact (Executor.serialOn_iff hsiblings hitems (has_root hroot)).symm
  refine ⟨serial, fun w => ?_⟩
  obtain ⟨ms, hcourse⟩ := course_run
    ((Executor.forOperation s operation).execute selections root .null []) { world := w }
  exact ⟨⟨_, ms, _, _⟩, rfl, (serial _ scheduling_concurrently _).1 hcourse,
    Schema.execute_of_root hroot selections w⟩

section Housework

/-- A field whose method naps a number of times before it does its work. -/
def chore (name : String) (type : TypeRef) (naps : Nat) (answer : Except String Resolved) :
    FieldNode (List String) where
  name
  description := none
  type
  arguments := []
  source := .method {
    name
    field := { typeName := "String" }
    instanceToken := ⟨"House"⟩
    parameters := []
    bindings := []
    method := fun _ _ => do
      Routine.suspendTimes naps
      Routine.modify fun s => { s with user := s.user ++ [name] }
      pure answer } []

/-- Sweeping always fails. The plates are washed together. -/
def housework : Schema (List String) where
  graph := {
    nodes := [
      ("Query", .object { name := "Query", description := none, fields := [], implements := [] }),
      ("Mutation", .object {
        name := "Mutation"
        description := none
        fields := [
          ("sweep", chore "sweep" (.nonNull .string) 3 (.error "no broom")),
          ("wash", chore "wash" (.list (.named "Plate")) 1
            (.ok (.list [.value (.obj []), .value (.obj [])])))]
        implements := [] }),
      ("Plate", .object {
        name := "Plate"
        description := none
        fields := [
          ("rinse", chore "rinse" .boolean 2 (.ok (.value (.bool true)))),
          ("stack", chore "stack" .boolean 1 (.ok (.value (.bool true))))]
        implements := [] })]
    query := "Query"
    mutation := some "Mutation" }
  registry := ⟨[⟨⟨"House"⟩, .value ⟨0, .held "House" .null⟩⟩]⟩
  configuration := {}

theorem housework_serial : ∃ root,
    let selections := [.field "sweep" none [] [],
      .field "wash" none [] [.field "rinse" none [] [], .field "stack" none [] []]]
    housework.root? .mutation = some root ∧
    (∀ items : Join (Run (List String)) Outcome, Scheduling items →
      let e : Executor (List String) := { Executor.forOperation housework .mutation with items }
      ∀ x : Part (Run (List String)) Outcome, x.Of (e.execute selections root .null []) ↔
        e.SerialOn selections root .null [] x) ∧
    ∀ w, ∃ x : Part (Run (List String)) Outcome, x.start = { world := w } ∧
      (Executor.forOperation housework .mutation).SerialOn selections root .null [] x ∧
      housework.execute .mutation selections w =
        (Schema.respond x.result x.stop, x.stop.world) := by
  obtain ⟨root, hroot⟩ : ∃ root, housework.root? .mutation = some root := ⟨_, rfl⟩
  exact ⟨root, hroot, execute_serial (.inl rfl) hroot _⟩

/-- The failure keeps nothing from being done. -/
example :
    let selections := [.field "sweep" none [] [],
      .field "wash" none [] [.field "rinse" none [] [], .field "stack" none [] []]]
    (housework.execute .mutation selections ⟨{}, [], []⟩).2.user =
      ["sweep", "wash", "rinse", "rinse", "stack", "stack"] := by
  decide +kernel

end Housework

end GraphAssembly
