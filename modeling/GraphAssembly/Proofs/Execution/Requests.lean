import GraphAssembly.Proofs.Execution.Footprint
import GraphAssembly.Proofs.Execution.Positions
import GraphAssembly.Proofs.Execution.Soundness

/-!
# Requests

A request ends by the rules from the root object of its operation, in whatever order an executor
lets siblings and items go on. What happened on the way says which positions its response has.

1. What an executor answers to a request, the journal of it, and the layout of the response.
2. How a request ends.
-/

namespace GraphAssembly

variable {ω : Type}

/-! ## Journals and layouts -/

/-- The object type that was found for the value at a position. -/
def runtimeType? (journal : List Event) (p : Path) : Option String :=
  journal.findSome? fun
    | .typed q name => if q = p then some name else none
    | _ => none

theorem runtimeType?_of_mem {journal : List Event} {p : Path} {name : String}
    (h : ∀ {q a b}, .typed q a ∈ journal → .typed q b ∈ journal → a = b)
    (hmem : .typed p name ∈ journal) : runtimeType? journal p = some name := by
  cases hr : runtimeType? journal p with
  | none =>
    have := List.findSome?_eq_none_iff.1 hr _ hmem
    simp at this
  | some other =>
    obtain ⟨e, he, hother⟩ := List.exists_of_findSome?_eq_some hr
    cases e with
    | typed q found =>
      obtain ⟨rfl, rfl⟩ : q = p ∧ found = other := by simpa using hother
      rw [h he hmem]
    | _ => cases hother

section Recorded

variable {L : Layout ω} {journal : List Event}

/-- The journal holds all that has been recorded, and the layout goes by the journal. -/
structure Recorded (L : Layout ω) (journal : List Event) (d : Trace) : Prop where
  events : ∀ e ∈ d.2, e ∈ journal
  layout : ∀ q name, .typed q name ∈ journal → L.runtimeType? q = some name

theorem Recorded.of_event_add {e : Event} {d : Trace} (h : Recorded L journal (.event e + d)) :
    Recorded L journal d :=
  ⟨fun x hx => h.events x (mem_event_add_snd.2 (.inr hx)), h.layout⟩

theorem Recorded.mem_event {e : Event} {d : Trace} (h : Recorded L journal (.event e + d)) :
    e ∈ journal := h.events e (mem_event_add_snd.2 (.inl rfl))

theorem Recorded.branch {bs : List Branch} (h : Recorded L journal (bs.map Branch.trace).sum)
    {b : Branch} (hb : b ∈ bs) : Recorded L journal b.trace :=
  ⟨fun e he => h.events e (mem_sum_snd.2 ⟨b.trace, List.mem_map_of_mem hb, he⟩), h.layout⟩

end Recorded

/-- The name of the root type of an operation. -/
def Schema.rootName? (s : Schema ω) (operation : Operation) : Option String :=
  match operation with
  | .query => some s.graph.query
  | .mutation => s.graph.mutation

theorem Schema.root?_eq (s : Schema ω) (operation : Operation) :
    s.root? operation = (s.rootName? operation).bind s.graph.object? := by
  cases operation <;> rfl

namespace Executor

variable (e : Executor ω) (operation : Operation) (selections : List Selection) (w : World ω)

/-- What the executor makes of a request, and the world that it leaves. -/
def answer : Response × World ω :=
  match e.schema.root? operation with
  | none => (Schema.unsupported operation, w)
  | some root =>
    let run := Schema.runWith e root selections w
    (Schema.respond run.1 run.2, run.2.world)

/-- What happens while the executor runs a request. -/
def journal : List Event :=
  match e.schema.root? operation with
  | none => []
  | some root => (Schema.runWith e root selections w).2.journal

/-- The positions of the response that the executor gives. -/
def layout : Layout ω where
  graph := e.graph
  root? := (e.schema.rootName? operation).map fun name => .typed (.named name) selections
  runtimeType? := GraphAssembly.runtimeType? (e.journal operation selections w)

end Executor

namespace Schema

variable (s : Schema ω) (operation : Operation) (selections : List Selection) (w : World ω)

theorem execute_eq_answer : s.execute operation selections w =
    (Executor.forOperation s operation).answer operation selections w := rfl

/-- What happens while a request is executed. -/
def journal : List Event := (Executor.forOperation s operation).journal operation selections w

/-- The positions of the response to a request. -/
def layout : Layout ω := (Executor.forOperation s operation).layout operation selections w

end Schema

/-! ## The end of a request -/

section Ends

variable {e : Executor ω} (he : e.Schedules) {operation : Operation} {root : ObjectNode ω}
  (hroot : e.schema.root? operation = some root) (selections : List Selection) (w : World ω)

include he hroot

theorem answer_ends : ∃ (errors : List Located) (out : Outcome),
    Executes e.schema selections root .null [] (errors, e.journal operation selections w) out ∧
      (e.answer operation selections w).1.data = some (out.getD .null) ∧
      (e.answer operation selections w).1.errors =
        errors.map fun l => l.error.report (some l.path) := by
  unfold Executor.journal Executor.answer
  rw [hroot]
  exact ⟨_, _, runWith_ends he root selections w, rfl, rfl⟩

theorem runtimeType?_of_journal {p : Path} {name : String}
    (h : .typed p name ∈ e.journal operation selections w) :
    (e.layout operation selections w).runtimeType? p = some name := by
  obtain ⟨errors, out, hends, -⟩ := answer_ends he hroot selections w
  exact runtimeType?_of_mem (executes_footprint hends).typed h

theorem recorded_root (errors : Multiset Located) :
    Recorded (e.layout operation selections w) (e.journal operation selections w)
      (errors, e.journal operation selections w) where
  events _ h := h
  layout _ _ := runtimeType?_of_journal he hroot selections w

omit he

theorem slot?_root : ∃ name, e.graph.object? name = some root ∧
    (e.layout operation selections w).slot? [] = some (.typed (.named name) selections) := by
  obtain ⟨name, hname, hobject⟩ := Option.bind_eq_some_iff.1 (e.schema.root?_eq operation ▸ hroot)
  refine ⟨name, hobject, ?_⟩
  rw [Layout.slot?_nil, Executor.layout, hname, Option.map_some]

theorem hasObject_root : (e.layout operation selections w).HasObject [] root selections := by
  obtain ⟨name, hobject, hslot⟩ := slot?_root hroot selections w
  refine Layout.hasObject_of_slot hslot rfl ?_
  simp only [Layout.objectAt?, Executor.layout, Graph.object?_eq_some_iff.1 hobject]

theorem nullable_root : (e.layout operation selections w).Nullable [] := by
  obtain ⟨name, _, hslot⟩ := slot?_root hroot selections w
  exact (Layout.nullable_iff_of_slot_typed hslot).2 rfl

end Ends

end GraphAssembly
