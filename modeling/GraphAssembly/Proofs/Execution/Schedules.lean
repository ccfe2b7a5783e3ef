import GraphAssembly.Proofs.Execution.Congruence
import GraphAssembly.Proofs.Execution.Skeletons
import GraphAssembly.Proofs.Execution.Soundness
import GraphAssembly.Proofs.Pipeline.Determined

/-!
# Executions in any order

If the outcome of each field depends on its source and its arguments only, it does not matter in
which order suspended siblings and items go on: the response is the same up to the order of errors.

1. `Schema.Steady`.
2. Executors with scheduling joins give the same.
3. The statement.
-/

namespace GraphAssembly

open Routine

variable {ω : Type}

/-- What a field comes to depends on its source and its arguments only. Its code may suspend at any
time, and what it reads has no influence on its answer; codecs, choosers and factories are
deterministic. -/
structure Schema.Steady (s : Schema ω) : Prop where
  graph : s.graph.Pure
  registry : s.registry.Deterministic
  middleware : s.registry.Steady
  method : ∀ {o node r bindings}, s.graph.Has o → node ∈ Dict.values o.fields →
    node.source = .method r bindings → r.Steady

/-! ## Runs -/

/-- The workshop of the run is one of a registry in use. -/
def Run.Reached (registry : Registry ω) (run : Run ω) : Prop := run.world.Reached registry

section GiveSame

variable {registry : Registry ω}

/-- Both routines end with the same result, and record the same errors and events. -/
def GiveSame (registry : Registry ω) (α : Type) (r r' : Routine (Run ω) α) : Prop :=
  ∃ d a, Gives (Run.Reached registry) Run.trace r d a ∧
    Gives (Run.Reached registry) Run.trace r' d a

theorem GiveSame.of_gives {α : Type} {r : Routine (Run ω) α} {d : Trace} {a : α}
    (h : Gives (Run.Reached registry) Run.trace r d a) : GiveSame registry α r r :=
  ⟨d, a, h, h⟩

theorem giveSame_inWorld {α : Type} {r : Routine (World ω) α} {a : α}
    (h : Routine.Settles (World.Reached registry) r a) :
    GiveSame registry α (Run.inWorld r) (Run.inWorld r) :=
  .of_gives (h.zoom (by intros; rfl) (by intros; rfl))

/-- Code with one possible answer, over a part of the world. -/
theorem giveSame_ofState {τ α : Type} {view : World ω → τ} {update : τ → World ω → World ω}
    (hupdate : ∀ x w, w.Reached registry → (update x w).Reached registry) {m : StateM τ α} {a : α}
    (h : ∀ x, (m x).1 = a) : GiveSame registry α (Run.inWorld ((ofState m).zoom view update))
      (Run.inWorld ((ofState m).zoom view update)) := by
  have : Routine.Settles (World.Reached registry) ((ofState m).zoom view update) a := by
    refine gives_zoom_of_returns hupdate (by intros; rfl) fun b hb => ?_
    obtain ⟨x, rfl⟩ := returns_ofState hb
    exact h x
  exact giveSame_inWorld this

theorem giveSame_inUser {α : Type} {m : StateM ω α} {a : α} (h : ∀ u, (m u).1 = a) :
    GiveSame registry α (Run.inUser m) (Run.inUser m) :=
  giveSame_ofState (fun u _ hw => World.Reached.withUser hw u) h

theorem giveSame_inScope {α : Type} {m : StateM (Scope ω) α} {a : α} (h : ∀ c, (m c).1 = a) :
    GiveSame registry α (Run.inScope m) (Run.inScope m) :=
  giveSame_ofState (fun s _ hw => World.Reached.withScope hw s) h

theorem GiveSame.join {join join' : Join (Run ω) Outcome} (h : Scheduling join)
    (h' : Scheduling join') {rs rs' : List (Routine (Run ω) Outcome)}
    (hrs : List.Forall₂ (GiveSame registry Outcome) rs rs') :
    GiveSame registry _ (join rs) (join' rs') := by
  obtain ⟨xs, hxs, hxs'⟩ : ∃ xs : List (Trace × Outcome),
      List.Forall₂ (fun r x => Gives (Run.Reached registry) Run.trace r x.1 x.2) rs xs ∧
      List.Forall₂ (fun r x => Gives (Run.Reached registry) Run.trace r x.1 x.2) rs' xs := by
    induction hrs with
    | nil => exact ⟨[], .nil, .nil⟩
    | cons hr _ ih =>
      obtain ⟨d, a, hd, hd'⟩ := hr
      obtain ⟨xs, hxs, hxs'⟩ := ih
      exact ⟨(d, a) :: xs, .cons hd hxs, .cons hd' hxs'⟩
  exact ⟨_, _, h.gives hxs, h'.gives hxs'⟩

end GiveSame

/-! ## Executions -/

/-- The executors of one steady schema, in whatever order they let routines go on, give the same. -/
theorem congruence_giveSame {e e' : Executor ω} (hs : e.schema.Steady)
    {w : World ω} (hw : w.Reached e.schema.registry) (hgraph : e'.graph = e.graph)
    (hregistry : e'.schema.registry = e.schema.registry)
    (hsiblings : Scheduling e.siblings) (hsiblings' : Scheduling e'.siblings)
    (hitems : Scheduling e.items) (hitems' : Scheduling e'.items) :
    Congruence e e' (GiveSame e.schema.registry) where
  graph := hgraph
  registry := hregistry
  pure a := .of_gives (gives_pure a)
  bind h hf := by
    obtain ⟨d, a, hr, hr'⟩ := h
    obtain ⟨k, b, hb, hb'⟩ := hf a
    exact ⟨d + k, b, hr.bind hb, hr'.bind hb'⟩
  record error p := .of_gives (gives_modify fun run hrun => ⟨hrun, trace_record error p run⟩)
  note event := .of_gives (gives_modify fun run hrun => ⟨hrun, trace_note event run⟩)
  coerce {_ node} _ _ given :=
    giveSame_inUser fun u => coerceArguments_agree rfl hs.graph (f := node) rfl given u w.user
  resolve {o node} ho hnode source args := by
    obtain ⟨y, hy⟩ := exists_settles_resolve hs.registry hw hs.middleware
      (fun r bindings => hs.method ho hnode) source args
    exact giveSame_inWorld hy
  serialize hn hc v := giveSame_inUser fun u => (hs.graph.serialize hn hc).eq v u w.user
  typing hn hy static v := giveSame_inScope fun c => hs.graph.resolve hn hy static v c w.scope
  siblings := .join hsiblings hsiblings'
  items := .join hitems hitems'

/-! ## Requests -/

/-- In whatever order the siblings and the items of a query go on while others are suspended, its
response has the same data as when siblings are executed one after the other, with all keys in the
same order, and the same errors up to their order. A join knows its routines by their paths, so it
may take another order at each position. -/
theorem execute_scheduled {e : Executor ω} (hs : e.schema.Steady)
    (hsiblings : Scheduling e.siblings) (hitems : Scheduling e.items) {root : ObjectNode ω}
    (hroot : e.schema.root? .query = some root) {w : World ω}
    (hw : e.schema.registry.Reached w.workshop) (selections : List Selection) :
    let run := Schema.runWith e root selections w
    let response := Schema.respond run.1 run.2
    let serial := ((e.schema.withConcurrentFields false).execute .query selections w).1
    response.data = serial.data ∧ response.errors.Perm serial.errors := by
  intro run response serial
  let e' := Executor.forOperation (e.schema.withConcurrentFields false) .query
  let run' := Schema.runWith e' root selections w
  have hroot : (e.schema.withConcurrentFields false).root? .query = some root := hroot
  have hw : Run.Reached e.schema.registry { world := w } := hw
  have hcongruence : Congruence e e' (GiveSame e.schema.registry) :=
    congruence_giveSame hs hw rfl rfl hsiblings (schedules_forOperation _ .query).siblings hitems
      scheduling_concurrently
  obtain ⟨d, out, h, h'⟩ := hcongruence.execute selections ⟨_, hroot⟩ .null []
  obtain ⟨hout, htrace⟩ := ensures_run hw (h _ hw)
  obtain ⟨hout', htrace'⟩ := ensures_run hw (h' _ hw)
  have hserial : serial = Schema.respond run'.1 run'.2 :=
    congrArg Prod.fst (Schema.execute_of_root hroot selections w)
  rw [hserial]
  constructor
  · exact congrArg (fun out : Outcome => some (out.getD .null)) (hout.trans hout'.symm)
  · have herrors : (run.2.errors : Multiset Located) = run'.2.errors :=
      congrArg Prod.fst (htrace.trans htrace'.symm)
    exact (Multiset.coe_eq_coe.1 herrors).map _

section Race

/-- A field whose method naps a number of times before it answers. -/
def runner (name : String) (naps : Nat) : FieldNode Unit where
  name
  description := none
  type := .string
  arguments := []
  source := .method {
    name
    field := { typeName := "String", nullable := true }
    instanceToken := ⟨"Track"⟩
    parameters := []
    bindings := []
    method := fun _ _ => do
      Routine.suspendTimes naps
      pure (.ok (.value (.str name))) } [{ token := ⟨"Judge"⟩ }]

/-- Whichever of the two comes first. -/
def race : Schema Unit where
  graph := .ofQuery [("hare", runner "hare" 5), ("tortoise", runner "tortoise" 1)]
  registry := ⟨[
    ⟨⟨"Track"⟩, .value ⟨0, .held "Track" .null⟩⟩,
    ⟨⟨"Judge"⟩, .factory [] fun _ u =>
      (.ok ⟨1, .middleware ⟨fun _ _ _ => do
        Routine.suspendTimes 2
        pure (.ok (.bool true))⟩⟩, u)⟩]⟩
  configuration := {}

theorem agree_suspendTimes_bind {σ α : Type} (n : Nat) (a : α) :
    Agree (Routine.suspendTimes (σ := σ) n >>= fun _ => pure a)
      (Routine.suspendTimes n >>= fun _ => pure a) :=
  Agree.bind (fun _ _ _ _ => rfl) fun _ => agree_pure a

theorem race_deterministic : race.registry.Deterministic := by
  intro p hp dependencies build hsource ds ds' u u' _
  simp only [race, List.mem_cons, List.not_mem_nil, or_false] at hp
  obtain rfl | rfl := hp <;> cases hsource
  exact .ok rfl

theorem race_steady : race.Steady where
  graph := by
    refine ⟨fun hn => ?_, fun hn => ?_, fun hn hy => ?_⟩ <;>
      obtain ⟨o, ho, -⟩ := Graph.node?_ofQuery hn
    · cases ho
    · cases ho
    · subst ho
      cases hy
  registry := race_deterministic
  middleware m hm source args options := by
    obtain ⟨p, hp, _, _, i, hi, hm⟩ := hm.exists_made race_deterministic ()
    simp only [race, List.mem_cons, List.not_mem_nil, or_false] at hp
    obtain rfl | rfl := hp <;> cases hi <;> cases hm
    exact agree_suspendTimes_bind _ _
  method ho hnode hsource i j _ args := by
    rw [ho.fields_ofQuery] at hnode
    simp only [Dict.values, List.map_cons, List.map_nil, List.mem_cons, List.not_mem_nil,
      or_false] at hnode
    obtain rfl | rfl := hnode <;> cases hsource <;> exact agree_suspendTimes_bind _ _

/-- The siblings go on by rotation, and the items of lists in passes. -/
theorem race_scheduled : ∃ root,
    let e : Executor Unit := ⟨race, inRotation, inPasses⟩
    let selections := [.field "hare" none [] [], .field "tortoise" none [] []]
    let w : World Unit := ⟨{}, [], ()⟩
    race.Steady ∧ Scheduling e.siblings ∧ Scheduling e.items ∧ race.root? .query = some root ∧
      race.registry.Reached w.workshop ∧
      let run := Schema.runWith e root selections w
      let response := Schema.respond run.1 run.2
      let serial := ((race.withConcurrentFields false).execute .query selections w).1
      response.data = serial.data ∧ response.errors.Perm serial.errors := by
  obtain ⟨root, hroot⟩ : ∃ root, race.root? .query = some root := ⟨_, rfl⟩
  have hw : race.registry.Reached ⟨[], ()⟩ := .fresh ()
  exact ⟨root, race_steady, scheduling_inRotation, scheduling_inPasses, hroot, hw,
    execute_scheduled (e := ⟨race, inRotation, inPasses⟩) (w := ⟨{}, [], ()⟩) race_steady
      scheduling_inRotation scheduling_inPasses hroot hw _⟩

end Race

end GraphAssembly
