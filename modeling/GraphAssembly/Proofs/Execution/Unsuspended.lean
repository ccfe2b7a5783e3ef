import GraphAssembly.Proofs.Execution.Congruence
import GraphAssembly.Proofs.Pipeline.Determined
import GraphAssembly.Proofs.Routine.Leads

/-!
# Queries that nothing suspends

Siblings are worth running concurrently when some of them suspend. A query that goes through without
a suspension goes the same way with and without concurrency, whatever its code does to the state.

1. Executors that lead a query with either configuration.
2. Schemas whose code never suspends.
3. The statement.
-/

namespace GraphAssembly

open Routine

variable {ω : Type}

/-! ## Executions -/

theorem leads_siblings (s : Schema ω) (operation : Operation)
    (rs : List (Routine (Run ω) Outcome)) :
    Leads (inOrder rs) ((Executor.forOperation s operation).siblings rs) := by
  unfold Executor.forOperation
  dsimp only
  split
  · exact leads_concurrently rs
  · exact .refl _

/-- An executor that hides no suspension leads those of queries, whether their siblings are
concurrent or not. -/
theorem congruence_leads {e : Executor ω} (hsiblings : Candid e.siblings) (hitems : Candid e.items)
    (concurrent : Bool) :
    Congruence e (.forOperation (e.schema.withConcurrentFields concurrent) .query)
      fun _ => Leads where
  graph := rfl
  registry := rfl
  pure _ := .refl _
  bind h hf := h.bind hf
  record _ _ := .refl _
  note _ := .refl _
  coerce _ _ _ := .refl _
  resolve _ _ _ _ := .refl _
  serialize _ _ _ := .refl _
  typing _ _ _ _ := .refl _
  siblings {rs rs'} h := ((hsiblings rs).trans (leads_inOrder h)).trans (leads_siblings _ _ rs')
  items {rs rs'} h := ((hitems rs).trans (leads_inOrder h)).trans (leads_concurrently rs')

/-! ## Code that never suspends -/

/-- No middleware of the registry and no method of the graph suspends in any state. -/
structure Schema.NeverSuspends (s : Schema ω) : Prop where
  middleware {m : Middleware ω} : s.registry.Offers m →
    ∀ source args options, (m.execute source args options).NeverSuspends
  method {o : ObjectNode ω} {node : FieldNode ω} {r : Resolver ω} {bindings : List (Binding ω)} :
    s.graph.Has o → node ∈ Dict.values o.fields → node.source = .method r bindings →
      ∀ i args, (r.method i args).NeverSuspends

section Pipeline

variable {registry : Registry ω} {ε δ α β : Type}

/-- The pipeline goes through, and keeps the workshop one of a registry in use. -/
def Pipeline.GoesThrough (registry : Registry ω) (x : Pipeline ω ε α) : Prop :=
  Routine.GoesThrough (World.Reached registry) x.run

theorem Pipeline.GoesThrough.bind {x : Pipeline ω ε α} {f : α → Pipeline ω ε β}
    (hx : GoesThrough registry x) (hf : ∀ a, GoesThrough registry (f a)) :
    GoesThrough registry (x >>= f) :=
  Routine.GoesThrough.bind hx fun y => by
    cases y with
    | error e => exact goesThrough_pure _
    | ok a => exact hf a

theorem Pipeline.goesThrough_inScope (wrap : δ → ε) {r : Routine (Scope ω) (Except δ α)}
    (h : r.NeverSuspends) : GoesThrough registry (inScope wrap r) :=
  Routine.GoesThrough.bind (h.goesThrough_zoom fun s _ hw => World.Reached.withScope hw s)
    fun _ => goesThrough_pure _

/-- What follows a resolution may depend on what a registry in use gives. -/
theorem Pipeline.goesThrough_inWorkshop_bind {wrap : δ → ε}
    {m : ExceptT δ (StateM (Workshop ω)) α} {f : α → Pipeline ω ε β}
    (h : ∀ w, registry.Reached w → registry.Reached (m w).2 ∧
      ∀ a, (m w).1 = .ok a → GoesThrough registry (f a)) :
    GoesThrough registry (inWorkshop wrap m >>= f) := by
  rw [GoesThrough, run_inWorkshop_bind]
  refine goesThrough_ofState_bind fun w hw => ⟨(h w.workshop hw).1, ?_⟩
  change Routine.GoesThrough _ (ExceptT.bindCont f ((m w.workshop).1.mapError wrap))
  cases hx : (m w.workshop).1 with
  | error e => exact goesThrough_pure _
  | ok a => exact (h w.workshop hw).2 a hx

theorem goesThrough_inUser (m : StateM ω α) :
    Routine.GoesThrough (fun run : Run ω => run.world.Reached registry) (Run.inUser m) :=
  Routine.GoesThrough.zoom (fun _ _ => rfl) <|
    (neverSuspends_ofState m).goesThrough_zoom fun u _ hw => World.Reached.withUser hw u

theorem goesThrough_inScope (m : StateM (Scope ω) α) :
    Routine.GoesThrough (fun run : Run ω => run.world.Reached registry) (Run.inScope m) :=
  Routine.GoesThrough.zoom (fun _ _ => rfl) <|
    (neverSuspends_ofState m).goesThrough_zoom fun s _ hw => World.Reached.withScope hw s

end Pipeline

/-- Siblings and items go on in passes. -/
def Executor.inPasses (s : Schema ω) : Executor ω := ⟨s, Routine.inPasses, Routine.inPasses⟩

theorem forall_of_forall₂ {α β : Type} {P : α → Prop} {xs : List α} {ys : List β}
    (h : List.Forall₂ (fun x _ => P x) xs ys) : ∀ x ∈ xs, P x :=
  ((List.forall₂_and_left xs ys).1 (h.imp fun _ _ hx => ⟨hx, hx⟩)).1

namespace Schema.NeverSuspends

variable {s : Schema ω} (hs : s.NeverSuspends)

include hs

theorem goesThrough_resolve {o : ObjectNode ω} {node : FieldNode ω} (ho : s.graph.Has o)
    (hnode : node ∈ Dict.values o.fields) (source : Json) (args : Dict Json) :
    Pipeline.GoesThrough s.registry (node.resolve s.registry source args) := by
  unfold FieldNode.resolve
  cases hsource : node.source with
  | property => exact goesThrough_pure _
  | method r bindings =>
    refine Pipeline.GoesThrough.bind ?_ fun _ => ?_
    · refine Pipeline.goesThrough_inWorkshop_bind fun w hw => ?_
      refine ⟨reached_ofBindings bindings hw, fun steps hsteps => ?_⟩
      have hall := sequenced_ofBindings s.registry bindings w
      rw [hsteps] at hall
      cases hall with
      | resolved h =>
        refine Pipeline.GoesThrough.bind ?_ fun _ => goesThrough_pure _
        exact Pipeline.goesThrough_inScope _ <| runAll_of_execute .done .bind neverSuspends_modify
          fun step hstep => hs.middleware (h.offers hw step hstep) _ _ _
    · refine Pipeline.goesThrough_inWorkshop_bind fun w hw => ⟨hw.asked r.instanceToken, ?_⟩
      exact fun i _ => Pipeline.goesThrough_inScope _ (hs.method ho hnode hsource i _)

theorem congruence_goesThrough : Congruence (.inPasses s) (.inPasses s)
    fun _ r _ => GoesThrough (fun run : Run ω => run.world.Reached s.registry) r where
  graph := rfl
  registry := rfl
  pure a := goesThrough_pure a
  bind h hf := h.bind hf
  record _ _ := goesThrough_modify fun _ => id
  note _ := goesThrough_modify fun _ => id
  coerce _ _ _ := goesThrough_inUser _
  resolve ho hnode source args := (hs.goesThrough_resolve ho hnode source args).zoom fun _ _ => rfl
  serialize _ _ _ := goesThrough_inUser _
  typing _ _ _ _ := goesThrough_inScope _
  siblings h := goesThrough_inPasses (forall_of_forall₂ h)
  items h := goesThrough_inPasses (forall_of_forall₂ h)

/-- Nothing suspends a query to such a schema. -/
theorem exists_course {root : ObjectNode ω} (hroot : s.root? .query = some root)
    (selections : List Selection) {w : World ω} (hw : w.Reached s.registry) : ∃ ms out run,
      Course ((Executor.inPasses s).execute selections root .null []) { world := w } ms out run ∧
        Unsuspended ms := by
  obtain ⟨ms, h, hms⟩ :=
    (hs.congruence_goesThrough.execute selections ⟨_, hroot⟩ .null []).course_run
      (s := { world := w }) hw
  exact ⟨ms, _, _, h, hms⟩

end Schema.NeverSuspends

/-! ## Requests -/

/-- If a query goes through without a suspension, by any executor that would show one, it writes the
same states in the same order whether its siblings are concurrent or not. All resolutions, codecs
and choosers, all middleware that pass and the outcomes of all fields are written, so the code
behind the query is called in the same order; and the data, the errors in their order, the journal,
the context and the instances are the same in the end. -/
theorem execute_unsuspended {e : Executor ω} (hsiblings : Candid e.siblings)
    (hitems : Candid e.items) {root : ObjectNode ω} (hroot : e.schema.root? .query = some root)
    {selections : List Selection} {w : World ω} {ms : List (Move (Run ω))} {out : Outcome}
    {run : Run ω}
    (h : Course (e.execute selections root .null []) { world := w } ms out run)
    (hms : Unsuspended ms) :
    (∀ concurrent,
      let e' := Executor.forOperation (e.schema.withConcurrentFields concurrent) .query
      Course (e'.execute selections root .null []) { world := w } ms out run) ∧
    (e.schema.withConcurrentFields true).execute .query selections w =
      (e.schema.withConcurrentFields false).execute .query selections w := by
  have course (concurrent : Bool) :
      let e' := Executor.forOperation (e.schema.withConcurrentFields concurrent) .query
      Course (e'.execute selections root .null []) { world := w } ms out run :=
    (congruence_leads hsiblings hitems concurrent).execute selections ⟨_, hroot⟩ .null [] _ _ _ _ h
      hms
  have response (concurrent : Bool) :
      (e.schema.withConcurrentFields concurrent).execute .query selections w =
        (Schema.respond out run, run.world) := by
    have hroot : (e.schema.withConcurrentFields concurrent).root? .query = some root := hroot
    rw [Schema.execute_of_root hroot, Schema.runWith, (course concurrent).run_eq hms]
  exact ⟨course, (response true).trans (response false).symm⟩

section Office

def entering (entry : String) : Routine (Scope (List String)) Unit :=
  Routine.modify fun s => { s with user := s.user ++ [entry] }

/-- A field that a clerk answers. -/
def errand (name : String) : FieldNode (List String) where
  name
  description := none
  type := .string
  arguments := []
  source := .method {
    name
    field := { typeName := "String", nullable := true }
    instanceToken := ⟨"Clerk"⟩
    parameters := []
    bindings := []
    method := fun _ _ => do
      entering name
      pure (.ok (.value (.str name))) } [{ token := ⟨"Audit"⟩ }]

/-- All code enters its calls into a book. -/
def office : Schema (List String) where
  graph := .ofQuery [("open", errand "open"), ("close", errand "close")]
  registry := ⟨[
    ⟨⟨"Clerk"⟩, .factory [] fun _ book => (.ok ⟨0, .held "Clerk" .null⟩, book ++ ["new Clerk"])⟩,
    ⟨⟨"Audit"⟩, .factory [] fun _ book =>
      (.ok ⟨1, .middleware ⟨fun _ _ _ => do
        entering "audit"
        pure (.ok (.bool true))⟩⟩, book ++ ["new Audit"])⟩]⟩
  configuration := {}

theorem office_deterministic : office.registry.Deterministic := by
  intro p hp dependencies build hsource ds ds' u u' _
  simp only [office, List.mem_cons, List.not_mem_nil, or_false] at hp
  obtain rfl | rfl := hp <;> cases hsource <;> exact .ok rfl

theorem office_neverSuspends : office.NeverSuspends where
  middleware {m} hm source args options := by
    obtain ⟨p, hp, _, _, i, hi, hm⟩ := hm.exists_made office_deterministic []
    simp only [office, List.mem_cons, List.not_mem_nil, or_false] at hp
    obtain rfl | rfl := hp <;> cases hi <;> cases hm
    exact .read fun _ => .write _ (.done _)
  method {o node r bindings} ho hnode hsource i args := by
    rw [ho.fields_ofQuery] at hnode
    simp only [Dict.values, List.map_cons, List.map_nil, List.mem_cons, List.not_mem_nil,
      or_false] at hnode
    obtain rfl | rfl := hnode <;> cases hsource <;> exact .read fun _ => .write _ (.done _)

theorem office_unsuspended : ∃ root ms out run,
    let e := Executor.inPasses office
    let selections := [.field "open" none [] [], .field "close" none [] []]
    let w : World (List String) := ⟨{}, [], []⟩
    Candid e.siblings ∧ Candid e.items ∧ office.root? .query = some root ∧
      Course (e.execute selections root .null []) { world := w } ms out run ∧ Unsuspended ms ∧
      (∀ concurrent,
        let e' := Executor.forOperation (office.withConcurrentFields concurrent) .query
        Course (e'.execute selections root .null []) { world := w } ms out run) ∧
      (office.withConcurrentFields true).execute .query selections w =
        (office.withConcurrentFields false).execute .query selections w := by
  obtain ⟨root, hroot⟩ : ∃ root, office.root? .query = some root := ⟨_, rfl⟩
  obtain ⟨ms, out, run, h, hms⟩ := office_neverSuspends.exists_course hroot
    [.field "open" none [] [], .field "close" none [] []] (w := ⟨{}, [], []⟩) (.fresh [])
  obtain ⟨hcourse, hresponse⟩ :=
    execute_unsuspended (e := .inPasses office) candid_inPasses candid_inPasses hroot h hms
  exact ⟨root, ms, out, run, candid_inPasses, candid_inPasses, hroot, h, hms, hcourse, hresponse⟩

end Office

end GraphAssembly
