import GraphAssembly.Proofs.Assembly.Assembled
import GraphAssembly.Proofs.Pipeline.Chain
import GraphAssembly.Proofs.Registry.Needs

/-!
# Courses of a field

The ways in which the pipeline of a field can go, one for each place where it may end.

1. `FieldCourse`.
2. The pipeline has these courses and no other ones.
3. The fields of an assembled graph.
-/

namespace GraphAssembly

open Routine

variable {ω : Type} {registry : Registry ω} {source : Json} {args : Dict Json}

/-! ## Courses -/

/-- The pipeline of a field with a method. The bindings are resolved first, all of them, by one
write; then the steps run; then the instance is asked for, and last the method is called. -/
inductive FieldCourse (registry : Registry ω) (resolver : Resolver ω)
    (bindings : List (Binding ω)) (source : Json) (args : Dict Json) (w : World ω) :
    List (Move (World ω)) → Except FieldError Resolved → World ω → Prop
  /-- A binding leads to no middleware. -/
  | unresolved {e : SequenceError} {t : Workshop ω}
    (h : Sequenced registry bindings w.workshop (.error e) t) :
    FieldCourse registry resolver bindings source args w [.writes (w.withWorkshop t)]
      (.error (.sequence e)) (w.withWorkshop t)
  /-- A step rejects. -/
  | rejected {steps : List (Step ω)} {t : Workshop ω} {ms : List (Move (World ω))}
    {e : MiddlewareError} {w' : World ω}
    (h : Sequenced registry bindings w.workshop (.ok steps) t)
    (hsteps : Chained source args steps (w.withWorkshop t) ms (.error e) w') :
    FieldCourse registry resolver bindings source args w (.writes (w.withWorkshop t) :: ms)
      (.error (.middleware e)) w'
  /-- There is no instance of the implementation. -/
  | unavailable {steps : List (Step ω)} {t t' : Workshop ω} {ms : List (Move (World ω))}
    {vs : List Json} {w' : World ω} {e : ResolutionError}
    (h : Sequenced registry bindings w.workshop (.ok steps) t)
    (hsteps : Chained source args steps (w.withWorkshop t) ms (.ok vs) w')
    (hi : registry.resolve resolver.instanceToken w'.workshop = (.error e, t')) :
    FieldCourse registry resolver bindings source args w
      (.writes (w.withWorkshop t) :: ms ++ [.writes (w'.withWorkshop t')])
      (.error (.resolution e)) (w'.withWorkshop t')
  | called {steps : List (Step ω)} {t t' : Workshop ω} {ms ms' : List (Move (World ω))}
    {vs : List Json} {w' w'' : World ω} {i : Instance ω} {answer : Except String Resolved}
    (h : Sequenced registry bindings w.workshop (.ok steps) t)
    (hsteps : Chained source args steps (w.withWorkshop t) ms (.ok vs) w')
    (hi : registry.resolve resolver.instanceToken w'.workshop = (.ok i, t'))
    (hm : Course ((resolver.method i (Arguments.expand resolver.parameters source args)).zoom
      World.scope World.withScope) (w'.withWorkshop t') ms' answer w'') :
    FieldCourse registry resolver bindings source args w
      (.writes (w.withWorkshop t) :: ms ++ .writes (w'.withWorkshop t') :: ms')
      (answer.mapError (.implementation resolver.name)) w''

/-! ## The pipeline -/

section Pipeline

variable {ε δ α : Type} {wrap : δ → ε} {w w' : World ω} {ms : List (Move (World ω))} {a : α} {e : ε}

section InWorkshop

variable {m : ExceptT δ (StateM (Workshop ω)) α}

theorem course_inWorkshop_iff {out : Except ε α} :
    Course (Pipeline.inWorkshop wrap m).run w ms out w' ↔ ∃ x t, m w.workshop = (x, t) ∧
      out = x.mapError wrap ∧ ms = [.writes (w.withWorkshop t)] ∧ w' = w.withWorkshop t := by
  refine course_adapt_iff.trans ⟨?_, ?_⟩
  · rintro ⟨x, rfl, h⟩
    obtain ⟨rfl, rfl, rfl⟩ := course_ofState_iff.1 h
    exact ⟨_, _, rfl, rfl, rfl, rfl⟩
  · rintro ⟨x, t, hm, rfl, rfl, rfl⟩
    refine ⟨x, rfl, course_ofState_iff.2 ?_⟩
    rw [show m.run w.workshop = (x, t) from hm]
    exact ⟨rfl, rfl, rfl⟩

theorem course_inWorkshop_ok_iff : Course (Pipeline.inWorkshop wrap m).run w ms (.ok a) w' ↔
    ∃ t, m w.workshop = (.ok a, t) ∧ ms = [.writes (w.withWorkshop t)] ∧
      w' = w.withWorkshop t := by
  rw [course_inWorkshop_iff]
  constructor
  · rintro ⟨x | x, t, hm, hx, h⟩
    · cases hx
    · cases hx
      exact ⟨t, hm, h⟩
  · rintro ⟨t, hm, h⟩
    exact ⟨_, t, hm, rfl, h⟩

theorem course_inWorkshop_error_iff : Course (Pipeline.inWorkshop wrap m).run w ms (.error e) w' ↔
    ∃ e' t, m w.workshop = (.error e', t) ∧ e = wrap e' ∧ ms = [.writes (w.withWorkshop t)] ∧
      w' = w.withWorkshop t := by
  rw [course_inWorkshop_iff]
  constructor
  · rintro ⟨x | x, t, hm, hx, h⟩
    · cases hx
      exact ⟨x, t, hm, rfl, h⟩
    · cases hx
  · rintro ⟨e', t, hm, rfl, h⟩
    exact ⟨_, t, hm, rfl, h⟩

end InWorkshop

section InScope

variable {r : Routine (Scope ω) (Except δ α)}

theorem course_inScope_ok_iff : Course (Pipeline.inScope wrap r).run w ms (.ok a) w' ↔
    Course (r.zoom World.scope World.withScope) w ms (.ok a) w' := by
  refine course_adapt_iff.trans ⟨?_, fun h => ⟨_, rfl, h⟩⟩
  rintro ⟨x | x, hx, h⟩
  · cases hx
  · cases hx
    exact h

theorem course_inScope_error_iff : Course (Pipeline.inScope wrap r).run w ms (.error e) w' ↔
    ∃ e', e = wrap e' ∧ Course (r.zoom World.scope World.withScope) w ms (.error e') w' := by
  refine course_adapt_iff.trans ⟨?_, ?_⟩
  · rintro ⟨x | x, hx, h⟩
    · cases hx
      exact ⟨x, rfl, h⟩
    · cases hx
  · rintro ⟨e', rfl, h⟩
    exact ⟨_, rfl, h⟩

end InScope

end Pipeline

section Fields

variable {resolver : Resolver ω} {bindings : List (Binding ω)} {w w' : World ω}
  {ms : List (Move (World ω))}

theorem course_bindings_ok_iff {x : Unit} :
    Course (Binding.runAll registry bindings source args).run w ms (.ok x) w' ↔
      ∃ steps t ms' vs, Sequenced registry bindings w.workshop (.ok steps) t ∧
        ms = .writes (w.withWorkshop t) :: ms' ∧
        Chained source args steps (w.withWorkshop t) ms' (.ok vs) w' := by
  rw [Binding.runAll, course_run_bind_iff]
  constructor
  · rintro (⟨e, ⟨⟩, -⟩ | ⟨first, steps, u, rest, rfl, hall, h⟩)
    obtain ⟨t, ht, rfl, rfl⟩ := course_inWorkshop_ok_iff.1 hall
    obtain ⟨e, ⟨⟩, -⟩ | ⟨ms', vs, u, _, rfl, hsteps, h⟩ := course_run_bind_iff.1 h
    obtain ⟨rfl, -, rfl⟩ := course_done_iff.1 h
    rw [List.append_nil]
    exact ⟨steps, t, ms', vs, sequenced_iff.2 ht, rfl,
      course_runAll_iff.1 (course_inScope_ok_iff.1 hsteps)⟩
  · rintro ⟨steps, t, ms', vs, hall, rfl, hsteps⟩
    refine .inr ⟨[_], steps, _, ms', rfl,
      course_inWorkshop_ok_iff.2 ⟨t, sequenced_iff.1 hall, rfl, rfl⟩, ?_⟩
    exact course_run_bind_iff.2 (.inr ⟨ms', vs, w', [], (List.append_nil ms').symm,
      course_inScope_ok_iff.2 (course_runAll_iff.2 hsteps), .done _ _⟩)

theorem course_bindings_error_iff {x : FieldError} :
    Course (Binding.runAll registry bindings source args).run w ms (.error x) w' ↔
      (∃ e t, x = .sequence e ∧ Sequenced registry bindings w.workshop (.error e) t ∧
        ms = [.writes (w.withWorkshop t)] ∧ w' = w.withWorkshop t) ∨
      ∃ steps t ms' e, x = .middleware e ∧ Sequenced registry bindings w.workshop (.ok steps) t ∧
        ms = .writes (w.withWorkshop t) :: ms' ∧
        Chained source args steps (w.withWorkshop t) ms' (.error e) w' := by
  rw [Binding.runAll, course_run_bind_iff]
  constructor
  · rintro (⟨e, ⟨⟩, hall⟩ | ⟨first, steps, u, rest, rfl, hall, h⟩)
    · obtain ⟨e, t, ht, rfl, rfl, rfl⟩ := course_inWorkshop_error_iff.1 hall
      exact .inl ⟨e, t, rfl, sequenced_iff.2 ht, rfl, rfl⟩
    · obtain ⟨t, ht, rfl, rfl⟩ := course_inWorkshop_ok_iff.1 hall
      obtain ⟨e, ⟨⟩, hrun⟩ | ⟨_, _, _, _, _, _, h⟩ := course_run_bind_iff.1 h
      · obtain ⟨e, rfl, hsteps⟩ := course_inScope_error_iff.1 hrun
        exact .inr ⟨steps, t, rest, e, rfl, sequenced_iff.2 ht, rfl, course_runAll_iff.1 hsteps⟩
      · cases (course_done_iff.1 h).2.1
  · rintro (⟨e, t, rfl, hall, rfl, rfl⟩ | ⟨steps, t, ms', e, rfl, hall, rfl, hsteps⟩)
    · exact .inl ⟨_, rfl,
        course_inWorkshop_error_iff.2 ⟨e, t, sequenced_iff.1 hall, rfl, rfl, rfl⟩⟩
    · refine .inr ⟨[_], steps, _, ms', rfl,
        course_inWorkshop_ok_iff.2 ⟨t, sequenced_iff.1 hall, rfl, rfl⟩, ?_⟩
      exact course_run_bind_iff.2 (.inl ⟨_, rfl,
        course_inScope_error_iff.2 ⟨e, rfl, course_runAll_iff.2 hsteps⟩⟩)

theorem course_call_iff {out : Except FieldError Resolved} :
    Course (resolver.call registry source args).run w ms out w' ↔
      (∃ e t, registry.resolve resolver.instanceToken w.workshop = (.error e, t) ∧
        out = .error (.resolution e) ∧ ms = [.writes (w.withWorkshop t)] ∧
        w' = w.withWorkshop t) ∨
      ∃ i t ms' answer, registry.resolve resolver.instanceToken w.workshop = (.ok i, t) ∧
        out = answer.mapError (.implementation resolver.name) ∧
        ms = .writes (w.withWorkshop t) :: ms' ∧
        Course ((resolver.method i (Arguments.expand resolver.parameters source args)).zoom
          World.scope World.withScope) (w.withWorkshop t) ms' answer w' := by
  rw [Resolver.call, course_run_bind_iff]
  constructor
  · rintro (⟨e, rfl, h⟩ | ⟨first, i, u, ms', rfl, h, hcall⟩)
    · obtain ⟨e, t, ht, rfl, rfl, rfl⟩ := course_inWorkshop_error_iff.1 h
      exact .inl ⟨e, t, ht, rfl, rfl, rfl⟩
    · obtain ⟨t, ht, rfl, rfl⟩ := course_inWorkshop_ok_iff.1 h
      obtain ⟨answer, rfl, hm⟩ := course_adapt_iff.1 hcall
      exact .inr ⟨i, t, ms', answer, ht, rfl, rfl, hm⟩
  · rintro (⟨e, t, ht, rfl, rfl, rfl⟩ | ⟨i, t, ms', answer, ht, rfl, rfl, hm⟩)
    · exact .inl ⟨_, rfl, course_inWorkshop_error_iff.2 ⟨e, t, ht, rfl, rfl, rfl⟩⟩
    · exact .inr ⟨[_], i, _, ms', rfl, course_inWorkshop_ok_iff.2 ⟨t, ht, rfl, rfl⟩,
        course_adapt_iff.2 ⟨answer, rfl, hm⟩⟩

/-- The pipeline of a field has the courses that are listed, and no other ones. -/
theorem course_resolve_iff {node : FieldNode ω} (hnode : node.source = .method resolver bindings)
    {out : Except FieldError Resolved} :
    Course (node.resolve registry source args).run w ms out w' ↔
      FieldCourse registry resolver bindings source args w ms out w' := by
  rw [FieldNode.resolve, hnode]
  dsimp only
  rw [course_run_bind_iff]
  constructor
  · rintro (⟨x, rfl, h⟩ | ⟨first, _, u, rest, rfl, h, hcall⟩)
    · obtain ⟨e, t, rfl, hall, rfl, rfl⟩ | ⟨steps, t, ms', e, rfl, hall, rfl, hsteps⟩ :=
        course_bindings_error_iff.1 h
      · exact .unresolved hall
      · exact .rejected hall hsteps
    · obtain ⟨steps, t, ms', vs, hall, rfl, hsteps⟩ := course_bindings_ok_iff.1 h
      obtain ⟨e, t', hi, rfl, rfl, rfl⟩ | ⟨i, t', ms'', answer, hi, rfl, rfl, hm⟩ :=
        course_call_iff.1 hcall
      · exact .unavailable hall hsteps hi
      · exact .called hall hsteps hi hm
  · intro h
    cases h with
    | unresolved hall =>
      exact .inl ⟨_, rfl, course_bindings_error_iff.2 (.inl ⟨_, _, rfl, hall, rfl, rfl⟩)⟩
    | rejected hall hsteps =>
      exact .inl ⟨_, rfl,
        course_bindings_error_iff.2 (.inr ⟨_, _, _, _, rfl, hall, rfl, hsteps⟩)⟩
    | unavailable hall hsteps hi =>
      exact .inr ⟨_, (), _, _, rfl, course_bindings_ok_iff.2 ⟨_, _, _, _, hall, rfl, hsteps⟩,
        course_call_iff.2 (.inl ⟨_, _, hi, rfl, rfl, rfl⟩)⟩
    | called hall hsteps hi hm =>
      exact .inr ⟨_, (), _, _, rfl, course_bindings_ok_iff.2 ⟨_, _, _, _, hall, rfl, hsteps⟩,
        course_call_iff.2 (.inr ⟨_, _, _, _, hi, rfl, rfl, hm⟩)⟩

end Fields

/-! ## Assembled graphs -/

/-- The courses of a field that a resolver is behind. The bindings in force are resolved before any
step runs, and a binding that does not need the instance of the implementation is resolved as if
there were another provider of it, or none. -/
theorem resolver_courses {b : Blueprint ω} {r : Registry ω} {c : Configuration}
    {start : Workshop ω} {g : Graph ω} (hg : ((b.assemble r c) start).1 = .ok g)
    {i : ObjectImplementation ω} (hi : i ∈ b.parts.implementations) {name : String}
    {resolver : Resolver ω} (hr : (name, resolver) ∈ i.resolvers.entries) :
    ∃ o node, g.object? i.name = some o ∧ Dict.get? o.fields name = some node ∧
      (∀ source args w ms out w', Course (node.resolve r source args).run w ms out w' ↔
        FieldCourse r resolver (resolver.bindingsInForce i.bindings) source args w ms out w') ∧
      ∀ binding ∈ resolver.bindingsInForce i.bindings,
        ¬ r.Needs binding.token resolver.instanceToken →
          ∀ r' : Registry ω, (∀ k, k ≠ resolver.instanceToken → r'.provider? k = r.provider? k) →
            r'.resolve binding.token = r.resolve binding.token := by
  obtain ⟨t, ht⟩ := Blueprint.exists_assembled hg
  obtain ⟨o, ho, hnode⟩ := ht.get?_resolved hi hr
  refine ⟨o, _, ho, hnode, fun source args w ms out w' => course_resolve_iff rfl, ?_⟩
  exact fun binding _ hneeds r' hr' => Registry.resolve_of_not_needs hneeds hr'

section Audited

open Registry

def greeting : Resolver (List String) where
  name := "greeting"
  field := { typeName := "String", nullable := true }
  instanceToken := ⟨"Alpha"⟩
  parameters := []
  bindings := []
  method := fun _ _ => pure (.ok (.value (.str "hi")))

/-- Two middleware are bound to all fields: an audit, and one that is missing. -/
def greeter : ObjectImplementation (List String) where
  name := "Query"
  instanceToken := ⟨"Alpha"⟩
  resolvers := .ofList [("greeting", greeting)]
  bindings := [{ token := ⟨"Audit"⟩ }, { token := ⟨"Missing"⟩ }]

def audited : Blueprint (List String) where
  rootQuery := "Query"
  components := [.implementation greeter]

/-- The audit depends on the instance of the implementation. The log tells which factories have
run. -/
def auditing : Registry (List String) where
  providers := [
    ⟨⟨"Alpha"⟩, .factory [] fun _ log => (.ok ⟨0, .held "Alpha" .null⟩, log ++ ["new Alpha"])⟩,
    ⟨⟨"Audit"⟩, .factory [⟨"Alpha"⟩] fun _ log =>
      (.ok ⟨1, .middleware ⟨fun _ _ _ => pure (.ok (.bool true))⟩⟩, log ++ ["new Audit"])⟩]

theorem audited_courses : ∃ g, ((audited.assemble auditing {}) ⟨[], []⟩).1 = .ok g ∧
    greeter ∈ audited.parts.implementations ∧ ("greeting", greeting) ∈ greeter.resolvers.entries ∧
      ∃ o node, g.object? "Query" = some o ∧ Dict.get? o.fields "greeting" = some node ∧
        ∀ source args w ms out w', Course (node.resolve auditing source args).run w ms out w' ↔
          FieldCourse auditing greeting (greeting.bindingsInForce greeter.bindings) source args w
            ms out w' := by
  obtain ⟨g, hg⟩ : ∃ g, ((audited.assemble auditing {}) ⟨[], []⟩).1 = .ok g := ⟨_, rfl⟩
  have hi : greeter ∈ audited.parts.implementations := List.mem_singleton.2 rfl
  have hr : ("greeting", greeting) ∈ greeter.resolvers.entries := List.mem_singleton.2 rfl
  obtain ⟨o, node, ho, hnode, hcourses, -⟩ := resolver_courses hg hi hr
  exact ⟨g, hg, hi, hr, o, node, ho, hnode, hcourses⟩

theorem resolveFrom_alpha {chain : List Token} (h : (⟨"Alpha"⟩ : Token) ∉ chain)
    (log : List String) : auditing.resolveFrom chain ⟨"Alpha"⟩ ⟨[], log⟩ =
      (.ok ⟨0, .held "Alpha" .null⟩,
        ⟨[(⟨"Alpha"⟩, ⟨0, .held "Alpha" .null⟩)], log ++ ["new Alpha"]⟩) := by
  rw [resolveFrom_new (p := ⟨⟨"Alpha"⟩, _⟩) rfl rfl h]
  rfl

theorem resolve_audit : ∃ m t, auditing.resolve ⟨"Audit"⟩ ⟨[], []⟩ = (.ok ⟨1, .middleware m⟩, t) ∧
    t.user = ["new Alpha", "new Audit"] := by
  rw [Registry.resolve, resolveFrom_new (p := ⟨⟨"Audit"⟩, _⟩) rfl rfl List.not_mem_nil]
  dsimp only [make]
  rw [bind_apply, List.mapM_cons, bind_apply, dependency_apply, resolveFrom_alpha (by decide)]
  exact ⟨_, _, rfl, rfl⟩

/-- The greeting fails since a middleware is missing, and still the factory of the implementation
has run, for the audit. -/
theorem audited_runs_factory : ∃ g o node w', ((audited.assemble auditing {}) ⟨[], []⟩).1 = .ok g ∧
    g.object? "Query" = some o ∧ Dict.get? o.fields "greeting" = some node ∧
    (node.resolve auditing .null []).run.run ⟨.empty, [], []⟩ =
      (.error (.sequence (.unknownMiddleware ⟨"Missing"⟩ (.unknownToken ⟨"Missing"⟩))), w') ∧
    w'.user = ["new Alpha", "new Audit"] := by
  obtain ⟨m, t, haudit, hlog⟩ := resolve_audit
  have hmissing : Fails auditing { token := ⟨"Missing"⟩ } t
      (.unknownMiddleware ⟨"Missing"⟩ (.unknownToken ⟨"Missing"⟩)) t :=
    .unknown (resolveFrom_unknown rfl)
  have hall : Sequenced auditing [{ token := ⟨"Audit"⟩ }, { token := ⟨"Missing"⟩ }] ⟨[], []⟩
      (.error (.unknownMiddleware ⟨"Missing"⟩ (.unknownToken ⟨"Missing"⟩))) t :=
    .failed (List.singleton_append).symm (.cons haudit rfl (.nil t)) hmissing
  let w : World (List String) := ⟨.empty, [], []⟩
  refine ⟨_, _, _, w.withWorkshop t, rfl, rfl, rfl, ?_, hlog⟩
  have hcourse : FieldCourse auditing greeting greeter.bindings .null [] w
      [.writes (w.withWorkshop t)]
      (.error (.sequence (.unknownMiddleware ⟨"Missing"⟩ (.unknownToken ⟨"Missing"⟩))))
      (w.withWorkshop t) := .unresolved hall
  exact ((course_resolve_iff rfl).2 hcourse).run_eq (by simp)

end Audited

end GraphAssembly
