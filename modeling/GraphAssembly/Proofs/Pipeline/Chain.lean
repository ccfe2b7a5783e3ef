import GraphAssembly.Pipeline
import GraphAssembly.Proofs.Registry.Answers
import GraphAssembly.Proofs.Routine.Course

/-!
# Courses of a middleware chain

What becomes of the bindings of a field, and then of the steps that they lead to.

1. `Sequenced`: all bindings are resolved, or the first one that fails ends the resolution.
2. `Chained`: all steps pass, or the first one that rejects ends the chain.
-/

namespace GraphAssembly

open Routine

variable {ω : Type} {registry : Registry ω} {source : Json} {args : Dict Json}

/-! ## Bindings -/

/-- Each binding leads to a middleware, in the state that the ones before it leave. -/
inductive Resolves (registry : Registry ω) :
    List (Binding ω) → Workshop ω → List (Step ω) → Workshop ω → Prop
  | nil (t : Workshop ω) : Resolves registry [] t [] t
  | cons {b : Binding ω} {bs : List (Binding ω)} {i : Instance ω} {m : Middleware ω}
    {steps : List (Step ω)} {t t' t'' : Workshop ω} (hi : registry.resolve b.token t = (.ok i, t'))
    (hm : i.asMiddleware? = some m) (h : Resolves registry bs t' steps t'') :
    Resolves registry (b :: bs) t (⟨b.token, m, b.options, b.resultName⟩ :: steps) t''

/-- The binding leads to no instance, or to one that is no middleware. -/
inductive Fails (registry : Registry ω) (b : Binding ω) (t : Workshop ω) :
    SequenceError → Workshop ω → Prop
  | unknown {e : ResolutionError} {t' : Workshop ω}
    (h : registry.resolve b.token t = (.error e, t')) :
    Fails registry b t (.unknownMiddleware b.token e) t'
  | notExecutable {i : Instance ω} {t' : Workshop ω}
    (h : registry.resolve b.token t = (.ok i, t')) (hi : i.asMiddleware? = none) :
    Fails registry b t (.notExecutable b.token) t'

/-- What becomes of all bindings. The first one that fails ends the resolution. -/
inductive Sequenced (registry : Registry ω) (bindings : List (Binding ω)) (t : Workshop ω) :
    Except SequenceError (List (Step ω)) → Workshop ω → Prop
  | resolved {steps : List (Step ω)} {t' : Workshop ω}
    (h : Resolves registry bindings t steps t') : Sequenced registry bindings t (.ok steps) t'
  | failed {before after : List (Binding ω)} {b : Binding ω} {steps : List (Step ω)}
    {u t' : Workshop ω} {e : SequenceError} (hsplit : bindings = before ++ b :: after)
    (hbefore : Resolves registry before t steps u) (hb : Fails registry b u e t') :
    Sequenced registry bindings t (.error e) t'

section Bindings

variable {b : Binding ω} {bs bindings : List (Binding ω)} {t t' u : Workshop ω}

theorem ofBinding_apply (registry : Registry ω) (b : Binding ω) (t : Workshop ω) :
    Step.ofBinding registry b t = match registry.resolve b.token t with
      | (.ok i, t') => (Step.ofInstance b i, t')
      | (.error e, t') => (.error (.unknownMiddleware b.token e), t') := by
  rw [Step.ofBinding, bind_apply, show ExceptT.adapt (SequenceError.unknownMiddleware b.token)
    (registry.resolve b.token) t = ((registry.resolve b.token t).1.mapError _,
      (registry.resolve b.token t).2) from rfl]
  rcases registry.resolve b.token t with ⟨e | i, t'⟩
  · rfl
  · dsimp only [Except.mapError]
    cases Step.ofInstance b i <;> rfl

theorem Fails.apply {e : SequenceError} (h : Fails registry b t e t') :
    Step.ofBinding registry b t = (.error e, t') := by
  rw [ofBinding_apply]
  cases h with
  | unknown h => rw [h]
  | notExecutable h hi =>
    rw [h]
    dsimp only [Step.ofInstance]
    rw [hi]

theorem ofBinding_of_middleware {i : Instance ω} {m : Middleware ω}
    (hi : registry.resolve b.token t = (.ok i, t')) (hm : i.asMiddleware? = some m) :
    Step.ofBinding registry b t = (.ok ⟨b.token, m, b.options, b.resultName⟩, t') := by
  rw [ofBinding_apply, hi]
  dsimp only [Step.ofInstance]
  rw [hm]

theorem ofBindings_cons_apply (registry : Registry ω) (b : Binding ω) (bs : List (Binding ω))
    (t : Workshop ω) :
    Step.ofBindings registry (b :: bs) t = match Step.ofBinding registry b t with
      | (.ok s, t') => match Step.ofBindings registry bs t' with
        | (.ok steps, t'') => (.ok (s :: steps), t'')
        | (.error e, t'') => (.error e, t'')
      | (.error e, t') => (.error e, t') := by
  rw [Step.ofBindings, List.mapM_cons, bind_apply]
  rcases Step.ofBinding registry b t with ⟨e | s, t'⟩
  · rfl
  · dsimp only
    rw [bind_apply, ← Step.ofBindings]
    rcases Step.ofBindings registry bs t' with ⟨e | steps, t''⟩ <;> rfl

theorem Resolves.apply {steps : List (Step ω)} (h : Resolves registry bs t steps t') :
    Step.ofBindings registry bs t = (.ok steps, t') := by
  induction h with
  | nil t => rfl
  | cons hi hm _ ih =>
    rw [ofBindings_cons_apply, ofBinding_of_middleware hi hm]
    dsimp only
    rw [ih]

theorem Resolves.apply_failed {steps : List (Step ω)} {e : SequenceError}
    (h : Resolves registry bs t steps u) (hb : Fails registry b u e t') (after : List (Binding ω)) :
    Step.ofBindings registry (bs ++ b :: after) t = (.error e, t') := by
  induction h with
  | nil t => rw [List.nil_append, ofBindings_cons_apply, hb.apply]
  | cons hi hm _ ih =>
    rw [List.cons_append, ofBindings_cons_apply, ofBinding_of_middleware hi hm]
    dsimp only
    rw [ih hb]

theorem sequenced_ofBindings (registry : Registry ω) (bindings : List (Binding ω))
    (t : Workshop ω) : Sequenced registry bindings t (Step.ofBindings registry bindings t).1
      (Step.ofBindings registry bindings t).2 := by
  induction bindings generalizing t with
  | nil => exact .resolved (.nil t)
  | cons b bs ih =>
    have failed {e : SequenceError} {t' : Workshop ω} (hb : Fails registry b t e t') :
        Sequenced registry (b :: bs) t (Step.ofBindings registry (b :: bs) t).1
          (Step.ofBindings registry (b :: bs) t).2 := by
      rw [ofBindings_cons_apply, hb.apply]
      exact .failed (List.nil_append (b :: bs)).symm (.nil t) hb
    rcases hi : registry.resolve b.token t with ⟨e | i, u⟩
    · exact failed (.unknown hi)
    · cases hm : i.asMiddleware? with
      | none => exact failed (.notExecutable hi hm)
      | some m =>
        rw [ofBindings_cons_apply, ofBinding_of_middleware hi hm]
        have hrest := ih u
        dsimp only
        generalize Step.ofBindings registry bs u = answer at hrest
        obtain ⟨x, t'⟩ := answer
        cases hrest with
        | resolved h => exact .resolved (.cons hi hm h)
        | @failed before after b' _ _ _ _ hsplit hbefore hb =>
          have : b :: bs = (b :: before) ++ b' :: after := congrArg (b :: ·) hsplit
          exact .failed this (.cons hi hm hbefore) hb

theorem sequenced_iff {x : Except SequenceError (List (Step ω))} :
    Sequenced registry bindings t x t' ↔ Step.ofBindings registry bindings t = (x, t') := by
  constructor
  · intro h
    cases h with
    | resolved h => exact h.apply
    | failed hsplit hbefore hb => exact hsplit ▸ hbefore.apply_failed hb _
  · intro h
    have := sequenced_ofBindings registry bindings t
    rwa [h] at this

end Bindings

/-! ## Steps -/

namespace World

/-- A result is merged into the slot that a step names for it, if it names one. -/
def merged (slot? : Option String) (result : Json) (w : World ω) : World ω :=
  match slot? with
  | some slot => { w with context := w.context.merge slot result }
  | none => w

theorem withScope_store (s : Step ω) (result : Json) (w : World ω) :
    w.withScope (s.store result w.scope) = w.merged s.resultName result := by
  unfold Step.store merged
  cases s.resultName <;> rfl

end World

/-- A course of the code of one step, which answers for the world that it leaves. -/
def Answers (source : Json) (args : Dict Json) (s : Step ω) (w : World ω)
    (ms : List (Move (World ω))) (answer : Except String Json) (w' : World ω) : Prop :=
  Course ((s.middleware.execute source args s.options).zoom World.scope World.withScope) w ms
    answer w'

/-- The step answers with a truthy value, which is merged at once. -/
inductive Passes (source : Json) (args : Dict Json) (s : Step ω) (w : World ω) :
    List (Move (World ω)) → Json → World ω → Prop
  | truthy {ms : List (Move (World ω))} {v : Json} {w' : World ω}
    (h : Answers source args s w ms (.ok v) w') (hv : v.isTruthy = true) :
    Passes source args s w (ms ++ [.writes (w'.merged s.resultName v)]) v
      (w'.merged s.resultName v)

/-- The step fails with a message, or answers with a falsy value; nothing is merged. -/
inductive Rejects (source : Json) (args : Dict Json) (s : Step ω) (w : World ω) :
    List (Move (World ω)) → Json → World ω → Prop
  | error {ms : List (Move (World ω))} {message : String} {w' : World ω}
    (h : Answers source args s w ms (.error message) w') :
    Rejects source args s w ms (.str message) w'
  | falsy {ms : List (Move (World ω))} {v : Json} {w' : World ω}
    (h : Answers source args s w ms (.ok v) w') (hv : v.isTruthy = false) :
    Rejects source args s w ms v w'

/-- All steps pass, each in the world that the one before leaves. -/
inductive AllPass (source : Json) (args : Dict Json) :
    List (Step ω) → World ω → List (Move (World ω)) → List Json → World ω → Prop
  | nil (w : World ω) : AllPass source args [] w [] [] w
  | cons {s : Step ω} {steps : List (Step ω)} {w w' w'' : World ω} {ms ms' : List (Move (World ω))}
    {v : Json} {vs : List Json} (h : Passes source args s w ms v w')
    (hs : AllPass source args steps w' ms' vs w'') :
    AllPass source args (s :: steps) w (ms ++ ms') (v :: vs) w''

/-- What becomes of all steps. The first one that rejects ends the chain. -/
inductive Chained (source : Json) (args : Dict Json) (steps : List (Step ω)) (w : World ω) :
    List (Move (World ω)) → Except MiddlewareError (List Json) → World ω → Prop
  | passed {ms : List (Move (World ω))} {vs : List Json} {w' : World ω}
    (h : AllPass source args steps w ms vs w') : Chained source args steps w ms (.ok vs) w'
  | rejected {before after : List (Step ω)} {s : Step ω} {u w' : World ω}
    {ms ms' : List (Move (World ω))} {vs : List Json} {reason : Json}
    (hsplit : steps = before ++ s :: after) (hbefore : AllPass source args before w ms vs u)
    (hs : Rejects source args s u ms' reason w') :
    Chained source args steps w (ms ++ ms') (.error ⟨s.token.name, reason⟩) w'

section Steps

variable {s : Step ω} {steps : List (Step ω)} {w w' : World ω} {ms : List (Move (World ω))}

theorem course_step_iff {x : Except MiddlewareError Json} :
    Course ((s.run source args).zoom World.scope World.withScope) w ms x w' ↔
      (∃ v, x = .ok v ∧ Passes source args s w ms v w') ∨
      ∃ reason, x = .error ⟨s.token.name, reason⟩ ∧ Rejects source args s w ms reason w' := by
  rw [Step.run, zoom_bind, course_bind_iff]
  constructor
  · rintro ⟨first, answer, u, rest, rfl, hanswer, h⟩
    cases answer with
    | error message =>
      obtain ⟨rfl, rfl, rfl⟩ := course_done_iff.1 h
      rw [List.append_nil]
      exact .inr ⟨_, rfl, .error hanswer⟩
    | ok v =>
      by_cases hv : v.isTruthy = true
      · simp only [if_pos hv] at h
        rw [zoom_bind, course_bind_iff] at h
        obtain ⟨_, _, _, _, rfl, hmerge, h⟩ := h
        obtain ⟨rfl, rfl⟩ := course_modify_iff.1 hmerge
        obtain ⟨rfl, rfl, rfl⟩ := course_done_iff.1 h
        rw [World.withScope_store, List.append_nil]
        exact .inl ⟨v, rfl, .truthy hanswer hv⟩
      · simp only [if_neg hv] at h
        obtain ⟨rfl, rfl, rfl⟩ := course_done_iff.1 h
        rw [List.append_nil]
        exact .inr ⟨v, rfl, .falsy hanswer (by simpa using hv)⟩
  · rintro (⟨v, rfl, h⟩ | ⟨reason, rfl, h⟩)
    · obtain ⟨h, hv⟩ := h
      refine ⟨_, _, _, _, rfl, h, ?_⟩
      simp only [if_pos hv]
      rw [zoom_bind, course_bind_iff, ← World.withScope_store]
      exact ⟨_, (), _, [], rfl, course_modify_iff.2 ⟨rfl, rfl⟩, .done _ _⟩
    · cases h with
      | error h => exact ⟨_, _, _, [], (List.append_nil ms).symm, h, .done _ _⟩
      | falsy h hv =>
        refine ⟨_, _, _, [], (List.append_nil ms).symm, h, ?_⟩
        simp only [hv]
        exact .done _ _

theorem runAll_cons (s : Step ω) (steps : List (Step ω)) (source : Json) (args : Dict Json) :
    Step.runAll (s :: steps) source args = s.run source args >>= fun
      | .error e => pure (.error e)
      | .ok v => Step.runAll steps source args >>= fun x => pure (x.map (v :: ·)) := by
  refine congrArg (Routine.bind _) (funext fun x => ?_)
  cases x with
  | error e => rfl
  | ok v => exact congrArg (Routine.bind _) (funext fun x => by cases x <;> rfl)

/-- What holds of the code of all steps, and is kept from one routine to the next, holds of the
chain. -/
theorem runAll_of_execute {P : ∀ α, Routine (Scope ω) α → Prop}
    (hpure : ∀ {α} (a : α), P α (pure a))
    (hbind : ∀ {α β} {r : Routine (Scope ω) α} {f : α → Routine (Scope ω) β}, P α r →
      (∀ a, P β (f a)) → P β (r >>= f))
    (hmodify : ∀ f, P Unit (Routine.modify f)) {source : Json} {args : Dict Json}
    (h : ∀ s ∈ steps, P _ (s.middleware.execute source args s.options)) :
    P _ (Step.runAll steps source args) := by
  induction steps with
  | nil => exact hpure _
  | cons s steps ih =>
    have hrun : P _ (s.run source args) := by
      refine hbind (h s List.mem_cons_self) fun answer => ?_
      cases answer with
      | error reason => exact hpure _
      | ok v =>
        dsimp only
        split
        · exact hbind (hmodify _) fun _ => hpure _
        · exact hpure _
    rw [runAll_cons]
    refine hbind hrun fun x => ?_
    cases x with
    | error e => exact hpure _
    | ok v => exact hbind (ih fun q hq => h q (List.mem_cons_of_mem s hq)) fun _ => hpure _

theorem Passes.course_runAll {u : World ω} {ms' : List (Move (World ω))} {v : Json}
    {x : Except MiddlewareError (List Json)} (hs : Passes source args s w ms v u)
    (h : Course ((Step.runAll steps source args).zoom World.scope World.withScope) u ms' x w') :
    Course ((Step.runAll (s :: steps) source args).zoom World.scope World.withScope) w (ms ++ ms')
      (x.map (v :: ·)) w' := by
  rw [runAll_cons, zoom_bind, course_bind_iff]
  refine ⟨ms, .ok v, u, ms', rfl, course_step_iff.2 (.inl ⟨v, rfl, hs⟩), ?_⟩
  rw [zoom_bind, course_bind_iff]
  exact ⟨ms', x, w', [], (List.append_nil _).symm, h, .done _ _⟩

theorem Rejects.course_runAll {reason : Json} (hs : Rejects source args s w ms reason w')
    (steps : List (Step ω)) :
    Course ((Step.runAll (s :: steps) source args).zoom World.scope World.withScope) w ms
      (.error ⟨s.token.name, reason⟩) w' := by
  rw [runAll_cons, zoom_bind, course_bind_iff]
  exact ⟨ms, .error _, w', [], (List.append_nil _).symm,
    course_step_iff.2 (.inr ⟨reason, rfl, hs⟩), .done _ _⟩

theorem AllPass.course_runAll {before : List (Step ω)} {u : World ω}
    {ms' : List (Move (World ω))} {vs : List Json} {x : Except MiddlewareError (List Json)}
    (hbefore : AllPass source args before w ms vs u)
    (h : Course ((Step.runAll steps source args).zoom World.scope World.withScope) u ms' x w') :
    Course ((Step.runAll (before ++ steps) source args).zoom World.scope World.withScope) w
      (ms ++ ms') (x.map (vs ++ ·)) w' := by
  induction hbefore with
  | nil w =>
    have : x.map ([] ++ ·) = x := by cases x <;> rfl
    rwa [List.nil_append, List.nil_append, this]
  | @cons _ _ _ _ _ _ _ v vs hs _ ih =>
    have : x.map (v :: vs ++ ·) = (x.map (vs ++ ·)).map (v :: ·) := by cases x <;> rfl
    rw [List.append_assoc, this]
    exact hs.course_runAll (ih h)

theorem course_runAll_iff {x : Except MiddlewareError (List Json)} :
    Course ((Step.runAll steps source args).zoom World.scope World.withScope) w ms x w' ↔
      Chained source args steps w ms x w' := by
  constructor
  · intro h
    induction steps generalizing w ms x with
    | nil =>
      obtain ⟨rfl, rfl, rfl⟩ := course_done_iff.1 h
      exact .passed (.nil w')
    | cons s steps ih =>
      rw [runAll_cons, zoom_bind, course_bind_iff] at h
      obtain ⟨first, y, u, rest, rfl, hstep, h⟩ := h
      obtain ⟨v, rfl, hpasses⟩ | ⟨reason, rfl, hrejects⟩ := course_step_iff.1 hstep
      · dsimp only at h
        rw [zoom_bind, course_bind_iff] at h
        obtain ⟨later, y, u', _, rfl, hlater, h⟩ := h
        obtain ⟨rfl, rfl, rfl⟩ := course_done_iff.1 h
        rw [List.append_nil]
        cases ih hlater with
        | passed h => exact .passed (.cons hpasses h)
        | @rejected before after s' _ _ _ _ _ _ hsplit hbefore hs =>
          have : s :: steps = (s :: before) ++ s' :: after := congrArg (s :: ·) hsplit
          rw [← List.append_assoc]
          exact .rejected this (.cons hpasses hbefore) hs
      · obtain ⟨rfl, rfl, rfl⟩ := course_done_iff.1 h
        rw [List.append_nil]
        exact .rejected (List.nil_append (s :: steps)).symm (.nil w) hrejects
  · intro h
    cases h with
    | passed h =>
      have hnil : Course ((Step.runAll [] source args).zoom World.scope World.withScope) w' []
        (.ok []) w' := .done _ w'
      simpa only [Except.map, List.append_nil] using h.course_runAll hnil
    | rejected hsplit hbefore hs =>
      rw [hsplit]
      exact hbefore.course_runAll (hs.course_runAll _)

end Steps

end GraphAssembly
