import GraphAssembly.Proofs.Pipeline.Chain
import GraphAssembly.Proofs.Routine.Gives

/-!
# Fields with a fixed outcome

The instances that a deterministic registry gives do not depend on what it has been used for. If in
addition the code of a field has one possible result for its arguments, the field has one possible
outcome for its source and its arguments, at whatever time it is resolved.

1. What a registry in use offers.
2. `Pipeline.Settles`.
3. Middleware chains, calls, and whole fields.
-/

namespace GraphAssembly

open Routine

variable {ω : Type} {registry : Registry ω}

/-! ## Registries in use -/

/-- The registry may come to give this middleware. -/
def Registry.Offers (registry : Registry ω) (m : Middleware ω) : Prop :=
  ∃ t w i w', registry.Reached w ∧ registry.resolve t w = (.ok i, w') ∧ i.asMiddleware? = some m

theorem Instance.Same.asMiddleware? {i j : Instance ω} (h : i.Same j) :
    i.asMiddleware? = j.asMiddleware? := by
  rw [Instance.asMiddleware?, Instance.asMiddleware?, show i.content = j.content from h]

/-- What a deterministic registry offers is made by one of its providers, in any state. -/
theorem Registry.Offers.exists_made (hr : registry.Deterministic) (u : ω) {m : Middleware ω}
    (h : registry.Offers m) : ∃ p ∈ registry.providers, ∃ dependency t i,
      made u dependency t p.source = .ok i ∧ i.asMiddleware? = some m := by
  obtain ⟨t, w, i, w', hw, hi, hm⟩ := h
  have := (resolveFrom_answered hr [] t w (hw.keeps hr u) nofun).alike
  rw [show registry.resolveFrom [] t w = (.ok i, w') from hi] at this
  obtain ⟨j, hj, hsame⟩ := this.exists_ok
  cases hp : registry.provider? t with
  | none =>
    rw [answerFrom_unknown hp] at hj
    cases hj
  | some p =>
    rw [answerFrom_new hp List.not_mem_nil] at hj
    exact ⟨p, List.mem_of_find?_eq_some hp, _, t, j, hj, hsame.asMiddleware?.symm.trans hm⟩

theorem ofBinding_state (registry : Registry ω) (b : Binding ω) (w : Workshop ω) :
    (Step.ofBinding registry b w).2 = (registry.resolve b.token w).2 := by
  rw [ofBinding_apply]
  rcases registry.resolve b.token w with ⟨_ | _, _⟩ <;> rfl

theorem reached_ofBindings (bindings : List (Binding ω)) {w : Workshop ω}
    (hw : registry.Reached w) : registry.Reached (Step.ofBindings registry bindings w).2 := by
  induction bindings generalizing w with
  | nil => exact hw
  | cons b bs ih =>
    have hb : registry.Reached (Step.ofBinding registry b w).2 :=
      ofBinding_state registry b w ▸ hw.asked b.token
    rw [ofBindings_cons_apply]
    generalize Step.ofBinding registry b w = answer at hb
    obtain ⟨_ | s, w'⟩ := answer
    · exact hb
    · have hbs := ih hb
      dsimp only at hbs ⊢
      generalize Step.ofBindings registry bs w' = answers at hbs
      obtain ⟨_ | _, _⟩ := answers <;> exact hbs

/-- The steps of a field come from middleware that the registry offers. -/
theorem Resolves.offers {bindings : List (Binding ω)} {steps : List (Step ω)} {w w' : Workshop ω}
    (h : Resolves registry bindings w steps w') (hw : registry.Reached w) :
    ∀ s ∈ steps, registry.Offers s.middleware := by
  induction h with
  | nil => exact fun _ h => absurd h List.not_mem_nil
  | @cons b bs i m steps w w' w'' hi hm _ ih =>
    have hreached := hw.asked b.token
    rw [hi] at hreached
    exact List.forall_mem_cons.2 ⟨⟨b.token, w, i, w', hw, hi, hm⟩, ih hreached⟩

section Deterministic

variable (hr : registry.Deterministic) {w w' : Workshop ω} (hw : registry.Reached w)
  (hw' : registry.Reached w')

include hr hw hw'

theorem ofBinding_fixed (b : Binding ω) :
    (Step.ofBinding registry b w).1 = (Step.ofBinding registry b w').1 := by
  have := Registry.resolve_alike hr hw hw' b.token
  rw [ofBinding_apply, ofBinding_apply]
  generalize registry.resolve b.token w = answer at this
  generalize registry.resolve b.token w' = answer' at this
  obtain ⟨x, v⟩ := answer
  obtain ⟨x', v'⟩ := answer'
  cases this with
  | error e => rfl
  | @ok i j h =>
    dsimp only [Step.ofInstance]
    rw [h.asMiddleware?]

theorem ofBindings_fixed (bindings : List (Binding ω)) :
    (Step.ofBindings registry bindings w).1 = (Step.ofBindings registry bindings w').1 := by
  induction bindings generalizing w w' with
  | nil => rfl
  | cons b bs ih =>
    have hb := ofBinding_fixed hr hw hw' b
    have hreached : registry.Reached (Step.ofBinding registry b w).2 :=
      ofBinding_state registry b w ▸ hw.asked b.token
    have hreached' : registry.Reached (Step.ofBinding registry b w').2 :=
      ofBinding_state registry b w' ▸ hw'.asked b.token
    rw [ofBindings_cons_apply, ofBindings_cons_apply]
    generalize Step.ofBinding registry b w = answer at hb hreached
    generalize Step.ofBinding registry b w' = answer' at hb hreached'
    obtain ⟨x, v⟩ := answer
    obtain ⟨x', v'⟩ := answer'
    obtain rfl : x = x' := hb
    cases x with
    | error e => rfl
    | ok s =>
      have hbs := ih hreached hreached'
      dsimp only at hbs ⊢
      generalize Step.ofBindings registry bs v = answers at hbs
      generalize Step.ofBindings registry bs v' = answers' at hbs
      obtain ⟨y, _⟩ := answers
      obtain ⟨y', _⟩ := answers'
      obtain rfl : y = y' := hbs
      cases y <;> rfl

end Deterministic

/-! ## Pipelines -/

/-- The workshop of the world is one of a registry in use. -/
def World.Reached (registry : Registry ω) (w : World ω) : Prop := registry.Reached w.workshop

theorem World.Reached.withUser {w : World ω} (h : w.Reached registry) (user : ω) :
    (w.withUser user).Reached registry :=
  Registry.Reached.used h user

theorem World.Reached.withScope {w : World ω} (h : w.Reached registry) (s : Scope ω) :
    (w.withScope s).Reached registry :=
  Registry.Reached.used h s.user

namespace Pipeline

variable {ε δ α β : Type}

/-- The outcome is the same whenever the pipeline is run. -/
def Settles (registry : Registry ω) (x : Pipeline ω ε α) (y : Except ε α) : Prop :=
  Routine.Settles (World.Reached registry) x.run y

theorem Settles.bind {x : Pipeline ω ε α} {f : α → Pipeline ω ε β} {a : α} {y : Except ε β}
    (hx : Settles registry x (.ok a)) (hf : Settles registry (f a) y) :
    Settles registry (x >>= f) y :=
  Gives.bind hx (f := ExceptT.bindCont f) (k := 0) (b := y) hf

theorem Settles.bind_error {x : Pipeline ω ε α} {e : ε} (hx : Settles registry x (.error e))
    (f : α → Pipeline ω ε β) : Settles registry (x >>= f) (.error e) :=
  Gives.bind hx (f := ExceptT.bindCont f) (k := 0) (b := .error e) (gives_pure _)

/-- A resolution and what follows it. -/
theorem run_inWorkshop_bind (wrap : δ → ε) (m : ExceptT δ (StateM (Workshop ω)) α)
    (f : α → Pipeline ω ε β) : (inWorkshop wrap m >>= f).run =
      (ofState m.run).zoom World.workshop World.withWorkshop >>= fun x =>
        ExceptT.bindCont f (x.mapError wrap) :=
  bind_map_left (Except.mapError wrap)
    ((ofState m.run).zoom World.workshop World.withWorkshop) (ExceptT.bindCont f)

/-- What follows may depend on the instance that the registry gives this time. -/
theorem settles_inWorkshop_bind {wrap : δ → ε} {m : ExceptT δ (StateM (Workshop ω)) α}
    {f : α → Pipeline ω ε β} {y : Except ε β}
    (h : ∀ w, registry.Reached w → registry.Reached (m w).2 ∧
      Routine.Settles (World.Reached registry) (ExceptT.bindCont f ((m w).1.mapError wrap)) y) :
    Settles registry (inWorkshop wrap m >>= f) y := by
  rw [Settles, run_inWorkshop_bind]
  exact gives_ofState_bind (fun _ _ => rfl) fun w hw => h w.workshop hw

theorem settles_inWorkshop {wrap : δ → ε} {m : ExceptT δ (StateM (Workshop ω)) α} {y : Except δ α}
    (h : ∀ w, registry.Reached w → registry.Reached (m w).2 ∧ (m w).1 = y) :
    Settles registry (inWorkshop wrap m) (y.mapError wrap) := by
  have hbind : ∀ w, registry.Reached w → registry.Reached (m w).2 ∧
      Routine.Settles (World.Reached registry)
        (ExceptT.bindCont pure ((m w).1.mapError wrap)) (y.mapError wrap) := by
    intro w hw
    obtain ⟨hreached, hy⟩ := h w hw
    refine ⟨hreached, ?_⟩
    rw [hy]
    cases y <;> exact gives_pure _
  rw [← bind_pure (inWorkshop wrap m)]
  exact settles_inWorkshop_bind hbind

theorem settles_inScope {wrap : δ → ε} {r : Routine (Scope ω) (Except δ α)} {y : Except δ α}
    (h : ∀ x, Returns r x → x = y) : Settles registry (inScope wrap r) (y.mapError wrap) := by
  have : Gives (World.Reached registry) (fun _ => (0 : ℕ))
      (r.zoom World.scope World.withScope) 0 y :=
    gives_zoom_of_returns (fun s _ hw => World.Reached.withScope hw s) (by intros; rfl) h
  exact Gives.map this (Except.mapError wrap)

end Pipeline

/-! ## Fields -/

/-- The code of the middleware has one possible answer for what it is given. -/
def Registry.Steady (registry : Registry ω) : Prop :=
  ∀ m, registry.Offers m → ∀ source args options,
    Agree (m.execute source args options) (m.execute source args options)

/-- The code of the method has one possible answer for its arguments, whatever the identity of its
instance. -/
def Resolver.Steady (r : Resolver ω) : Prop :=
  ∀ i j, i.Same j → ∀ args, Agree (r.method i args) (r.method j args)

section Fields

variable (hr : registry.Deterministic) {w : World ω} (hw : w.Reached registry)

include hr hw

theorem exists_settles_runAll (hm : registry.Steady) (bindings : List (Binding ω)) (source : Json)
    (args : Dict Json) : ∃ y,
      Pipeline.Settles registry (Binding.runAll registry bindings source args) y := by
  have hsteps : Pipeline.Settles registry
      (Pipeline.inWorkshop FieldError.sequence (Step.ofBindings registry bindings))
      ((Step.ofBindings registry bindings w.workshop).1.mapError .sequence) :=
    Pipeline.settles_inWorkshop fun v hv =>
      ⟨reached_ofBindings bindings hv, ofBindings_fixed hr hv hw bindings⟩
  have hall := sequenced_ofBindings registry bindings w.workshop
  unfold Binding.runAll
  generalize Step.ofBindings registry bindings w.workshop = answer at hsteps hall
  obtain ⟨x, v⟩ := answer
  cases hall with
  | failed => exact ⟨_, hsteps.bind_error _⟩
  | @resolved steps v h =>
    have hagree : Agree (Step.runAll steps source args) (Step.runAll steps source args) :=
      runAll_of_execute (P := fun _ r => Agree r r) agree_pure Agree.bind
        (fun _ _ _ _ _ => rfl) fun s hs => hm _ (h.offers hw s hs) _ _ _
    have hchain : Pipeline.Settles registry
        (Pipeline.inScope FieldError.middleware (Step.runAll steps source args))
        (((Step.runAll steps source args).run w.scope).1.mapError .middleware) :=
      Pipeline.settles_inScope fun x hx => hagree x _ hx (returns_run _ _)
    generalize ((Step.runAll steps source args).run w.scope).1 = answers at hchain
    cases answers with
    | error e => exact ⟨_, hsteps.bind (hchain.bind_error _)⟩
    | ok vs => exact ⟨_, hsteps.bind (hchain.bind (gives_pure _))⟩

theorem exists_settles_call {r : Resolver ω} (hm : r.Steady) (source : Json) (args : Dict Json) :
    ∃ y, Pipeline.Settles registry (r.call registry source args) y := by
  have halike {v : Workshop ω} (hv : registry.Reached v) :=
    Registry.resolve_alike hr hv hw r.instanceToken
  unfold Resolver.call
  cases hx : (registry.resolve r.instanceToken w.workshop).1 with
  | error e =>
    refine ⟨.error (.resolution e), Pipeline.settles_inWorkshop_bind fun v hv => ?_⟩
    refine ⟨hv.asked r.instanceToken, ?_⟩
    have := hx ▸ halike hv
    generalize (registry.resolve r.instanceToken v).1 = answer at this
    cases this
    exact gives_pure _
  | ok i =>
    let arguments := Arguments.expand r.parameters source args
    refine ⟨((r.method i arguments).run w.scope).1.mapError (.implementation r.name),
      Pipeline.settles_inWorkshop_bind fun v hv => ⟨hv.asked r.instanceToken, ?_⟩⟩
    have := hx ▸ halike hv
    generalize (registry.resolve r.instanceToken v).1 = answer at this
    cases this with
    | ok h => exact Pipeline.settles_inScope fun x hx => hm _ i h arguments x _ hx (returns_run _ _)

/-- A field has one outcome for its source and its arguments. -/
theorem exists_settles_resolve (hm : registry.Steady) {node : FieldNode ω}
    (hnode : ∀ r bindings, node.source = .method r bindings → r.Steady) (source : Json)
    (args : Dict Json) : ∃ y, Pipeline.Settles registry (node.resolve registry source args) y := by
  unfold FieldNode.resolve
  cases hsource : node.source with
  | property => exact ⟨_, gives_pure _⟩
  | method r bindings =>
    obtain ⟨x, hx⟩ := exists_settles_runAll hr hw hm bindings source args
    obtain ⟨y, hy⟩ := exists_settles_call hr hw (hnode r bindings hsource) source args
    cases x with
    | error e => exact ⟨_, hx.bind_error _⟩
    | ok _ => exact ⟨y, hx.bind hy⟩

end Fields

end GraphAssembly
