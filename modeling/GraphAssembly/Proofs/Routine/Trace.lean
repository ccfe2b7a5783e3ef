import GraphAssembly.Routine
import Mathlib.Algebra.BigOperators.Group.List.Basic

/-!
# What a routine adds to a trace

Routines share their state, so what one of them finds after a suspension is up to the others. What
it does to a part of the state that everybody only adds to, a trace, is still its own. `Leaves`
says what a routine adds altogether and how that goes with its result, whatever the others do.

1. `Returns`: the results that a routine may have at all.
2. `Adds` and `Leaves`, with the rules for one routine after another and for a part of the state.
3. `leaves_run`: what this says about a run.
-/

namespace GraphAssembly.Routine

variable {σ τ α β M : Type}

/-! ## Possible results -/

/-- The routine may have this result, if each time it reads it may find any state. -/
inductive Returns : Routine σ α → α → Prop where
  | done (a : α) : Returns (.done a) a
  | read {next : σ → Routine σ α} {s : σ} {a : α} (h : Returns (next s) a) :
    Returns (.read next) a
  | write {s : σ} {next : Routine σ α} {a : α} (h : Returns next a) : Returns (.write s next) a
  | suspend {next : Routine σ α} {a : α} (h : Returns next a) : Returns (.suspend next) a

theorem returns_run (r : Routine σ α) (s : σ) : Returns r (r.run s).1 := by
  induction r generalizing s with
  | done a => exact .done a
  | read next ih => exact .read (ih s s)
  | write t next ih => exact .write (ih t)
  | suspend next ih => exact .suspend (ih s)

theorem returns_ofState {m : StateM σ α} {a : α} (h : Returns (ofState m) a) :
    ∃ s, (m s).1 = a := by
  cases h with | @read _ s _ h =>
  cases h with | write h =>
  cases h
  exact ⟨s, rfl⟩

theorem returns_zoom {view : τ → σ} {update : σ → τ → τ} {r : Routine σ α} {a : α}
    (h : Returns (r.zoom view update) a) : Returns r a := by
  induction r with
  | done b =>
    cases h
    exact .done _
  | read next ih =>
    cases h with | read h =>
    exact .read (ih _ h)
  | write s next ih =>
    cases h with | read h =>
    cases h with | write h =>
    exact .write (ih h)
  | suspend next ih =>
    cases h with | suspend h =>
    exact .suspend (ih h)

theorem returns_bind {r : Routine σ α} {f : α → Routine σ β} {b : β} (h : Returns (r >>= f) b) :
    ∃ a, Returns r a ∧ Returns (f a) b := by
  change Returns (r.bind f) b at h
  induction r with
  | done a => exact ⟨a, .done a, h⟩
  | read next ih =>
    cases h with | read h =>
    obtain ⟨a, ha, hb⟩ := ih _ h
    exact ⟨a, .read ha, hb⟩
  | write s next ih =>
    cases h with | write h =>
    obtain ⟨a, ha, hb⟩ := ih h
    exact ⟨a, .write ha, hb⟩
  | suspend next ih =>
    cases h with | suspend h =>
    obtain ⟨a, ha, hb⟩ := ih h
    exact ⟨a, .suspend ha, hb⟩

/-! ## Additions -/

variable [AddCommMonoid M] {trace : σ → M}

/-- Once the routine has finished, `Q` holds of `m` together with what it has added by then, and of
its result. The state is `s` now, and any state after each suspension. -/
def Adds (trace : σ → M) (Q : M → α → Prop) : Routine σ α → M → σ → Prop
  | .done a, m, _ => Q m a
  | .read next, m, s => Adds trace Q (next s) m s
  | .write t next, m, s => ∃ d, trace t = trace s + d ∧ Adds trace Q next (m + d) t
  | .suspend next, m, _ => ∀ t, Adds trace Q next m t

/-- `Q` holds of all that the routine adds to the trace and of its result. -/
def Leaves (trace : σ → M) (Q : M → α → Prop) (r : Routine σ α) : Prop :=
  ∀ s, Adds trace Q r 0 s

/-- What was added before the routine started does not concern it. -/
theorem adds_frame {Q Q' : M → α → Prop} {k : M} (h : ∀ m a, Q m a → Q' (k + m) a)
    {r : Routine σ α} {m : M} {s : σ} (hr : Adds trace Q r m s) : Adds trace Q' r (k + m) s := by
  induction r generalizing m s with
  | done a => exact h m a hr
  | read next ih => exact ih s hr
  | write t next ih =>
    obtain ⟨d, hd, hr⟩ := hr
    exact ⟨d, hd, by simpa only [add_assoc] using ih hr⟩
  | suspend next ih => exact fun t => ih (hr t)

theorem Leaves.adds {Q Q' : M → α → Prop} {r : Routine σ α} (hr : Leaves trace Q r) {k : M}
    (h : ∀ m a, Q m a → Q' (k + m) a) (s : σ) : Adds trace Q' r k s := by
  have := adds_frame h (hr s)
  rwa [add_zero] at this

theorem Leaves.mono {Q Q' : M → α → Prop} {r : Routine σ α} (hr : Leaves trace Q r)
    (h : ∀ m a, Q m a → Q' m a) : Leaves trace Q' r :=
  hr.adds fun m a hQ => by simpa only [zero_add] using h m a hQ

theorem adds_bind {Q : M → α → Prop} {R : M → β → Prop} {r : Routine σ α} {f : α → Routine σ β}
    {m : M} {s : σ} (hr : Adds trace Q r m s) (hf : ∀ m a, Q m a → ∀ t, Adds trace R (f a) m t) :
    Adds trace R (r.bind f) m s := by
  induction r generalizing m s with
  | done a => exact hf m a hr s
  | read next ih => exact ih s hr
  | write t next ih =>
    obtain ⟨d, hd, hr⟩ := hr
    exact ⟨d, hd, ih hr⟩
  | suspend next ih => exact fun t => ih (hr t)

theorem leaves_pure {Q : M → α → Prop} {a : α} (h : Q 0 a) :
    Leaves trace Q (pure a : Routine σ α) := fun _ => h

theorem leaves_bind {Q : M → α → Prop} {R : M → β → Prop} {r : Routine σ α} {f : α → Routine σ β}
    (hr : Leaves trace Q r) (hf : ∀ m a, Q m a → Leaves trace (fun d b => R (m + d) b) (f a)) :
    Leaves trace R (r >>= f) :=
  fun s => adds_bind (hr s) fun m a hQ => (hf m a hQ).adds fun _ _ h => h

theorem leaves_modify {Q : M → Unit → Prop} {f : σ → σ} {d : M}
    (hf : ∀ s, trace (f s) = trace s + d) (h : Q d ()) : Leaves trace Q (modify f) :=
  fun s => ⟨d, hf s, by rw [zero_add]; exact h⟩

/-- A routine over a part of the state that the trace does not depend on adds nothing. -/
theorem leaves_zoom {Q : M → α → Prop} {view : τ → σ} {update : σ → τ → τ} {trace : τ → M}
    (hu : ∀ s t, trace (update s t) = trace t) {r : Routine σ α}
    (h : ∀ a, Returns r a → Q 0 a) : Leaves trace Q (r.zoom view update) := by
  intro t
  induction r generalizing t with
  | done a => exact h a (.done a)
  | read next ih => exact ih _ (fun a ha => h a (.read ha)) t
  | write s next ih =>
    refine ⟨0, by rw [hu, add_zero], ?_⟩
    rw [add_zero]
    exact ih (fun a ha => h a (.write ha)) _
  | suspend next ih => exact fun t => ih (fun a ha => h a (.suspend ha)) t

/-! ## Runs -/

theorem adds_run {Q : M → α → Prop} {r : Routine σ α} {m k : M} {s : σ}
    (hr : Adds trace Q r m s) (hs : trace s = k + m) :
    ∃ d, trace (r.run s).2 = k + d ∧ Q d (r.run s).1 := by
  induction r generalizing m s with
  | done a => exact ⟨m, hs, hr⟩
  | read next ih => exact ih s hr hs
  | write t next ih =>
    obtain ⟨d, hd, hr⟩ := hr
    exact ih hr (by rw [hd, hs, add_assoc])
  | suspend next ih => exact ih (hr s) hs

/-- Nothing is taken from the trace. -/
theorem adds_onward {Q : M → α → Prop} {r : Routine σ α} {m : M} {s : σ}
    (hr : Adds trace Q r m s) : ∃ d, trace (r.run s).2 = trace s + d := by
  induction r generalizing m s with
  | done a => exact ⟨0, (add_zero _).symm⟩
  | read next ih => exact ih s hr
  | write t next ih =>
    obtain ⟨d, hd, hr⟩ := hr
    obtain ⟨k, hk⟩ := ih hr
    exact ⟨d + k, by rw [run, hk, hd, add_assoc]⟩
  | suspend next ih => exact ih (hr s)

theorem leaves_run {Q : M → α → Prop} {r : Routine σ α} (hr : Leaves trace Q r) (s : σ) :
    ∃ d, trace (r.run s).2 = trace s + d ∧ Q d (r.run s).1 :=
  adds_run (hr s) (add_zero _).symm

end GraphAssembly.Routine
