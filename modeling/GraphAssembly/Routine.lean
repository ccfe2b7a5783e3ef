/-!
# Routines over shared state

A routine reads and writes a state it shares with others, and may suspend. It is kept as the tree of
what it does next, so that several routines can be interleaved before any of them is run.

1. `Routine` and its monad.
2. `run`, which resumes a suspended routine at once.
3. `zoom`, which runs a routine over a part of the state.
-/

namespace GraphAssembly

inductive Routine (σ α : Type) : Type where
  | done (result : α)
  | read (next : σ → Routine σ α)
  | write (state : σ) (next : Routine σ α)
  | suspend (next : Routine σ α)

namespace Routine

variable {σ τ α β γ : Type}

protected def bind : Routine σ α → (α → Routine σ β) → Routine σ β
  | .done a, f => f a
  | .read next, f => .read fun s => (next s).bind f
  | .write s next, f => .write s (next.bind f)
  | .suspend next, f => .suspend (next.bind f)

instance : Monad (Routine σ) where
  pure := .done
  bind := Routine.bind

def get : Routine σ σ := .read .done

def set (s : σ) : Routine σ Unit := .write s (.done ())

def modify (f : σ → σ) : Routine σ Unit := .read fun s => .write (f s) (.done ())

/-- Suspends `n` times. -/
def suspendTimes : Nat → Routine σ Unit
  | 0 => .done ()
  | n + 1 => .suspend (suspendTimes n)

/-- A transformation of the state that cannot suspend. -/
def ofState (m : StateM σ α) : Routine σ α :=
  .read fun s => .write (m s).2 (.done (m s).1)

instance : MonadLift (StateM σ) (Routine σ) where
  monadLift := ofState

/-! ## Running -/

/-- The result and the final state when every suspension is resumed at once. -/
def run : Routine σ α → σ → α × σ
  | .done a, s => (a, s)
  | .read next, s => (next s).run s
  | .write s next, _ => next.run s
  | .suspend next, s => next.run s

/-- The routine suspends in no state. -/
inductive NeverSuspends : Routine σ α → Prop where
  | done (a : α) : NeverSuspends (.done a)
  | read {next : σ → Routine σ α} (h : ∀ s, NeverSuspends (next s)) : NeverSuspends (.read next)
  | write (s : σ) {next : Routine σ α} (h : NeverSuspends next) : NeverSuspends (.write s next)

@[simp] theorem run_pure (a : α) (s : σ) : (pure a : Routine σ α).run s = (a, s) := rfl

theorem run_bind (r : Routine σ α) (f : α → Routine σ β) (s : σ) :
    (r >>= f).run s = (f (r.run s).1).run (r.run s).2 := by
  change (r.bind f).run s = _
  induction r generalizing s with
  | done a => rfl
  | read next ih => exact ih s s
  | write t next ih => exact ih t
  | suspend next ih => exact ih s

@[simp] theorem run_ofState (m : StateM σ α) (s : σ) : (ofState m).run s = m s := rfl

theorem bind_pure' (r : Routine σ α) : r.bind .done = r := by
  induction r with
  | done a => rfl
  | read next ih => simp only [Routine.bind]; congr; funext s; exact ih s
  | write t next ih => simp only [Routine.bind, ih]
  | suspend next ih => simp only [Routine.bind, ih]

theorem bind_assoc' (r : Routine σ α) (f : α → Routine σ β) (g : β → Routine σ γ) :
    (r.bind f).bind g = r.bind fun a => (f a).bind g := by
  induction r with
  | done a => rfl
  | read next ih => simp only [Routine.bind]; congr; funext s; exact ih s
  | write t next ih => simp only [Routine.bind, ih]
  | suspend next ih => simp only [Routine.bind, ih]

instance : LawfulMonad (Routine σ) :=
  LawfulMonad.mk' (Routine σ) bind_pure' (fun _ _ => rfl) bind_assoc'

/-! ## A part of the state -/

/-- Runs a routine over the part of a larger state that `view` selects and `update` replaces. -/
def zoom (view : τ → σ) (update : σ → τ → τ) : Routine σ α → Routine τ α
  | .done a => .done a
  | .read next => .read fun t => (next (view t)).zoom view update
  | .write s next => .read fun t => .write (update s t) (next.zoom view update)
  | .suspend next => .suspend (next.zoom view update)

end Routine

end GraphAssembly
