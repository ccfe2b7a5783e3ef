import GraphAssembly.Routine.Join

/-!
# Many routines at once

With many routines a pass would keep everything else waiting for long. A rotation visits them in the
same order as passes do, but the whole suspends as soon as two of them have suspended since it was
last resumed or one of them last finished.

1. `Next` and `Step`, by which a list of routines gets smaller with each step of one of them.
2. `inRotation`.
3. `concurrently`, which takes passes for a few routines and a rotation for many.
-/

namespace GraphAssembly.Routine

variable {σ α : Type}

/-! ## Steps -/

/-- What a routine goes on with after one step. -/
inductive Next : Routine σ α → Routine σ α → Prop where
  | read (next : σ → Routine σ α) (s : σ) : Next (next s) (.read next)
  | write (s : σ) (next : Routine σ α) : Next next (.write s next)
  | suspend (next : Routine σ α) : Next next (.suspend next)

theorem acc_next (r : Routine σ α) : Acc Next r := by
  induction r with
  | done a => exact ⟨_, fun _ h => nomatch h⟩
  | read next ih => exact ⟨_, fun _ h => by cases h with | read _ s => exact ih s⟩
  | write s next ih => exact ⟨_, fun _ h => by cases h with | write => exact ih⟩
  | suspend next ih => exact ⟨_, fun _ h => by cases h with | suspend => exact ih⟩

/-- One routine of a list makes one step. -/
inductive Step : List (Routine σ α) → List (Routine σ α) → Prop where
  | head {r' r : Routine σ α} (h : Next r' r) (rs : List (Routine σ α)) : Step (r' :: rs) (r :: rs)
  | tail (r : Routine σ α) {rs' rs : List (Routine σ α)} (h : Step rs' rs) :
    Step (r :: rs') (r :: rs)

theorem acc_step_cons {r : Routine σ α} (hr : Acc Next r) {rs : List (Routine σ α)}
    (hrs : Acc Step rs) : Acc Step (r :: rs) := by
  induction hr generalizing rs with
  | intro r _ ihr =>
    induction hrs with
    | intro rs hrs ihrs =>
      refine ⟨_, fun qs h => ?_⟩
      cases h with
      | head h => exact ihr _ h ⟨_, hrs⟩
      | tail _ h => exact ihrs _ h

theorem acc_step (rs : List (Routine σ α)) : Acc Step rs := by
  induction rs with
  | nil => exact ⟨_, fun _ h => nomatch h⟩
  | cons r rs ih => exact acc_step_cons (acc_next r) ih

instance : WellFoundedRelation (List (Routine σ α)) := ⟨Step, ⟨acc_step⟩⟩

theorem step_set {rs : List (Routine σ α)} {i : Nat} {r r' : Routine σ α} (hi : rs[i]? = some r)
    (h : Next r' r) : Step (rs.set i r') rs := by
  induction rs generalizing i with
  | nil => simp at hi
  | cons q rs ih =>
    cases i with
    | zero =>
      obtain rfl : q = r := by simpa using hi
      exact .head h rs
    | succ i => exact .tail q (ih (by simpa using hi))

/-! ## Rotation -/

def result? : Routine σ α → Option α
  | .done a => some a
  | _ => none

/-- Goes on with the unfinished routines, given by their positions in the order of their turns.
`paused` tells whether one has suspended since the last one finished. -/
def rotate (rs : List (Routine σ α)) (paused : Bool) (turns : List Nat) : Routine σ (List α) :=
  match turns with
  | [] => .done (rs.filterMap result?)
  | i :: others =>
    match _h : rs[i]? with
    | none => rotate rs paused others
    | some (.done _) => rotate rs false others
    | some (.read next) => .read fun s => rotate (rs.set i (next s)) paused (i :: others)
    | some (.write s next) => .write s (rotate (rs.set i next) paused (i :: others))
    | some (.suspend next) =>
      if paused || others.isEmpty then .suspend (rotate (rs.set i next) false (others ++ [i]))
      else rotate (rs.set i next) true (others ++ [i])
termination_by (rs, turns.length)
decreasing_by
  · exact .right _ (Nat.lt_succ_self _)
  · exact .right _ (Nat.lt_succ_self _)
  · exact .left _ _ (step_set _h (.read next s))
  · exact .left _ _ (step_set _h (.write s next))
  · exact .left _ _ (step_set _h (.suspend next))
  · exact .left _ _ (step_set _h (.suspend next))

section Turns

variable {rs : List (Routine σ α)} {i : Nat} {paused : Bool} {others : List Nat}

theorem rotate_done {a : α} (hi : rs[i]? = some (.done a)) :
    rotate rs paused (i :: others) = rotate rs false others := by
  rw [rotate]
  split <;> simp_all

theorem rotate_read {next : σ → Routine σ α} (hi : rs[i]? = some (.read next)) :
    rotate rs paused (i :: others) =
      .read fun s => rotate (rs.set i (next s)) paused (i :: others) := by
  rw [rotate]
  split <;> simp_all

theorem rotate_write {s : σ} {next : Routine σ α} (hi : rs[i]? = some (.write s next)) :
    rotate rs paused (i :: others) = .write s (rotate (rs.set i next) paused (i :: others)) := by
  rw [rotate]
  split <;> simp_all

theorem rotate_suspend {next : Routine σ α} (hi : rs[i]? = some (.suspend next)) :
    rotate rs paused (i :: others) =
      if paused || others.isEmpty then .suspend (rotate (rs.set i next) false (others ++ [i]))
      else rotate (rs.set i next) true (others ++ [i]) := by
  rw [rotate]
  split <;> simp_all

end Turns

def inRotation : Join σ α := fun rs => rotate rs false (List.range rs.length)

/-- Up to thirty routines are run in passes, more of them in rotation. -/
def concurrently : Join σ α := fun rs => if rs.length ≤ 30 then inPasses rs else inRotation rs

theorem rotate_map_done (as : List α) (paused : Bool) :
    rotate (as.map .done : List (Routine σ α)) paused [] = .done as := by
  have : (as.map (.done : α → Routine σ α)).filterMap result? = as := by
    rw [List.filterMap_map]
    exact List.filterMap_some
  rw [rotate, this]

end GraphAssembly.Routine
