import GraphAssembly.Proofs.Routine.Abreast
import GraphAssembly.Proofs.Routine.Trace

/-!
# Routines in lockstep

Two routines over states of their own go in lockstep if each read, write and suspension of one is
one of the other, and the states that they find and leave are images of each other. What is said of
them may rest on an assumption about the states they pass through; a run whose trace only grows
passes through none whose trace is not a part of the last one.

1. `Lockstep`, and what it says about runs.
2. One routine after another, and routines over a part of the state.
3. Joins: routines that go in lockstep one by one do so together, in order, in passes and in
   rotation.
-/

namespace GraphAssembly.Routine

variable {σ τ α α' β β' γ γ' M : Type}

/-! ## Lockstep -/

/-- The second routine does to the image of the state what the first one does to the state, and `Q`
holds of their results, as long as the states fit. -/
inductive Lockstep (image : σ → τ) (Fits : σ → Prop) (Q : α → α' → Prop) :
    Routine σ α → Routine τ α' → Prop
  | done {a : α} {a' : α'} (h : Q a a') : Lockstep image Fits Q (.done a) (.done a')
  | read {next : σ → Routine σ α} {next' : τ → Routine τ α'}
    (h : ∀ s, Fits s → Lockstep image Fits Q (next s) (next' (image s))) :
    Lockstep image Fits Q (.read next) (.read next')
  | write {s : σ} {next : Routine σ α} {next' : Routine τ α'}
    (h : Fits s → Lockstep image Fits Q next next') :
    Lockstep image Fits Q (.write s next) (.write (image s) next')
  | suspend {next : Routine σ α} {next' : Routine τ α'} (h : Lockstep image Fits Q next next') :
    Lockstep image Fits Q (.suspend next) (.suspend next')

section Lockstep

variable {image : σ → τ} {Fits : σ → Prop} {Q : α → α' → Prop} {Q' : β → β' → Prop}
  {r : Routine σ α} {r' : Routine τ α'}

/-- The runs of two routines in lockstep end in a state and its image. All states on the way fit,
for what is in their traces is in that of the last one. -/
theorem Lockstep.run [AddCommMonoid M] {trace : σ → M} {P : M → α → Prop} {m : M} {s : σ}
    (h : Lockstep image Fits Q r r') (hadds : Adds trace P r m s)
    (hfits : ∀ t d, trace (r.run s).2 = trace t + d → Fits t) :
    Q (r.run s).1 (r'.run (image s)).1 ∧ (r'.run (image s)).2 = image (r.run s).2 := by
  induction h generalizing m s with
  | done h => exact ⟨h, rfl⟩
  | read _ ih =>
    obtain ⟨d, hd⟩ := adds_onward hadds
    exact ih s (hfits s d hd) hadds hfits
  | @write t _ _ _ ih =>
    obtain ⟨_, _, hnext⟩ := hadds
    obtain ⟨d, hd⟩ := adds_onward hnext
    exact ih (hfits t d hd) hnext hfits
  | suspend _ ih => exact ih (hadds s) hfits

/-! ## One after another -/

theorem Lockstep.bind {f : α → Routine σ β} {f' : α' → Routine τ β'}
    (h : Lockstep image Fits Q r r')
    (hf : ∀ a a', Q a a' → Lockstep image Fits Q' (f a) (f' a')) :
    Lockstep image Fits Q' (r >>= f) (r' >>= f') := by
  change Lockstep image Fits Q' (r.bind f) (r'.bind f')
  induction h with
  | done h => exact hf _ _ h
  | read _ ih => exact .read ih
  | write _ ih => exact .write ih
  | suspend _ ih => exact .suspend ih

theorem Lockstep.map {f : α → β} {f' : α' → β'} (h : Lockstep image Fits Q r r')
    (hf : ∀ a a', Q a a' → Q' (f a) (f' a')) : Lockstep image Fits Q' (f <$> r) (f' <$> r') :=
  h.bind fun a a' ha => .done (hf a a' ha)

theorem lockstep_modify {P : Prop} {f : σ → σ} {f' : τ → τ} (hf : ∀ s, f' (image s) = image (f s))
    (hP : ∀ s, Fits (f s) → P) :
    Lockstep image Fits (fun _ _ => P) (modify f) (modify f') := by
  refine .read fun s _ => ?_
  rw [hf]
  exact .write fun hs => .done (hP s hs)

/-- One routine, over a part that the image leaves as it is. -/
theorem lockstep_zoom {view : σ → γ} {update : γ → σ → σ} {view' : τ → γ} {update' : γ → τ → τ}
    (hview : ∀ s, view' (image s) = view s)
    (hupdate : ∀ x s, update' x (image s) = image (update x s)) (r : Routine γ α) :
    Lockstep image Fits Eq (r.zoom view update) (r.zoom view' update') := by
  induction r with
  | done a => exact .done rfl
  | read next ih =>
    refine .read fun s _ => ?_
    rw [hview]
    exact ih _
  | write x next ih =>
    refine .read fun s _ => ?_
    rw [hupdate]
    exact .write fun _ => ih
  | suspend next ih => exact .suspend ih

end Lockstep

/-! ## Joins -/

/-- Routines in lockstep, each with what the result of the second one is for that of the first. -/
inductive AllInStep (image : σ → τ) (Fits : σ → Prop) :
    List (α → α') → List (Routine σ α) → List (Routine τ α') → Prop
  | nil : AllInStep image Fits [] [] []
  | cons {f : α → α'} {r : Routine σ α} {r' : Routine τ α'} {fs : List (α → α')}
    {rs : List (Routine σ α)} {rs' : List (Routine τ α')}
    (h : Lockstep image Fits (fun a a' => a' = f a) r r') (hs : AllInStep image Fits fs rs rs') :
    AllInStep image Fits (f :: fs) (r :: rs) (r' :: rs')

/-- Each result of the second routines is what it should be for that of the first. -/
structure Pointwise (fs : List (α → α')) (as : List α) (as' : List α') : Prop where
  length : as.length = fs.length
  eq : as' = List.zipWith (fun f a => f a) fs as

/-- Two joins that put routines together in the same way. -/
def Uniform (join : Join σ α) (join' : Join τ α') : Prop :=
  ∀ {image : σ → τ} {Fits : σ → Prop} {fs : List (α → α')} {rs : List (Routine σ α)}
    {rs' : List (Routine τ α')}, AllInStep image Fits fs rs rs' →
      Lockstep image Fits (Pointwise fs) (join rs) (join' rs')

theorem pointwise_cons {f : α → α'} {fs : List (α → α')} {as : List α} {as' : List α'}
    (h : Pointwise fs as as') (a : α) : Pointwise (f :: fs) (a :: as) (f a :: as') :=
  ⟨congrArg (· + 1) h.length, congrArg (f a :: ·) h.eq⟩

section Joins

variable {image : σ → τ} {Fits : σ → Prop} {Q : α → α' → Prop} {Q' : β → β' → Prop}
  {fs : List (α → α')} {rs : List (Routine σ α)} {rs' : List (Routine τ α')}

theorem allInStep_map {δ : Type} {xs : List δ} {f : δ → α → α'} {l : δ → Routine σ α}
    {l' : δ → Routine τ α'}
    (h : ∀ x ∈ xs, Lockstep image Fits (fun a a' => a' = f x a) (l x) (l' x)) :
    AllInStep image Fits (xs.map f) (xs.map l) (xs.map l') := by
  induction xs with
  | nil => exact .nil
  | cons x xs ih =>
    exact .cons (h x List.mem_cons_self) (ih fun y hy => h y (List.mem_cons_of_mem x hy))

theorem AllInStep.lengths (h : AllInStep image Fits fs rs rs') : rs'.length = rs.length := by
  induction h with
  | nil => rfl
  | cons _ _ ih => exact congrArg (· + 1) ih

/-- The routines at a position may be replaced by others in lockstep. -/
theorem AllInStep.exists_at (h : AllInStep image Fits fs rs rs') {i : Nat} {r : Routine σ α}
    (hi : rs[i]? = some r) : ∃ (f : α → α') (r' : Routine τ α'), rs'[i]? = some r' ∧
      Lockstep image Fits (fun a a' => a' = f a) r r' ∧
      ∀ q q', Lockstep image Fits (fun a a' => a' = f a) q q' →
        AllInStep image Fits fs (rs.set i q) (rs'.set i q') := by
  induction h generalizing i with
  | nil => simp at hi
  | @cons f q q' fs rs rs' h hs ih =>
    cases i with
    | zero =>
      obtain rfl : q = r := by simpa using hi
      exact ⟨f, q', rfl, h, fun _ _ hq => .cons hq hs⟩
    | succ i =>
      obtain ⟨g, r', hr', hr, hset⟩ := ih (i := i) (by simpa using hi)
      exact ⟨g, r', by simpa using hr', hr, fun _ _ hq => .cons h (hset _ _ hq)⟩

/-- Where the first routines are finished the second ones are. -/
theorem AllInStep.finished {as : List α} (h : AllInStep image Fits fs (as.map .done) rs') :
    ∃ as', rs' = as'.map .done ∧ Pointwise fs as as' := by
  induction as generalizing fs rs' with
  | nil =>
    cases h
    exact ⟨[], rfl, rfl, rfl⟩
  | cons a as ih =>
    cases h with | cons h hs =>
    cases h with | done h =>
    obtain ⟨as', rfl, has⟩ := ih hs
    subst h
    exact ⟨_ :: as', rfl, pointwise_cons has a⟩

/-! ### In order -/

theorem uniform_inOrder : Uniform (inOrder : Join σ α) (inOrder : Join τ α') := by
  intro image Fits fs rs rs' h
  induction h with
  | nil => exact .done ⟨rfl, rfl⟩
  | cons h _ ih =>
    refine h.bind fun a a' ha => ih.bind fun as as' has => .done ?_
    subst ha
    exact pointwise_cons has a

/-! ### In passes -/

theorem Lockstep.turn {r : Routine σ β} {r' : Routine τ β'} {finished : β → Routine σ γ}
    {finished' : β' → Routine τ γ'} {suspended : Routine σ β → Routine σ γ}
    {suspended' : Routine τ β' → Routine τ γ'} {P : γ → γ' → Prop}
    (h : Lockstep image Fits Q' r r')
    (hfinished : ∀ b b', Q' b b' → Lockstep image Fits P (finished b) (finished' b'))
    (hsuspended : ∀ q q', Lockstep image Fits Q' q q' →
      Lockstep image Fits P (suspended q) (suspended' q')) :
    Lockstep image Fits P (r.turn finished suspended) (r'.turn finished' suspended') := by
  induction h with
  | done h => exact hfinished _ _ h
  | read _ ih => exact .read ih
  | write _ ih => exact .write ih
  | suspend h _ => exact hsuspended _ _ h

theorem Lockstep.both {l : Routine σ α} {l' : Routine τ α'} (hl : Lockstep image Fits Q l l')
    {r : Routine σ β} {r' : Routine τ β'} (hr : Lockstep image Fits Q' r r') :
    Lockstep image Fits (Componentwise Q Q') (both l r) (both l' r') := by
  induction hl generalizing r r' with
  | done ha => exact hr.bind fun b b' hb => .done ⟨ha, hb⟩
  | read _ ih => exact .read fun s hs => ih s hs hr
  | write _ ih => exact .write fun hs => ih hs hr
  | suspend hnext ih =>
    refine hr.turn (fun b b' hb => ?_) fun q q' hq => .suspend (ih hq)
    exact .suspend (hnext.bind fun a a' ha => .done ⟨ha, hb⟩)

theorem uniform_inPasses : Uniform (inPasses : Join σ α) (inPasses : Join τ α') := by
  intro image Fits fs rs rs' h
  induction h with
  | nil => exact .done ⟨rfl, rfl⟩
  | cons h _ ih =>
    refine (h.both ih).bind ?_
    rintro ⟨a, as⟩ ⟨a', as'⟩ ⟨ha, has⟩
    cases ha
    exact .done (pointwise_cons has a)

/-! ### In rotation -/

theorem lockstep_rotate (paused : Bool) (turns : List Nat) (hwaiting : Waiting rs turns)
    (h : AllInStep image Fits fs rs rs') :
    Lockstep image Fits (Pointwise fs) (rotate rs paused turns) (rotate rs' paused turns) := by
  induction rs, paused, turns using rotate.induct generalizing rs' with
  | case1 rs paused =>
    obtain ⟨as, rfl⟩ := hwaiting.eq_map_done
    obtain ⟨as', rfl, has⟩ := h.finished
    rw [rotate_map_done, rotate_map_done]
    exact .done has
  | case2 rs paused i others hi =>
    exact absurd (hwaiting.lt i List.mem_cons_self) (by simpa using hi)
  | case3 rs paused i others a hi ih =>
    obtain ⟨f, r', hi', hr, -⟩ := h.exists_at hi
    cases hr
    rw [rotate_done hi, rotate_done hi']
    exact ih (hwaiting.drop hi) h
  | case4 rs paused i others next hi ih =>
    obtain ⟨f, r', hi', hr, hset⟩ := h.exists_at hi
    cases hr with | read hnext =>
    rw [rotate_read hi, rotate_read hi']
    exact .read fun s hs => ih s (hwaiting.set _) (hset _ _ (hnext s hs))
  | case5 rs paused i others s next hi ih =>
    obtain ⟨f, r', hi', hr, hset⟩ := h.exists_at hi
    cases hr with | write hnext =>
    rw [rotate_write hi, rotate_write hi']
    exact .write fun hs => ih (hwaiting.set _) (hset _ _ (hnext hs))
  | case6 rs paused i others next hi hpause ih =>
    obtain ⟨f, r', hi', hr, hset⟩ := h.exists_at hi
    cases hr with | suspend hnext =>
    rw [rotate_suspend hi, rotate_suspend hi', if_pos hpause, if_pos hpause]
    exact .suspend (ih (hwaiting.set _).requeue (hset _ _ hnext))
  | case7 rs paused i others next hi hpause ih =>
    obtain ⟨f, r', hi', hr, hset⟩ := h.exists_at hi
    cases hr with | suspend hnext =>
    rw [rotate_suspend hi, rotate_suspend hi', if_neg hpause, if_neg hpause]
    exact ih (hwaiting.set _).requeue (hset _ _ hnext)

theorem uniform_inRotation : Uniform (inRotation : Join σ α) (inRotation : Join τ α') := by
  intro image Fits fs rs rs' h
  unfold inRotation
  rw [h.lengths]
  exact lockstep_rotate false _ (waiting_range rs) h

theorem uniform_concurrently : Uniform (concurrently : Join σ α) (concurrently : Join τ α') := by
  intro image Fits fs rs rs' h
  unfold concurrently
  rw [h.lengths]
  split
  · exact uniform_inPasses h
  · exact uniform_inRotation h

end Joins

end GraphAssembly.Routine
