import GraphAssembly.Proofs.Routine.Course
import GraphAssembly.Proofs.Routine.Trace
import GraphAssembly.Routine.Rotation
import Mathlib.Data.List.Forall2

/-!
# Routines that go the same way while nothing suspends

As long as none of them suspends, several routines at once are one routine after the other. A join
may hide that some of its routines have suspended: in a rotation the others go on meanwhile. In
order and in passes the whole suspends with each of them.

1. `Unsuspended` courses, and `Leads`.
2. Joins that go like the routines in order when these do not suspend.
3. Joins that are `Candid`: they do not suspend only if the routines in order do not.
4. `GoesThrough`: routines that do not suspend while an invariant holds.
-/

namespace GraphAssembly.Routine

variable {σ α β : Type}

/-! ## Courses without suspensions -/

/-- Nothing is resumed. -/
def Unsuspended (ms : List (Move σ)) : Prop := ∀ s, .resumes s ∉ ms

@[simp] theorem unsuspended_nil : Unsuspended ([] : List (Move σ)) := fun _ => List.not_mem_nil

@[simp] theorem unsuspended_writes_cons {s : σ} {ms : List (Move σ)} :
    Unsuspended (.writes s :: ms) ↔ Unsuspended ms := by
  simp [Unsuspended]

@[simp] theorem not_unsuspended_resumes_cons (s : σ) (ms : List (Move σ)) :
    ¬ Unsuspended (.resumes s :: ms) :=
  fun h => h s List.mem_cons_self

@[simp] theorem unsuspended_append {ms ms' : List (Move σ)} :
    Unsuspended (ms ++ ms') ↔ Unsuspended ms ∧ Unsuspended ms' := by
  simp [Unsuspended, forall_and]

/-- Whatever the first routine does without suspending, the second one does in the same way. -/
def Leads (r r' : Routine σ α) : Prop :=
  ∀ s ms a s', Course r s ms a s' → Unsuspended ms → Course r' s ms a s'

theorem Leads.refl (r : Routine σ α) : Leads r r := fun _ _ _ _ h _ => h

theorem Leads.trans {r r' r'' : Routine σ α} (h : Leads r r') (h' : Leads r' r'') :
    Leads r r'' :=
  fun s ms a s' hr hms => h' s ms a s' (h s ms a s' hr hms) hms

theorem Leads.bind {r r' : Routine σ α} {f f' : α → Routine σ β} (h : Leads r r')
    (hf : ∀ a, Leads (f a) (f' a)) : Leads (r >>= f) (r' >>= f') := by
  intro s ms b s' hb hms
  obtain ⟨first, a, t, rest, rfl, hr, hrest⟩ := course_bind_iff.1 hb
  obtain ⟨hfirst, hlast⟩ := unsuspended_append.1 hms
  exact course_bind_iff.2
    ⟨first, a, t, rest, rfl, h _ _ _ _ hr hfirst, hf a _ _ _ _ hrest hlast⟩

theorem leads_inOrder {rs rs' : List (Routine σ α)} (h : List.Forall₂ Leads rs rs') :
    Leads (inOrder rs) (inOrder rs') := by
  induction h with
  | nil => exact .refl _
  | cons hr _ ih => exact hr.bind fun a => ih.bind fun as => .refl _

/-! ## From routines in order to joins -/

section Joins

variable {s s' : σ} {ms : List (Move σ)}

theorem leads_both (l : Routine σ α) (r : Routine σ β) :
    Leads (l.bind fun a => r.bind fun b => .done (a, b)) (both l r) := by
  intro s ms x s' h hms
  induction l generalizing s ms with
  | done a => exact h
  | read next ih => exact .read (ih s s ms (course_read_iff.1 h) hms)
  | write t next ih =>
    obtain ⟨ms, rfl, hnext⟩ := course_write_iff.1 h
    exact .write (ih t ms hnext (unsuspended_writes_cons.1 hms))
  | suspend next =>
    obtain ⟨t, ms, rfl, -⟩ := course_suspend_iff.1 h
    exact absurd hms (not_unsuspended_resumes_cons t ms)

/-- Routines in order, the first one apart. -/
theorem inOrder_cons (r : Routine σ α) (rs : List (Routine σ α)) :
    inOrder (r :: rs) = (r.bind fun a => (inOrder rs).bind fun as => .done (a, as)) >>=
      fun x => .done (x.1 :: x.2) :=
  .symm <| (bind_assoc' r _ _).trans
    (congrArg r.bind (funext fun _ => bind_assoc' (inOrder rs) _ _))

theorem leads_inPasses (rs : List (Routine σ α)) : Leads (inOrder rs) (inPasses rs) := by
  induction rs with
  | nil => exact .refl _
  | cons r rs ih =>
    have hrest : Leads (r.bind fun a => (inOrder rs).bind fun as => .done (a, as))
        (r.bind fun a => (inPasses rs).bind fun as => .done (a, as)) :=
      (Leads.refl r).bind fun _ => ih.bind fun as => .refl _
    rw [inOrder_cons]
    exact (hrest.trans (leads_both r (inPasses rs))).bind fun x => .refl _

/-- The routine whose turn it is goes on until it is finished. -/
theorem course_rotate_cons {r : Routine σ α} {before after : List (Routine σ α)} {paused : Bool}
    {others : List Nat} {out : List α}
    (h : Course (r.bind fun a => rotate (before ++ .done a :: after) false others) s ms out s')
    (hms : Unsuspended ms) :
    Course (rotate (before ++ r :: after) paused (before.length :: others)) s ms out s' := by
  have atTurn (q : Routine σ α) : (before ++ q :: after)[before.length]? = some q := by simp
  induction r generalizing s ms with
  | done a =>
    rw [rotate_done (atTurn _)]
    exact h
  | read next ih =>
    rw [rotate_read (atTurn _)]
    simpa using ih s (course_read_iff.1 h) hms
  | write t next ih =>
    obtain ⟨ms, rfl, hnext⟩ := course_write_iff.1 h
    rw [rotate_write (atTurn _)]
    simpa using ih hnext (unsuspended_writes_cons.1 hms)
  | suspend next =>
    obtain ⟨t, ms, rfl, -⟩ := course_suspend_iff.1 h
    exact absurd hms (not_unsuspended_resumes_cons t ms)

theorem leads_rotate (rs : List (Routine σ α)) (finished : List α) (paused : Bool) :
    Leads ((inOrder rs).bind fun as => .done (finished ++ as))
      (rotate (finished.map .done ++ rs) paused (List.range' finished.length rs.length)) := by
  induction rs generalizing finished paused with
  | nil =>
    rw [List.length_nil, List.range', List.append_nil, rotate_map_done, inOrder]
    simpa [Routine.bind] using Leads.refl (σ := σ) (.done finished)
  | cons r rs ih =>
    have hrest : Leads (r.bind fun a => (inOrder rs).bind fun as => .done (finished ++ a :: as))
        (r.bind fun a => rotate (finished.map .done ++ .done a :: rs) false
          (List.range' (finished.length + 1) rs.length)) :=
      (Leads.refl r).bind fun a => by simpa using ih (finished ++ [a]) false
    have hlength : (finished.map (.done : α → Routine σ α)).length = finished.length := by simp
    intro s ms out s' h hms
    rw [List.length_cons, List.range', ← hlength]
    refine course_rotate_cons ?_ hms
    rw [hlength]
    refine hrest _ _ _ _ ?_ hms
    simpa [inOrder, bind_assoc', Routine.bind] using h

theorem leads_inRotation (rs : List (Routine σ α)) : Leads (inOrder rs) (inRotation rs) := by
  have := leads_rotate rs [] false
  rw [inRotation, List.range_eq_range']
  simpa [bind_pure'] using this

theorem leads_concurrently (rs : List (Routine σ α)) : Leads (inOrder rs) (concurrently rs) := by
  unfold concurrently
  split
  · exact leads_inPasses rs
  · exact leads_inRotation rs

end Joins

/-! ## Joins that hide no suspension -/

/-- What several routines do without suspending as a whole, they do one after the other. -/
def Candid (join : Join σ α) : Prop := ∀ rs, Leads (join rs) (inOrder rs)

/-- Where a turn ends in a suspension of the whole, the whole suspends. -/
theorem not_unsuspended_of_turn {γ : Type} {finished : β → Routine σ γ}
    {suspended : Routine σ β → Routine σ γ} {r : Routine σ β} {s s' : σ} {ms : List (Move σ)}
    {c : γ}
    (h : Course (r.turn (fun b => .suspend (finished b)) fun rest => .suspend (suspended rest))
      s ms c s') : ¬ Unsuspended ms := by
  induction r generalizing s ms with
  | done b =>
    obtain ⟨t, ms, rfl, -⟩ := course_suspend_iff.1 h
    exact not_unsuspended_resumes_cons t ms
  | read next ih => exact ih s (course_read_iff.1 h)
  | write t next ih =>
    obtain ⟨ms, rfl, hnext⟩ := course_write_iff.1 h
    rw [unsuspended_writes_cons]
    exact ih hnext
  | suspend next =>
    obtain ⟨t, ms, rfl, -⟩ := course_suspend_iff.1 h
    exact not_unsuspended_resumes_cons t ms

theorem both_leads (l : Routine σ α) (r : Routine σ β) :
    Leads (both l r) (l.bind fun a => r.bind fun b => .done (a, b)) := by
  intro s ms x s' h hms
  induction l generalizing s ms with
  | done a => exact h
  | read next ih => exact .read (ih s s ms (course_read_iff.1 h) hms)
  | write t next ih =>
    obtain ⟨ms, rfl, hnext⟩ := course_write_iff.1 h
    exact .write (ih t ms hnext (unsuspended_writes_cons.1 hms))
  | suspend next => exact absurd hms (not_unsuspended_of_turn h)

theorem candid_inPasses : Candid (inPasses : Join σ α) := by
  intro rs
  induction rs with
  | nil => exact .refl _
  | cons r rs ih =>
    have hrest : Leads (r.bind fun a => (inPasses rs).bind fun as => .done (a, as))
        (r.bind fun a => (inOrder rs).bind fun as => .done (a, as)) :=
      (Leads.refl r).bind fun _ => ih.bind fun as => .refl _
    rw [inOrder_cons]
    exact ((both_leads r (inPasses rs)).trans hrest).bind fun x => .refl _

/-! ## Routines that go through -/

/-- From the state the routine goes through without suspending, and keeps the invariant. -/
def GoesThroughFrom (inv : σ → Prop) : Routine σ α → σ → Prop
  | .done _, _ => True
  | .read next, s => GoesThroughFrom inv (next s) s
  | .write t next, _ => inv t ∧ GoesThroughFrom inv next t
  | .suspend _, _ => False

def GoesThrough (inv : σ → Prop) (r : Routine σ α) : Prop := ∀ s, inv s → GoesThroughFrom inv r s

section GoesThrough

variable {inv : σ → Prop}

theorem goesThrough_pure (a : α) : GoesThrough inv (pure a) := fun _ _ => trivial

theorem goesThroughFrom_bind {r : Routine σ α} {f : α → Routine σ β} {s : σ} (hs : inv s)
    (hr : GoesThroughFrom inv r s) (hf : ∀ a, GoesThrough inv (f a)) :
    GoesThroughFrom inv (r.bind f) s := by
  induction r generalizing s with
  | done a => exact hf a s hs
  | read next ih => exact ih s hs hr
  | write t next ih => exact ⟨hr.1, ih hr.1 hr.2⟩
  | suspend next => exact hr.elim

theorem GoesThrough.bind {r : Routine σ α} {f : α → Routine σ β} (hr : GoesThrough inv r)
    (hf : ∀ a, GoesThrough inv (f a)) : GoesThrough inv (r >>= f) :=
  fun s hs => goesThroughFrom_bind hs (hr s hs) hf

theorem goesThrough_modify {f : σ → σ} (h : ∀ s, inv s → inv (f s)) :
    GoesThrough inv (modify f) :=
  fun s hs => ⟨h s hs, trivial⟩

theorem goesThrough_both {l : Routine σ α} {r : Routine σ β} (hl : GoesThrough inv l)
    (hr : GoesThrough inv r) : GoesThrough inv (both l r) := by
  intro s hs
  replace hl := hl s hs
  induction l generalizing s with
  | done a => exact goesThroughFrom_bind hs (hr s hs) fun b => goesThrough_pure (a, b)
  | read next ih => exact ih s s hs hl
  | write t next ih => exact ⟨hl.1, ih t hl.1 hl.2⟩
  | suspend next => exact hl.elim

theorem goesThrough_inPasses {rs : List (Routine σ α)} (h : ∀ r ∈ rs, GoesThrough inv r) :
    GoesThrough inv (inPasses rs) := by
  induction rs with
  | nil => exact goesThrough_pure []
  | cons r rs ih =>
    have hrest := ih fun q hq => h q (List.mem_cons_of_mem r hq)
    exact (goesThrough_both (h r List.mem_cons_self) hrest).bind fun _ => goesThrough_pure _

/-- The run of such a routine is a course of it. -/
theorem GoesThrough.course_run {r : Routine σ α} (h : GoesThrough inv r) {s : σ} (hs : inv s) :
    ∃ ms, Course r s ms (r.run s).1 (r.run s).2 ∧ Unsuspended ms := by
  replace h := h s hs
  clear hs
  induction r generalizing s with
  | done a => exact ⟨[], .done a s, unsuspended_nil⟩
  | read next ih =>
    obtain ⟨ms, h, hms⟩ := ih s h
    exact ⟨ms, .read h, hms⟩
  | write t next ih =>
    obtain ⟨ms, h, hms⟩ := ih h.2
    exact ⟨.writes t :: ms, .write h, unsuspended_writes_cons.2 hms⟩
  | suspend next => exact h.elim

end GoesThrough

section Zoom

variable {τ : Type} {view : τ → σ} {update : σ → τ → τ}

/-- A routine that never suspends, over a part that the invariant does not depend on. -/
theorem NeverSuspends.goesThrough_zoom {inv : τ → Prop} (hinv : ∀ s t, inv t → inv (update s t))
    {r : Routine σ α} (h : NeverSuspends r) : GoesThrough inv (r.zoom view update) := by
  intro t ht
  induction h generalizing t with
  | done a => exact trivial
  | read _ ih => exact ih _ t ht
  | write s _ ih => exact ⟨hinv s t ht, ih _ (hinv s t ht)⟩

theorem NeverSuspends.bind {r : Routine σ α} {f : α → Routine σ β} (h : NeverSuspends r)
    (hf : ∀ a, NeverSuspends (f a)) : NeverSuspends (r >>= f) := by
  change NeverSuspends (r.bind f)
  induction h with
  | done a => exact hf a
  | read _ ih => exact .read ih
  | write s _ ih => exact .write s ih

theorem neverSuspends_ofState (m : StateM σ α) : NeverSuspends (ofState m) :=
  .read fun s => .write (m s).2 (.done (m s).1)

theorem neverSuspends_modify (f : σ → σ) : NeverSuspends (modify f) :=
  .read fun s => .write (f s) (.done ())

/-- A transformation of a part of the state, followed by what depends on its result. -/
theorem goesThrough_ofState_bind {inv : τ → Prop} {m : StateM σ α} {f : α → Routine τ β}
    (h : ∀ t, inv t → inv (update (m (view t)).2 t) ∧ GoesThrough inv (f (m (view t)).1)) :
    GoesThrough inv ((ofState m).zoom view update >>= f) := by
  intro t ht
  obtain ⟨hinv, hf⟩ := h t ht
  exact ⟨hinv, hf _ hinv⟩

/-- A routine that keeps an invariant of the part. -/
theorem GoesThrough.zoom {inv : σ → Prop} (hview : ∀ s t, view (update s t) = s)
    {r : Routine σ α} (h : GoesThrough inv r) :
    GoesThrough (fun t => inv (view t)) (r.zoom view update) := by
  intro t ht
  replace h := h (view t) ht
  clear ht
  induction r generalizing t with
  | done a => exact trivial
  | read next ih => exact ih _ t h
  | write s next ih =>
    have hupdate : inv (view (update s t)) := by
      rw [hview]
      exact h.1
    refine ⟨hupdate, ih _ ?_⟩
    rw [hview]
    exact h.2
  | suspend next => exact h

end Zoom

end GraphAssembly.Routine
