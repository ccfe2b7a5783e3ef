import GraphAssembly.Routine

/-!
# Courses

A course is one way in which a routine can go: the state it starts from, what it writes, the states
it finds when it is resumed, its result, and the state it ends in. While it is suspended others may
do anything to the state; otherwise the routine is alone with it.

1. `Move` and `Course`.
2. The courses of one routine after another, and of one that may fail.
3. The courses of a routine over a part of the state.
-/

namespace GraphAssembly.Routine

variable {σ τ α β ε δ : Type}

/-! ## Courses -/

inductive Move (σ : Type) where
  | writes (s : σ)
  /-- After a suspension the routine finds this state. -/
  | resumes (s : σ)

inductive Course : Routine σ α → σ → List (Move σ) → α → σ → Prop
  | done (a : α) (s : σ) : Course (.done a) s [] a s
  | read {next : σ → Routine σ α} {s s' : σ} {ms : List (Move σ)} {a : α}
    (h : Course (next s) s ms a s') : Course (.read next) s ms a s'
  | write {next : Routine σ α} {s t s' : σ} {ms : List (Move σ)} {a : α}
    (h : Course next t ms a s') : Course (.write t next) s (.writes t :: ms) a s'
  | suspend {next : Routine σ α} {s t s' : σ} {ms : List (Move σ)} {a : α}
    (h : Course next t ms a s') : Course (.suspend next) s (.resumes t :: ms) a s'

section Steps

variable {s s' : σ} {ms : List (Move σ)} {a : α}

@[simp] theorem course_done_iff {b : α} :
    Course (.done a) s ms b s' ↔ ms = [] ∧ b = a ∧ s' = s := by
  constructor
  · intro h
    cases h
    exact ⟨rfl, rfl, rfl⟩
  · rintro ⟨rfl, rfl, rfl⟩
    exact .done _ _

@[simp] theorem course_read_iff {next : σ → Routine σ α} :
    Course (.read next) s ms a s' ↔ Course (next s) s ms a s' :=
  ⟨fun h => by cases h with | read h => exact h, .read⟩

@[simp] theorem course_write_iff {next : Routine σ α} {t : σ} :
    Course (.write t next) s ms a s' ↔
      ∃ ms', ms = .writes t :: ms' ∧ Course next t ms' a s' := by
  constructor
  · intro h
    cases h with
    | write h => exact ⟨_, rfl, h⟩
  · rintro ⟨ms', rfl, h⟩
    exact .write h

@[simp] theorem course_suspend_iff {next : Routine σ α} :
    Course (.suspend next) s ms a s' ↔
      ∃ t ms', ms = .resumes t :: ms' ∧ Course next t ms' a s' := by
  constructor
  · intro h
    cases h with
    | suspend h => exact ⟨_, _, rfl, h⟩
  · rintro ⟨t, ms', rfl, h⟩
    exact .suspend h

/-- A course in which nothing suspends is the run. -/
theorem Course.run_eq {r : Routine σ α} (h : Course r s ms a s') (hms : ∀ t, .resumes t ∉ ms) :
    r.run s = (a, s') := by
  induction h with
  | done => rfl
  | read _ ih => exact ih hms
  | write _ ih => exact ih fun t ht => hms t (List.mem_cons_of_mem _ ht)
  | suspend => exact absurd List.mem_cons_self (hms _)

end Steps

/-! ## One after another -/

section Bind

variable {s s' : σ} {ms : List (Move σ)}

theorem course_bind_iff {r : Routine σ α} {f : α → Routine σ β} {b : β} :
    Course (r >>= f) s ms b s' ↔ ∃ first a t rest, ms = first ++ rest ∧
      Course r s first a t ∧ Course (f a) t rest b s' := by
  change Course (r.bind f) s ms b s' ↔ _
  induction r generalizing s ms with
  | done a =>
    constructor
    · exact fun h => ⟨[], a, s, ms, rfl, .done a s, h⟩
    · rintro ⟨first, _, _, rest, rfl, hr, hf⟩
      obtain ⟨rfl, rfl, rfl⟩ := course_done_iff.1 hr
      exact hf
  | read next ih =>
    simp only [Routine.bind, course_read_iff]
    exact ih s
  | write t next ih =>
    simp only [Routine.bind, course_write_iff]
    constructor
    · rintro ⟨ms, rfl, h⟩
      obtain ⟨first, a, u, rest, rfl, hr, hf⟩ := ih.1 h
      exact ⟨_, a, u, rest, rfl, ⟨first, rfl, hr⟩, hf⟩
    · rintro ⟨_, a, u, rest, rfl, ⟨first, rfl, hr⟩, hf⟩
      exact ⟨_, rfl, ih.2 ⟨first, a, u, rest, rfl, hr, hf⟩⟩
  | suspend next ih =>
    simp only [Routine.bind, course_suspend_iff]
    constructor
    · rintro ⟨t, ms, rfl, h⟩
      obtain ⟨first, a, u, rest, rfl, hr, hf⟩ := ih.1 h
      exact ⟨_, a, u, rest, rfl, ⟨t, first, rfl, hr⟩, hf⟩
    · rintro ⟨_, a, u, rest, rfl, ⟨t, first, rfl, hr⟩, hf⟩
      exact ⟨t, _, rfl, ih.2 ⟨first, a, u, rest, rfl, hr, hf⟩⟩

theorem course_map_iff {r : Routine σ α} {f : α → β} {b : β} :
    Course (f <$> r) s ms b s' ↔ ∃ a, b = f a ∧ Course r s ms a s' := by
  rw [← bind_pure_comp, course_bind_iff]
  constructor
  · rintro ⟨first, a, t, rest, rfl, hr, hf⟩
    obtain ⟨rfl, rfl, rfl⟩ := course_done_iff.1 hf
    exact ⟨a, rfl, by rwa [List.append_nil]⟩
  · rintro ⟨a, rfl, hr⟩
    exact ⟨ms, a, s', [], by rw [List.append_nil], hr, .done _ _⟩

/-- A failure ends the course. -/
theorem course_run_bind_iff {x : ExceptT ε (Routine σ) α} {f : α → ExceptT ε (Routine σ) β}
    {out : Except ε β} : Course (x >>= f).run s ms out s' ↔
      (∃ e, out = .error e ∧ Course x.run s ms (.error e) s') ∨
      ∃ first a t rest, ms = first ++ rest ∧ Course x.run s first (.ok a) t ∧
        Course (f a).run t rest out s' := by
  rw [ExceptT.run_bind, course_bind_iff]
  constructor
  · rintro ⟨first, e | a, t, rest, rfl, hx, hf⟩
    · obtain ⟨rfl, rfl, rfl⟩ := course_done_iff.1 hf
      exact .inl ⟨e, rfl, by rwa [List.append_nil]⟩
    · exact .inr ⟨first, a, t, rest, rfl, hx, hf⟩
  · rintro (⟨e, rfl, hx⟩ | ⟨first, a, t, rest, rfl, hx, hf⟩)
    · exact ⟨ms, .error e, s', [], by rw [List.append_nil], hx, .done _ _⟩
    · exact ⟨first, .ok a, t, rest, rfl, hx, hf⟩

theorem course_adapt_iff {wrap : δ → ε} {x : ExceptT δ (Routine σ) α} {out : Except ε α} :
    Course (ExceptT.adapt wrap x).run s ms out s' ↔
      ∃ y, out = y.mapError wrap ∧ Course x.run s ms y s' :=
  course_map_iff

end Bind

/-! ## A part of the state -/

section Zoom

variable {view : τ → σ} {update : σ → τ → τ} {s s' : τ} {ms : List (Move τ)}

theorem zoom_bind (r : Routine σ α) (f : α → Routine σ β) :
    (r >>= f).zoom view update = r.zoom view update >>= fun a => (f a).zoom view update := by
  change (r.bind f).zoom view update = (r.zoom view update).bind _
  induction r with
  | done a => rfl
  | read next ih => simp only [Routine.bind, zoom, ih]
  | write t next ih => simp only [Routine.bind, zoom, ih]
  | suspend next ih => simp only [Routine.bind, zoom, ih]

theorem course_ofState_iff {m : StateM σ α} {a : α} :
    Course ((ofState m).zoom view update) s ms a s' ↔
      a = (m (view s)).1 ∧ s' = update (m (view s)).2 s ∧ ms = [.writes s'] := by
  simp only [ofState, zoom, course_read_iff, course_write_iff, course_done_iff]
  constructor
  · rintro ⟨_, rfl, rfl, rfl, rfl⟩
    exact ⟨rfl, rfl, rfl⟩
  · rintro ⟨rfl, rfl, rfl⟩
    exact ⟨[], rfl, rfl, rfl, rfl⟩

theorem course_modify_iff {f : σ → σ} {a : Unit} :
    Course ((modify f).zoom view update) s ms a s' ↔
      s' = update (f (view s)) s ∧ ms = [.writes s'] := by
  simp only [modify, zoom, course_read_iff, course_write_iff, course_done_iff]
  constructor
  · rintro ⟨_, rfl, rfl, -, rfl⟩
    exact ⟨rfl, rfl⟩
  · rintro ⟨rfl, rfl⟩
    exact ⟨[], rfl, rfl, trivial, rfl⟩

end Zoom

end GraphAssembly.Routine
