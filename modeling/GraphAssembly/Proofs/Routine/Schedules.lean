import GraphAssembly.Routine.Rotation
import Mathlib.Algebra.BigOperators.Group.List.Basic

/-!
# Schedules

What a scheduler may do with several routines: it starts or resumes any one of them, which goes on
alone until it suspends or finishes, and it may suspend the whole in between. The whole finishes
when all of them have.

1. `Interleaves`, and `Scheduling` joins.
2. Routines in order, and in passes.
3. Routines in rotation.
4. `Pending`: what each routine has still to do, while one after the other goes on.
-/

namespace GraphAssembly.Routine

variable {σ α : Type}

/-! ## Interleavings -/

/-- The last routine interleaves those of the list. `turn` is the position of the one that is going
on at present, if there is one. -/
inductive Interleaves : (turn : Option Nat) → List (Routine σ α) → Routine σ (List α) → Prop
  | finished (as : List α) : Interleaves none (as.map .done) (.done as)
  /-- The whole suspends. -/
  | pause {rs : List (Routine σ α)} {whole : Routine σ (List α)} (h : Interleaves none rs whole) :
    Interleaves none rs (.suspend whole)
  /-- Any routine may be next. -/
  | start (i : Nat) {rs : List (Routine σ α)} {whole : Routine σ (List α)}
    (h : Interleaves (some i) rs whole) : Interleaves none rs whole
  | done {i : Nat} {rs : List (Routine σ α)} {whole : Routine σ (List α)} {a : α}
    (hi : rs[i]? = some (.done a)) (h : Interleaves none rs whole) :
    Interleaves (some i) rs whole
  | read {i : Nat} {rs : List (Routine σ α)} {next : σ → Routine σ α}
    {whole : σ → Routine σ (List α)} (hi : rs[i]? = some (.read next))
    (h : ∀ s, Interleaves (some i) (rs.set i (next s)) (whole s)) :
    Interleaves (some i) rs (.read whole)
  | write {i : Nat} {rs : List (Routine σ α)} {s : σ} {next : Routine σ α}
    {whole : Routine σ (List α)} (hi : rs[i]? = some (.write s next))
    (h : Interleaves (some i) (rs.set i next) whole) : Interleaves (some i) rs (.write s whole)
  | suspend {i : Nat} {rs : List (Routine σ α)} {next : Routine σ α} {whole : Routine σ (List α)}
    (hi : rs[i]? = some (.suspend next)) (h : Interleaves none (rs.set i next) whole) :
    Interleaves (some i) rs whole

/-- The join interleaves whatever routines it is given, in an order of its own. -/
def Scheduling (join : Join σ α) : Prop := ∀ rs, Interleaves none rs (join rs)

/-! ## One more routine -/

section Cons

variable {rs : List (Routine σ α)} {whole : Routine σ (List α)} {turn : Option Nat}

/-- A finished routine has no part in what happens. -/
theorem Interleaves.cons_done (h : Interleaves turn rs whole) (a : α) :
    Interleaves (turn.map (· + 1)) (.done a :: rs) (whole.bind fun as => .done (a :: as)) := by
  induction h with
  | finished as => exact .finished (a :: as)
  | pause _ ih => exact .pause ih
  | start i _ ih => exact .start (i + 1) ih
  | done hi _ ih => exact .done (by simpa using hi) ih
  | read hi _ ih => exact .read (by simpa using hi) fun s => by simpa using ih s
  | write hi _ ih => exact .write (by simpa using hi) (by simpa using ih)
  | suspend hi _ ih => exact .suspend (by simpa using hi) (by simpa using ih)

/-- A routine is finished before the others go on; where it suspends, the whole does. -/
theorem Interleaves.cons_first (h : Interleaves none rs whole) (r : Routine σ α) :
    Interleaves (some 0) (r :: rs) (r.bind fun a => whole.bind fun as => .done (a :: as)) := by
  induction r with
  | done a => exact .done rfl (h.cons_done a)
  | read next ih => exact .read rfl ih
  | write s next ih => exact .write rfl ih
  | suspend next ih => exact .suspend rfl (.pause (.start 0 ih))

/-- The others get their turn until they suspend as a whole or finish. -/
theorem Interleaves.cons_turn {next : Routine σ α}
    (hnext : ∀ {rs : List (Routine σ α)} {whole : Routine σ (List α)}, Interleaves none rs whole →
      Interleaves (some 0) (next :: rs) ((both next whole).bind fun x => .done (x.1 :: x.2)))
    (h : Interleaves turn rs whole) :
    Interleaves (turn.map (· + 1)) (next :: rs)
      ((whole.turn (fun as => .suspend (next.bind fun a => .done (a, as)))
        fun rest => .suspend (both next rest)).bind fun x => .done (x.1 :: x.2)) := by
  induction h with
  | finished as =>
    have := (Interleaves.finished (σ := σ) as).cons_first next
    refine .pause (.start 0 ?_)
    rwa [bind_assoc']
  | pause h _ =>
    -- a pass is over: the next one begins with the routine in front
    exact .pause (.start 0 (hnext h))
  | start i _ ih => exact .start (i + 1) ih
  | done hi _ ih => exact .done (by simpa using hi) ih
  | read hi _ ih => exact .read (by simpa using hi) fun s => by simpa using ih s
  | write hi _ ih => exact .write (by simpa using hi) (by simpa using ih)
  | suspend hi _ ih => exact .suspend (by simpa using hi) (by simpa using ih)

theorem Interleaves.cons_both (h : Interleaves none rs whole) (r : Routine σ α) :
    Interleaves (some 0) (r :: rs) ((both r whole).bind fun x => .done (x.1 :: x.2)) := by
  induction r generalizing rs whole with
  | done a =>
    refine .done rfl ?_
    rw [both, bind_assoc']
    exact h.cons_done a
  | read next ih => exact .read rfl fun s => ih s h
  | write s next ih => exact .write rfl (ih h)
  | suspend next ih => exact .suspend rfl (h.cons_turn ih)

end Cons

/-! ## In order and in passes -/

theorem scheduling_inOrder : Scheduling (inOrder : Join σ α) := by
  intro rs
  induction rs with
  | nil => exact .finished []
  | cons r rs ih => exact .start 0 (ih.cons_first r)

theorem scheduling_inPasses : Scheduling (inPasses : Join σ α) := by
  intro rs
  induction rs with
  | nil => exact .finished []
  | cons r rs ih => exact .start 0 (ih.cons_both r)

/-! ## In rotation -/

/-- The routines that are not finished are waiting for their turns. -/
structure Waiting (rs : List (Routine σ α)) (turns : List Nat) : Prop where
  lt : ∀ i ∈ turns, i < rs.length
  mem : ∀ i r, rs[i]? = some r → i ∉ turns → ∃ a, r = .done a

section Rotation

variable {rs : List (Routine σ α)} {i : Nat} {others : List Nat}

theorem Waiting.drop {a : α} (h : Waiting rs (i :: others)) (hi : rs[i]? = some (.done a)) :
    Waiting rs others where
  lt j hj := h.lt j (List.mem_cons_of_mem i hj)
  mem j r hr hj := by
    by_cases hij : j = i
    · subst hij
      cases hi.symm.trans hr
      exact ⟨a, rfl⟩
    · exact h.mem j r hr (by simp [hij, hj])

theorem Waiting.set (h : Waiting rs (i :: others)) (r : Routine σ α) :
    Waiting (rs.set i r) (i :: others) where
  lt j hj := by simpa using h.lt j hj
  mem j q hq hj := by
    have hij : i ≠ j := fun e => hj (e ▸ List.mem_cons_self)
    exact h.mem j q (by rwa [List.getElem?_set_ne hij] at hq) hj

theorem Waiting.requeue (h : Waiting rs (i :: others)) : Waiting rs (others ++ [i]) where
  lt j hj := h.lt j (by simpa [or_comm] using hj)
  mem j r hr hj := h.mem j r hr (by simpa [or_comm] using hj)

theorem Waiting.eq_map_done (h : Waiting rs []) : ∃ as : List α, rs = as.map .done := by
  induction rs with
  | nil => exact ⟨[], rfl⟩
  | cons r rs ih =>
    obtain ⟨a, rfl⟩ := h.mem 0 r rfl List.not_mem_nil
    have hrest (j : Nat) (q : Routine σ α) (hq : rs[j]? = some q) : ∃ a, q = .done a :=
      h.mem (j + 1) q (by simpa using hq) List.not_mem_nil
    obtain ⟨as, rfl⟩ := ih ⟨nofun, fun j q hq _ => hrest j q hq⟩
    exact ⟨a :: as, rfl⟩

/-- The routine at the head of the turns goes on, or any one may be next. -/
def InterleavesAt (turns : List Nat) (rs : List (Routine σ α)) (whole : Routine σ (List α)) :
    Prop :=
  Interleaves turns.head? rs whole ∧ Interleaves none rs whole

theorem Interleaves.at {whole : Routine σ (List α)} (h : Interleaves (some i) rs whole) :
    InterleavesAt (i :: others) rs whole :=
  ⟨h, .start i h⟩

theorem interleaves_rotate (rs : List (Routine σ α)) (paused : Bool) (turns : List Nat)
    (h : Waiting rs turns) : InterleavesAt turns rs (rotate rs paused turns) := by
  induction rs, paused, turns using rotate.induct with
  | case1 rs paused =>
    obtain ⟨as, rfl⟩ := h.eq_map_done
    rw [rotate_map_done]
    exact ⟨.finished as, .finished as⟩
  | case2 rs paused i others hi =>
    exact absurd (h.lt i List.mem_cons_self) (by simpa using hi)
  | case3 rs paused i others a hi ih =>
    rw [rotate_done hi]
    exact (Interleaves.done hi (ih (h.drop hi)).2).at
  | case4 rs paused i others next hi ih =>
    rw [rotate_read hi]
    exact (Interleaves.read hi fun s => (ih s (h.set _)).1).at
  | case5 rs paused i others s next hi ih =>
    rw [rotate_write hi]
    exact (Interleaves.write hi (ih (h.set _)).1).at
  | case6 rs paused i others next hi hpause ih =>
    rw [rotate_suspend hi, if_pos hpause]
    exact (Interleaves.suspend hi (.pause (ih (h.set _).requeue).2)).at
  | case7 rs paused i others next hi hpause ih =>
    rw [rotate_suspend hi, if_neg hpause]
    exact (Interleaves.suspend hi (ih (h.set _).requeue).2).at

end Rotation

theorem waiting_range (rs : List (Routine σ α)) : Waiting rs (List.range rs.length) where
  lt _ hi := List.mem_range.1 hi
  mem _ _ hr hi := absurd (List.mem_range.2 (List.getElem?_eq_some_iff.1 hr).1) hi

theorem scheduling_inRotation : Scheduling (inRotation : Join σ α) :=
  fun rs => (interleaves_rotate rs false (List.range rs.length) (waiting_range rs)).2

theorem scheduling_concurrently : Scheduling (concurrently : Join σ α) := by
  intro rs
  unfold concurrently
  split
  · exact scheduling_inPasses rs
  · exact scheduling_inRotation rs

/-! ## One item of a list -/

theorem set_self_of_getElem? {β : Type} {xs : List β} {i : Nat} {x : β} (hi : xs[i]? = some x) :
    xs.set i x = xs := by
  obtain ⟨hlt, rfl⟩ := List.getElem?_eq_some_iff.1 hi
  exact List.set_getElem_self hlt

theorem map_snd_set {M β : Type} {xs : List (M × β)} {i : Nat} {x : M × β}
    (hi : xs[i]? = some x) (d : M) :
    (xs.set i (d, x.2)).map Prod.snd = xs.map Prod.snd := by
  have hx : (xs.map Prod.snd)[i]? = some x.2 := by rw [List.getElem?_map, hi]; rfl
  rw [List.map_set, set_self_of_getElem? hx]

theorem rel_of_getElem? {β γ : Type} {R : β → γ → Prop} {xs : List β} {ys : List γ}
    (h : List.Forall₂ R xs ys) {i : Nat} {x : β} {y : γ} (hx : xs[i]? = some x)
    (hy : ys[i]? = some y) : R x y := by
  obtain ⟨hi, rfl⟩ := List.getElem?_eq_some_iff.1 hx
  obtain ⟨hj, rfl⟩ := List.getElem?_eq_some_iff.1 hy
  exact h.get hi hj

theorem exists_rel_of_mem {β γ : Type} {R : β → γ → Prop} {xs : List β} {ys : List γ}
    (h : List.Forall₂ R xs ys) {x : β} (hx : x ∈ xs) : ∃ y ∈ ys, R x y := by
  induction h with
  | nil => cases hx
  | cons hxy _ ih =>
    rcases List.mem_cons.1 hx with rfl | hx
    · exact ⟨_, List.mem_cons_self, hxy⟩
    · obtain ⟨y, hy, hR⟩ := ih hx
      exact ⟨y, List.mem_cons_of_mem _ hy, hR⟩

/-- A sum in which one of the summands changes. -/
theorem exists_sum_set {M β : Type} [AddCommMonoid M] (f : β → M) {xs : List β} {i : Nat}
    {x : β} (hi : xs[i]? = some x) : ∃ k, (xs.map f).sum = f x + k ∧
      ∀ y : β, ((xs.set i y).map f).sum = f y + k := by
  induction xs generalizing i with
  | nil => simp at hi
  | cons z xs ih =>
    cases i with
    | zero =>
      obtain rfl : z = x := by simpa using hi
      exact ⟨(xs.map f).sum, by simp, by simp⟩
    | succ i =>
      obtain ⟨k, hk, hset⟩ := ih (i := i) (by simpa using hi)
      refine ⟨f z + k, ?_, fun y => ?_⟩
      · simp [hk, add_left_comm]
      · rw [List.set_cons_succ, List.map_cons, List.sum_cons, hset, add_left_comm]

/-! ## What is still to be done -/

section Pending

variable {ω : Type} {P : ω → Routine σ α → σ → Prop} {inv : σ → Prop}

/-- `P x r s` says that the routine does `x` if it goes on from the state `s`. Each of the routines
does so from any state that keeps the invariant, or if it is going on at present, from the state
`s`. -/
def Pending (P : ω → Routine σ α → σ → Prop) (inv : σ → Prop) (turn : Option Nat) (s : σ)
    (rs : List (Routine σ α)) (xs : List ω) : Prop :=
  rs.length = xs.length ∧ ∀ i r x, rs[i]? = some r → xs[i]? = some x →
    ∀ t, inv t → (turn = some i → t = s) → P x r t

variable {turn : Option Nat} {s t : σ} {rs : List (Routine σ α)} {xs : List ω} {i : Nat}
  {r : Routine σ α}

theorem pending_of_forall (h : List.Forall₂ (fun x r => ∀ t, inv t → P x r t) xs rs) (s : σ) :
    Pending P inv none s rs xs := by
  exact ⟨h.length_eq.symm, fun i r x hr hx t ht _ => rel_of_getElem? h hx hr t ht⟩

theorem Pending.anywhere (h : Pending P inv none s rs xs) (t : σ) : Pending P inv none t rs xs :=
  ⟨h.1, fun i r x hr hx u hu _ => h.2 i r x hr hx u hu nofun⟩

theorem Pending.start (h : Pending P inv none s rs xs) (i : Nat) : Pending P inv (some i) s rs xs :=
  ⟨h.1, fun j r x hr hx t ht _ => h.2 j r x hr hx t ht nofun⟩

theorem Pending.exists_at (h : Pending P inv (some i) s rs xs) (hs : inv s)
    (hi : rs[i]? = some r) : ∃ x, xs[i]? = some x ∧ P x r s := by
  have hlt : i < xs.length := h.1 ▸ (List.getElem?_eq_some_iff.1 hi).1
  exact ⟨xs[i], List.getElem?_eq_getElem hlt,
    h.2 i r xs[i] hi (List.getElem?_eq_getElem hlt) s hs fun _ => rfl⟩

/-- The routine at a position goes on, and nothing else has changed for the others. -/
theorem Pending.set (h : Pending P inv (some i) s rs xs) {x : ω}
    (hr : ∀ u, inv u → (turn = some i → u = t) → P x r u) :
    Pending P inv turn t (rs.set i r) (xs.set i x) := by
  refine ⟨by simpa using h.1, fun j q y hq hy u hu hj => ?_⟩
  by_cases hij : i = j
  · subst hij
    rw [List.getElem?_set_self'] at hq hy
    obtain ⟨_, _, rfl⟩ := Option.map_eq_some_iff.1 hq
    obtain ⟨_, _, rfl⟩ := Option.map_eq_some_iff.1 hy
    exact hr u hu hj
  · rw [List.getElem?_set_ne hij] at hq hy
    exact h.2 j q y hq hy u hu fun e => absurd (Option.some.inj e) hij

/-- The same without a change of what the routine has to do. -/
theorem Pending.goOn (h : Pending P inv (some i) s rs xs) {x : ω} (hx : xs[i]? = some x)
    (hr : ∀ u, inv u → (turn = some i → u = t) → P x r u) :
    Pending P inv turn t (rs.set i r) xs := by
  have := h.set hr
  rwa [set_self_of_getElem? hx] at this

/-- What a finished routine has done does not depend on the state any more. -/
theorem Pending.stop (h : Pending P inv (some i) s rs xs) (hs : inv s) {a : α}
    (hi : rs[i]? = some (.done a)) (hP : ∀ x, P x (.done a) s → ∀ t, P x (.done a) t) :
    Pending P inv none s rs xs := by
  obtain ⟨x, hx, hr⟩ := h.exists_at hs hi
  have hdone : Pending P inv none s (rs.set i (.done a)) xs := h.goOn hx fun u _ _ => hP x hr u
  rwa [set_self_of_getElem? hi] at hdone

theorem Pending.finished {as : List α} (h : Pending P inv none s (as.map .done) xs) (hs : inv s) :
    List.Forall₂ (fun x a => P x (.done a) s) xs as := by
  refine List.forall₂_iff_get.2 ⟨by simpa using h.1.symm, fun i hx ha => ?_⟩
  exact h.2 i _ _ (by simp [ha]) (by simp [hx]) s hs nofun

end Pending

end GraphAssembly.Routine
