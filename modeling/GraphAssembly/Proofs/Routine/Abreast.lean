import GraphAssembly.Proofs.Routine.Schedules
import Mathlib.Data.List.Forall2
import Mathlib.Tactic.Abel

/-!
# Routines side by side

Two routines over states of their own go on side by side if they suspend together and finish
together, however many reads and writes each of them needs in between. What the first one adds to
its state beyond the second one is counted, and the counts of several routines add up.

1. `advance`, which leaves out the reads and writes.
2. `Level` and `Abreast`.
3. Routines one after another, and over parts of their states.
4. Joins of routines that are abreast.
-/

namespace GraphAssembly.Routine

variable {σ σ' τ τ' α α' β β' γ M : Type}

/-! ## Stretches -/

/-- Goes on until the routine finishes or suspends. -/
def advance : Routine σ α → σ → Routine σ α × σ
  | .done a, s => (.done a, s)
  | .read next, s => (next s).advance s
  | .write t next, _ => next.advance t
  | .suspend next, s => (.suspend next, s)

section Advance

variable (s : σ)

theorem run_advance (r : Routine σ α) : (r.advance s).1.run (r.advance s).2 = r.run s := by
  induction r generalizing s with
  | done a => rfl
  | read next ih => exact ih s s
  | write t next ih => exact ih t
  | suspend next => rfl

theorem advance_bind (r : Routine σ α) (f : α → Routine σ β) :
    (r.bind f).advance s = ((r.advance s).1.bind f).advance (r.advance s).2 := by
  induction r generalizing s with
  | done a => rfl
  | read next ih => exact ih s s
  | write t next ih => exact ih t
  | suspend next => rfl

theorem advance_turn {finished : β → Routine σ γ} {suspended : Routine σ β → Routine σ γ}
    (r : Routine σ β) : (r.turn finished suspended).advance s =
      ((r.advance s).1.turn finished suspended).advance (r.advance s).2 := by
  induction r generalizing s with
  | done a => rfl
  | read next ih => exact ih s s
  | write t next ih => exact ih t
  | suspend next => rfl

theorem advance_both (l : Routine σ α) (r : Routine σ β) :
    (both l r).advance s = (both (l.advance s).1 r).advance (l.advance s).2 := by
  induction l generalizing s with
  | done a => rfl
  | read next ih => exact ih s s
  | write t next ih => exact ih t
  | suspend next => rfl

theorem getElem?_set_of_getElem? {xs : List α} {i : Nat} {x : α} (hi : xs[i]? = some x) (y : α) :
    (xs.set i y)[i]? = some y := by
  rw [List.getElem?_set_self', hi]
  rfl

theorem advance_rotate {rs : List (Routine σ α)} {i : Nat} {r : Routine σ α}
    (hi : rs[i]? = some r) (paused : Bool) (others : List Nat) :
    (rotate rs paused (i :: others)).advance s =
      (rotate (rs.set i (r.advance s).1) paused (i :: others)).advance (r.advance s).2 := by
  induction r generalizing rs s with
  | done a | suspend next => rw [advance, set_self_of_getElem? hi]
  | read next ih =>
    have := ih s s (getElem?_set_of_getElem? hi (next s))
    rw [List.set_set] at this
    rwa [rotate_read hi]
  | write t next ih =>
    have := ih t (getElem?_set_of_getElem? hi next)
    rw [List.set_set] at this
    rwa [rotate_write hi]

end Advance

/-! ## Level routines -/

variable [AddCommMonoid M] {R : M → σ → τ → Prop} {Q : α → α' → Prop} {Q' : β → β' → Prop}
  {k c d d' : M} {s : σ} {t : τ}

/-- Two routines have both gone on until they finished or suspended. The state of the first one is
ahead by `k` and what it has added since, which is `d` in the end. -/
inductive Level (R : M → σ → τ → Prop) (Q : α → α' → Prop) :
    M → M → Routine σ α × σ → Routine τ α' × τ → Prop
  | done {d k : M} {a : α} {a' : α'} {s : σ} {t : τ} (ha : Q a a') (h : R (k + d) s t) :
    Level R Q d k (.done a, s) (.done a', t)
  /-- After the suspension the states may be any that are related. -/
  | suspend {d k d₁ d₂ : M} {next : Routine σ α} {next' : Routine τ α'} {s : σ} {t : τ}
    (hd : d = d₁ + d₂) (h : R (k + d₁) s t)
    (hnext : ∀ k s t, R k s t → Level R Q d₂ k (next.advance s) (next'.advance t)) :
    Level R Q d k (.suspend next, s) (.suspend next', t)

/-- The first routine adds `d` more than the second one. -/
def Abreast (R : M → σ → τ → Prop) (Q : α → α' → Prop) (d : M) (r : Routine σ α)
    (r' : Routine τ α') : Prop :=
  ∀ k s t, R k s t → Level R Q d k (r.advance s) (r'.advance t)

/-- What has been added already may be counted with the rest. -/
theorem Level.add {x : Routine σ α × σ} {y : Routine τ α' × τ} (h : Level R Q d (k + c) x y) :
    Level R Q (c + d) k x y := by
  cases h with
  | done ha h => exact .done ha (add_assoc k c d ▸ h)
  | @suspend _ _ d₁ d₂ _ _ _ _ hd h hnext =>
    have hsum : c + d = c + d₁ + d₂ := by rw [hd, add_assoc]
    exact .suspend hsum (add_assoc k c d₁ ▸ h) hnext

theorem Level.run {x : Routine σ α × σ} {y : Routine τ α' × τ} (h : Level R Q d k x y) :
    Q (x.1.run x.2).1 (y.1.run y.2).1 ∧ R (k + d) (x.1.run x.2).2 (y.1.run y.2).2 := by
  induction h with
  | done ha h => exact ⟨ha, h⟩
  | @suspend _ _ d₁ _ _ _ s t hd h _ ih =>
    have := ih _ s t h
    rwa [run_advance, run_advance, add_assoc, ← hd] at this

/-- The runs of routines that are abreast. -/
theorem Abreast.run {r : Routine σ α} {r' : Routine τ α'} (h : Abreast R Q d r r')
    (hs : R k s t) : Q (r.run s).1 (r'.run t).1 ∧ R (k + d) (r.run s).2 (r'.run t).2 := by
  have := (h k s t hs).run
  rwa [run_advance, run_advance] at this

/-! ## One after another -/

theorem abreast_pure {a : α} {a' : α'} (ha : Q a a') :
    Abreast R Q 0 (pure a : Routine σ α) (pure a' : Routine τ α') :=
  fun k _ _ hs => .done ha ((add_zero k).symm ▸ hs)

theorem Level.bind {f : α → Routine σ β} {f' : α' → Routine τ β'} {x : Routine σ α × σ}
    {y : Routine τ α' × τ} (h : Level R Q d k x y)
    (hf : ∀ a a', Q a a' → Abreast R Q' d' (f a) (f' a')) :
    Level R Q' (d + d') k ((x.1.bind f).advance x.2) ((y.1.bind f').advance y.2) := by
  induction h with
  | done ha h => exact (hf _ _ ha _ _ _ h).add
  | suspend hd h _ ih =>
    refine .suspend (by rw [hd, add_assoc]) h fun k s t hs => ?_
    rw [advance_bind s, advance_bind t]
    exact ih k s t hs

theorem Abreast.bind {r : Routine σ α} {r' : Routine τ α'} {f : α → Routine σ β}
    {f' : α' → Routine τ β'} (h : Abreast R Q d r r')
    (hf : ∀ a a', Q a a' → Abreast R Q' d' (f a) (f' a')) :
    Abreast R Q' (d + d') (r >>= f) (r' >>= f') := by
  intro k s t hs
  change Level R Q' (d + d') k ((r.bind f).advance s) ((r'.bind f').advance t)
  rw [advance_bind s, advance_bind t]
  exact (h k s t hs).bind hf

/-- Nothing is added before the results are the same. -/
theorem Abreast.bind_eq {r : Routine σ γ} {r' : Routine τ γ} {f : γ → Routine σ β}
    {f' : γ → Routine τ β'} (h : Abreast R Eq 0 r r') (hf : ∀ c, Abreast R Q' d (f c) (f' c)) :
    Abreast R Q' d (r >>= f) (r' >>= f') := by
  rw [← zero_add d]
  refine h.bind fun c c' hc => ?_
  subst hc
  exact hf c

/-- Nothing is added after the first routine. -/
theorem Abreast.map {r : Routine σ α} {r' : Routine τ α'} {f : α → β} {f' : α' → β'}
    (h : Abreast R Q d r r') (hf : ∀ a a', Q a a' → Q' (f a) (f' a')) :
    Abreast R Q' d (r >>= fun a => pure (f a)) (r' >>= fun a => pure (f' a)) :=
  add_zero d ▸ h.bind fun a a' ha => abreast_pure (hf a a' ha)

theorem abreast_modify {f : σ → σ} {f' : τ → τ} (hf : ∀ k s t, R k s t → R (k + d) (f s) (f' t)) :
    Abreast R Eq d (modify f) (modify f') :=
  fun k s t hs => .done rfl (hf k s t hs)

/-- One routine, over the same part of both states. -/
theorem abreast_zoom {view : σ → σ'} {view' : τ → σ'} {update : σ' → σ → σ}
    {update' : σ' → τ → τ} (hview : ∀ k s t, R k s t → view s = view' t)
    (hupdate : ∀ k s t x, R k s t → R k (update x s) (update' x t)) (r : Routine σ' α) :
    Abreast R Eq 0 (r.zoom view update) (r.zoom view' update') := by
  intro k s t hs
  induction r generalizing k s t with
  | done a => exact .done rfl ((add_zero k).symm ▸ hs)
  | read next ih =>
    have := ih (view s) k s t hs
    simpa only [zoom, advance, hview k s t hs] using this
  | write x next ih => exact ih k _ _ (hupdate k s t x hs)
  | suspend next ih =>
    exact .suspend (add_zero 0).symm ((add_zero k).symm ▸ hs) ih

/-! ## Joins -/

/-- Two routines that go on side by side, and what the first one adds. -/
structure Pair (σ τ α α' M : Type) where
  left : Routine σ α
  right : Routine τ α'
  adds : M

section Joins

variable {xs : List (Pair σ τ α α' M)}

theorem abreast_inOrder (h : ∀ x ∈ xs, Abreast R Q x.adds x.left x.right) :
    Abreast R (List.Forall₂ Q) (xs.map Pair.adds).sum (inOrder (xs.map Pair.left))
      (inOrder (xs.map Pair.right)) := by
  induction xs with
  | nil => exact abreast_pure .nil
  | cons x xs ih =>
    have hxs := ih fun y hy => h y (List.mem_cons_of_mem x hy)
    rw [List.map_cons, List.sum_cons]
    exact (h x List.mem_cons_self).bind fun a a' ha => hxs.map fun as as' has => .cons ha has

def Componentwise (Q : α → α' → Prop) (Q' : β → β' → Prop) (p : α × β) (p' : α' × β') : Prop :=
  Q p.1 p'.1 ∧ Q' p.2 p'.2

theorem Level.both {x : Routine σ α × σ} {y : Routine τ α' × τ} (h : Level R Q d k x y)
    {r : Routine σ β} {r' : Routine τ β'} (hr : Abreast R Q' d' r r') :
    Level R (Componentwise Q Q') (d + d') k ((both x.1 r).advance x.2)
      ((both y.1 r').advance y.2) := by
  induction h generalizing r r' d' with
  | @done _ _ a a' s t ha h =>
    have hpairs : Abreast R (Componentwise Q Q') d' (r >>= fun b => pure (a, b))
        (r' >>= fun b => pure (a', b)) := hr.map fun b b' hb => ⟨ha, hb⟩
    exact (hpairs _ s t h).add
  | @suspend d k d₁ d₂ next next' s t hd h hnext ih =>
    -- the second routines have their turn while the first ones are suspended
    change Level _ _ _ _ ((r.turn _ _).advance s) ((r'.turn _ _).advance t)
    rw [advance_turn s, advance_turn t, hd]
    have hlevel := hr _ s t h
    generalize r.advance s = x at hlevel
    generalize r'.advance t = y at hlevel
    cases hlevel with
    | @done _ _ b b' _ _ hb h =>
      have hsum : d₁ + d₂ + d' = d₁ + d' + d₂ := by abel
      refine .suspend hsum (add_assoc k d₁ d' ▸ h) ?_
      exact Abreast.map hnext fun a a' ha => ⟨ha, hb⟩
    | @suspend _ _ e₁ e₂ rest rest' _ _ he h hrest =>
      have hsum : d₁ + d₂ + d' = d₁ + e₁ + (d₂ + e₂) := by
        rw [he]
        abel
      refine .suspend hsum (add_assoc k d₁ e₁ ▸ h) ?_
      intro k s t hs
      rw [advance_both s, advance_both t]
      exact ih k s t hs hrest

theorem abreast_inPasses (h : ∀ x ∈ xs, Abreast R Q x.adds x.left x.right) :
    Abreast R (List.Forall₂ Q) (xs.map Pair.adds).sum (inPasses (xs.map Pair.left))
      (inPasses (xs.map Pair.right)) := by
  induction xs with
  | nil => exact abreast_pure .nil
  | cons x xs ih =>
    have hxs := ih fun y hy => h y (List.mem_cons_of_mem x hy)
    rw [List.map_cons, List.sum_cons]
    refine Abreast.map (Q := Componentwise Q (List.Forall₂ Q)) ?_ fun p p' hp => .cons hp.1 hp.2
    intro k s t hs
    rw [advance_both s, advance_both t]
    exact (h x List.mem_cons_self k s t hs).both hxs

/-! ### In rotation -/

/-- All pairs are abreast but the one whose turn it is, which is level from the present states. -/
structure Ranked (R : M → σ → τ → Prop) (Q : α → α' → Prop) (turn : Option Nat) (k : M) (s : σ)
    (t : τ) (xs : List (Pair σ τ α α' M)) : Prop where
  waiting : ∀ i x, xs[i]? = some x → turn ≠ some i → Abreast R Q x.adds x.left x.right
  going : ∀ i x, xs[i]? = some x → turn = some i →
    Level R Q x.adds k (x.left.advance s) (x.right.advance t)

omit [AddCommMonoid M] in
theorem exists_pair {i : Nat} {l : Routine σ α} (hi : (xs.map Pair.left)[i]? = some l) :
    ∃ x, xs[i]? = some x ∧ x.left = l ∧ (xs.map Pair.right)[i]? = some x.right := by
  rw [List.getElem?_map] at hi
  obtain ⟨x, hx, rfl⟩ := Option.map_eq_some_iff.1 hi
  exact ⟨x, hx, rfl, by rw [List.getElem?_map, hx]; rfl⟩

omit [AddCommMonoid M] in
theorem map_set_of_eq {i : Nat} {x y : Pair σ τ α α' M} {f : Pair σ τ α α' M → β}
    (hx : xs[i]? = some x) (hf : f y = f x) : (xs.set i y).map f = xs.map f := by
  have hi : (xs.map f)[i]? = some (f y) := by rw [List.getElem?_map, hx, hf]; rfl
  rw [List.map_set, set_self_of_getElem? hi]

namespace Ranked

variable {i : Nat} {x : Pair σ τ α α' M} {s' : σ} {l l' : Routine σ α}

theorem of_forall (h : ∀ x ∈ xs, Abreast R Q x.adds x.left x.right) (hs : R k s t)
    (turn : Option Nat) : Ranked R Q turn k s t xs where
  waiting _ x hx _ := h x (List.mem_of_getElem? hx)
  going _ x hx _ := h x (List.mem_of_getElem? hx) k s t hs

/-- The left routine of the pair goes on, and comes to the same. -/
theorem goOn (h : Ranked R Q (some i) k s t xs) (hi : (xs.map Pair.left)[i]? = some l)
    (l' : Routine σ α) (s' : σ) (hl : l'.advance s' = l.advance s) : ∃ ys : List (Pair σ τ α α' M),
      ys.map Pair.left = (xs.map Pair.left).set i l' ∧ ys.map Pair.right = xs.map Pair.right ∧
        ys.map Pair.adds = xs.map Pair.adds ∧ Ranked R Q (some i) k s' t ys := by
  obtain ⟨x, hx, rfl, -⟩ := exists_pair hi
  refine ⟨xs.set i { x with left := l' }, List.map_set, map_set_of_eq hx rfl, map_set_of_eq hx rfl,
    fun j y hy hj => ?_, fun j y hy hj => ?_⟩
  · have hij : i ≠ j := fun e => hj (congrArg some e)
    exact h.waiting j y (by rwa [List.getElem?_set_ne hij] at hy) hj
  · obtain rfl := Option.some.inj hj
    rw [getElem?_set_of_getElem? hx] at hy
    obtain rfl := Option.some.inj hy
    rw [hl]
    exact h.going i x hx rfl

/-- The pair is replaced by one that is abreast, and has less to add. -/
theorem stop (h : Ranked R Q (some i) k s t xs) (hx : xs[i]? = some x) {y : Pair σ τ α α' M}
    (hd : x.adds = d + y.adds) (hy : Abreast R Q y.adds y.left y.right) :
    (xs.map Pair.adds).sum = d + ((xs.set i y).map Pair.adds).sum ∧
      ∀ z ∈ xs.set i y, Abreast R Q z.adds z.left z.right := by
  constructor
  · obtain ⟨others, hsum, hset⟩ := exists_sum_set Pair.adds hx
    rw [hsum, hset, hd, add_assoc]
  · intro z hz
    obtain ⟨j, hj⟩ := List.mem_iff_getElem?.1 hz
    by_cases hij : i = j
    · subst hij
      rw [getElem?_set_of_getElem? hx] at hj
      exact Option.some.inj hj ▸ hy
    · rw [List.getElem?_set_ne hij] at hj
      exact h.waiting j z hj fun e => hij (Option.some.inj e)

/-- The pair finishes. -/
theorem exists_done {a : α} (h : Ranked R Q (some i) k s t xs)
    (hi : (xs.map Pair.left)[i]? = some (.done a)) :
    ∃ (ys : List (Pair σ τ α α' M)) (d : M) (r : Routine τ α') (a' : α') (t' : τ),
      ys.map Pair.left = xs.map Pair.left ∧
      ys.map Pair.right = (xs.map Pair.right).set i (.done a') ∧
      (xs.map Pair.right)[i]? = some r ∧ r.advance t = (.done a', t') ∧ R (k + d) s t' ∧
      (xs.map Pair.adds).sum = d + (ys.map Pair.adds).sum ∧
      ∀ y ∈ ys, Abreast R Q y.adds y.left y.right := by
  obtain ⟨x, hx, hl, hi'⟩ := exists_pair hi
  have hlevel := h.going i x hx rfl
  generalize hy : x.right.advance t = y at hlevel
  rw [hl] at hlevel
  cases hlevel with
  | @done _ _ _ a' _ t' ha hR =>
    let y : Pair σ τ α α' M := ⟨.done a, .done a', 0⟩
    exact ⟨xs.set i y, x.adds, _, a', t', map_set_of_eq hx hl.symm, List.map_set, hi', hy, hR,
      h.stop hx (add_zero _).symm (abreast_pure ha)⟩

/-- The pair suspends. -/
theorem exists_suspend (h : Ranked R Q (some i) k s t xs)
    (hi : (xs.map Pair.left)[i]? = some (.suspend l)) :
    ∃ (ys : List (Pair σ τ α α' M)) (d : M) (r r' : Routine τ α') (t' : τ),
      ys.map Pair.left = (xs.map Pair.left).set i l ∧
      ys.map Pair.right = (xs.map Pair.right).set i r' ∧
      (xs.map Pair.right)[i]? = some r ∧ r.advance t = (.suspend r', t') ∧ R (k + d) s t' ∧
      (xs.map Pair.adds).sum = d + (ys.map Pair.adds).sum ∧
      ∀ y ∈ ys, Abreast R Q y.adds y.left y.right := by
  obtain ⟨x, hx, hl, hi'⟩ := exists_pair hi
  have hlevel := h.going i x hx rfl
  generalize hy : x.right.advance t = y at hlevel
  rw [hl] at hlevel
  cases hlevel with
  | @suspend _ _ d d' _ r' _ t' hd hR hnext =>
    let y : Pair σ τ α α' M := ⟨l, r', d'⟩
    exact ⟨xs.set i y, d, _, r', t', List.map_set, List.map_set, hi', hy, hR,
      h.stop (y := y) hx hd hnext⟩

end Ranked

theorem inOrder_map_done (as : List α) :
    inOrder (as.map .done : List (Routine σ α)) = .done as := by
  induction as with
  | nil => rfl
  | cons a as ih => rw [List.map_cons, inOrder, Routine.bind, ih, Routine.bind]

/-- The rotations of the left and of the right routines, while one of the left ones goes on. -/
theorem level_rotate {rs : List (Routine σ α)} {paused : Bool} {turns : List Nat}
    (hleft : xs.map Pair.left = rs) (hwaiting : Waiting rs turns)
    (hwaiting' : Waiting (xs.map Pair.right) turns)
    (h : Ranked R Q turns.head? k s t xs) (hs : turns = [] → R k s t) :
    Level R (List.Forall₂ Q) (xs.map Pair.adds).sum k ((rotate rs paused turns).advance s)
      ((rotate (xs.map Pair.right) paused turns).advance t) := by
  induction rs, paused, turns using rotate.induct generalizing xs k s t with
  | case1 rs paused =>
    obtain ⟨as, rfl⟩ := hwaiting.eq_map_done
    obtain ⟨as', has'⟩ := hwaiting'.eq_map_done
    have hall : ∀ x ∈ xs, Abreast R Q x.adds x.left x.right := fun x hx => by
      obtain ⟨i, hi⟩ := List.mem_iff_getElem?.1 hx
      exact h.waiting i x hi (by simp)
    have hlevel := abreast_inOrder hall k s t (hs rfl)
    rw [hleft, has', inOrder_map_done, inOrder_map_done] at hlevel
    rwa [has', rotate_map_done, rotate_map_done]
  | case2 rs paused i others hi =>
    exact absurd (hwaiting.lt i List.mem_cons_self) (by simpa using hi)
  | case3 rs paused i others a hi ih =>
    subst hleft
    obtain ⟨ys, d, r, a', t', hl, hr, hi', hadvance, hR, hsum, hys⟩ := h.exists_done hi
    have hyi := getElem?_set_of_getElem? hi' (.done a')
    rw [rotate_done hi, advance_rotate t hi', hadvance, rotate_done hyi, ← hr, hsum]
    refine Level.add (ih hl (hwaiting.drop hi) ?_ (.of_forall hys hR _) fun _ => hR)
    exact hr ▸ (hwaiting'.set _).drop hyi
  | case4 rs paused i others next hi ih =>
    subst hleft
    obtain ⟨ys, hl, hr, hadds, hys⟩ := h.goOn hi (next s) s rfl
    rw [rotate_read hi, ← hr, ← hadds]
    exact ih s hl (hwaiting.set _) (hr ▸ hwaiting') hys (by simp)
  | case5 rs paused i others s' next hi ih =>
    subst hleft
    obtain ⟨ys, hl, hr, hadds, hys⟩ := h.goOn hi next s' rfl
    rw [rotate_write hi, ← hr, ← hadds]
    exact ih hl (hwaiting.set _) (hr ▸ hwaiting') hys (by simp)
  | case6 rs paused i others next hi hpause ih =>
    subst hleft
    obtain ⟨ys, d, r, next', t', hl, hr, hi', hadvance, hR, hsum, hys⟩ := h.exists_suspend hi
    have hyi := getElem?_set_of_getElem? hi' (.suspend next')
    rw [rotate_suspend hi, if_pos hpause, advance_rotate t hi', hadvance, rotate_suspend hyi,
      if_pos hpause, List.set_set, ← hr]
    refine .suspend hsum hR fun k s t hs => ?_
    refine ih hl (hwaiting.set _).requeue ?_ (.of_forall hys hs _) fun _ => hs
    exact hr ▸ (hwaiting'.set _).requeue
  | case7 rs paused i others next hi hpause ih =>
    subst hleft
    obtain ⟨ys, d, r, next', t', hl, hr, hi', hadvance, hR, hsum, hys⟩ := h.exists_suspend hi
    have hyi := getElem?_set_of_getElem? hi' (.suspend next')
    rw [rotate_suspend hi, if_neg hpause, advance_rotate t hi', hadvance, rotate_suspend hyi,
      if_neg hpause, List.set_set, ← hr, hsum]
    refine Level.add (ih hl (hwaiting.set _).requeue ?_ (.of_forall hys hR _) fun _ => hR)
    exact hr ▸ (hwaiting'.set _).requeue

theorem abreast_inRotation (h : ∀ x ∈ xs, Abreast R Q x.adds x.left x.right) :
    Abreast R (List.Forall₂ Q) (xs.map Pair.adds).sum (inRotation (xs.map Pair.left))
      (inRotation (xs.map Pair.right)) := by
  intro k s t hs
  have hwaiting := waiting_range (xs.map Pair.left)
  have hwaiting' := waiting_range (xs.map Pair.right)
  unfold inRotation
  rw [List.length_map] at hwaiting hwaiting' ⊢
  rw [List.length_map]
  exact level_rotate rfl hwaiting hwaiting' (.of_forall h hs _) fun _ => hs

/-- Pairs of routines of which the left ones add nothing. -/
theorem exists_pairs {rs : List (Routine σ α)} {rs' : List (Routine τ α')}
    (h : List.Forall₂ (Abreast R Q 0) rs rs') : ∃ xs : List (Pair σ τ α α' M),
      xs.map Pair.left = rs ∧ xs.map Pair.right = rs' ∧ (xs.map Pair.adds).sum = 0 ∧
        ∀ x ∈ xs, Abreast R Q x.adds x.left x.right := by
  induction h with
  | nil => exact ⟨[], rfl, rfl, rfl, nofun⟩
  | @cons r r' _ _ hr _ ih =>
    obtain ⟨xs, rfl, rfl, hsum, hxs⟩ := ih
    exact ⟨⟨r, r', 0⟩ :: xs, rfl, rfl, by simpa using hsum, List.forall_mem_cons.2 ⟨hr, hxs⟩⟩

theorem abreast_concurrently (h : ∀ x ∈ xs, Abreast R Q x.adds x.left x.right) :
    Abreast R (List.Forall₂ Q) (xs.map Pair.adds).sum (concurrently (xs.map Pair.left))
      (concurrently (xs.map Pair.right)) := by
  unfold concurrently
  rw [List.length_map, List.length_map]
  split
  · exact abreast_inPasses h
  · exact abreast_inRotation h

end Joins

end GraphAssembly.Routine
