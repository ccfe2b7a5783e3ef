import GraphAssembly.Proofs.Routine.Schedules
import GraphAssembly.Proofs.Routine.Trace
import Mathlib.Algebra.Group.Nat.Defs

/-!
# Results that do not depend on others

A routine may find its state changed after a suspension. It comes to the same all the same if what
it reads has no influence on it, or is the same in all states that keep an invariant. Then it does
not matter how it is interleaved with others of this kind.

1. `Agree`: routines with one possible result.
2. `Gives`: the result of a routine, and what it adds to a trace; `Settles`: the result alone.
3. Routines over a part of the state.
4. Any schedule of such routines gives all results, and adds all that they add.
-/

namespace GraphAssembly.Routine

variable {σ τ α β M : Type}

/-! ## Possible results -/

/-- The two routines have at most one possible result, whatever they find in the state. -/
def Agree (r r' : Routine σ α) : Prop := ∀ a a', Returns r a → Returns r' a' → a = a'

theorem agree_pure (a : α) : Agree (pure a : Routine σ α) (pure a) := by
  rintro _ _ ⟨⟩ ⟨⟩
  rfl

theorem Agree.bind {r r' : Routine σ α} {f f' : α → Routine σ β} (h : Agree r r')
    (hf : ∀ a, Agree (f a) (f' a)) : Agree (r >>= f) (r' >>= f') := by
  intro b b' hb hb'
  obtain ⟨a, ha, hb⟩ := returns_bind hb
  obtain ⟨a', ha', hb'⟩ := returns_bind hb'
  obtain rfl := h a a' ha ha'
  exact hf a b b' hb hb'

/-! ## The result of a routine -/

variable [AddCommMonoid M] {inv : σ → Prop} {trace : σ → M}

/-- From the state `s` the routine adds `d` to the trace and ends with `a`, if it finds the
invariant after each suspension. It keeps the invariant itself. -/
def Ensures (inv : σ → Prop) (trace : σ → M) : Routine σ α → M → α → σ → Prop
  | .done b, d, a, _ => d = 0 ∧ b = a
  | .read next, d, a, s => Ensures inv trace (next s) d a s
  | .write t next, d, a, s =>
    inv t ∧ ∃ k d', d = k + d' ∧ trace t = trace s + k ∧ Ensures inv trace next d' a t
  | .suspend next, d, a, _ => ∀ t, inv t → Ensures inv trace next d a t

def Gives (inv : σ → Prop) (trace : σ → M) (r : Routine σ α) (d : M) (a : α) : Prop :=
  ∀ s, inv s → Ensures inv trace r d a s

/-- The routine ends with `a`. -/
def Settles (inv : σ → Prop) (r : Routine σ α) (a : α) : Prop :=
  Gives inv (fun _ => (0 : ℕ)) r 0 a

theorem gives_pure (a : α) : Gives inv trace (pure a) 0 a := fun _ _ => ⟨rfl, rfl⟩

theorem ensures_bind {r : Routine σ α} {f : α → Routine σ β} {d k : M} {a : α} {b : β} {s : σ}
    (hs : inv s) (hr : Ensures inv trace r d a s) (hf : Gives inv trace (f a) k b) :
    Ensures inv trace (r >>= f) (d + k) b s := by
  change Ensures inv trace (r.bind f) (d + k) b s
  induction r generalizing d s with
  | done c =>
    obtain ⟨rfl, rfl⟩ := hr
    rw [zero_add]
    exact hf s hs
  | read next ih => exact ih s hs hr
  | write t next ih =>
    obtain ⟨ht, c, d, rfl, htrace, hr⟩ := hr
    exact ⟨ht, c, d + k, add_assoc c d k, htrace, ih ht hr⟩
  | suspend next ih => exact fun t ht => ih ht (hr t ht)

theorem Gives.bind {r : Routine σ α} {f : α → Routine σ β} {d k : M} {a : α} {b : β}
    (hr : Gives inv trace r d a) (hf : Gives inv trace (f a) k b) :
    Gives inv trace (r >>= f) (d + k) b :=
  fun s hs => ensures_bind hs (hr s hs) hf

theorem Gives.map {r : Routine σ α} {d : M} {a : α} (hr : Gives inv trace r d a) (f : α → β) :
    Gives inv trace (f <$> r) d (f a) := by
  have := hr.bind (f := fun a => pure (f a)) (gives_pure (f a))
  rwa [add_zero] at this

theorem gives_modify {f : σ → σ} {d : M}
    (hf : ∀ s, inv s → inv (f s) ∧ trace (f s) = trace s + d) :
    Gives inv trace (modify f) d () := by
  intro s hs
  obtain ⟨hinv, htrace⟩ := hf s hs
  exact ⟨hinv, d, 0, (add_zero d).symm, htrace, rfl, rfl⟩

/-- The run of such a routine, which resumes each suspension at once. -/
theorem ensures_run {r : Routine σ α} {d : M} {a : α} {s : σ} (hs : inv s)
    (hr : Ensures inv trace r d a s) : (r.run s).1 = a ∧ trace (r.run s).2 = trace s + d := by
  induction r generalizing d s with
  | done b =>
    obtain ⟨rfl, rfl⟩ := hr
    exact ⟨rfl, (add_zero _).symm⟩
  | read next ih => exact ih s hs hr
  | write t next ih =>
    obtain ⟨ht, k, d, rfl, htrace, hr⟩ := hr
    obtain ⟨ha, hrun⟩ := ih ht hr
    exact ⟨ha, by rw [run, hrun, htrace, add_assoc]⟩
  | suspend next ih => exact ih hs (hr s hs)

/-! ## A part of the state -/

section Zoom

variable {inv : τ → Prop} {trace : τ → M} {view : τ → σ} {update : σ → τ → τ}

/-- A routine with one possible result, over a part that neither the trace nor the invariant depends
on. -/
theorem gives_zoom_of_returns (hinv : ∀ s t, inv t → inv (update s t))
    (htrace : ∀ s t, trace (update s t) = trace t) {r : Routine σ α} {a : α}
    (h : ∀ b, Returns r b → b = a) : Gives inv trace (r.zoom view update) 0 a := by
  intro t ht
  induction r generalizing t with
  | done b => exact ⟨rfl, h b (.done b)⟩
  | read next ih => exact ih _ (fun b hb => h b (.read hb)) t ht
  | write s next ih =>
    have hs := hinv s t ht
    refine ⟨hs, 0, 0, (add_zero 0).symm, ?_, ih (fun b hb => h b (.write hb)) _ hs⟩
    rw [htrace, add_zero]
  | suspend next ih => exact fun t ht => ih (fun b hb => h b (.suspend hb)) t ht

/-- A transformation of a part of the state, followed by what depends on its result. -/
theorem gives_ofState_bind {m : StateM σ α} {f : α → Routine τ β} {d : M} {b : β}
    (htrace : ∀ s t, trace (update s t) = trace t)
    (h : ∀ t, inv t → inv (update (m (view t)).2 t) ∧ Gives inv trace (f (m (view t)).1) d b) :
    Gives inv trace ((ofState m).zoom view update >>= f) d b := by
  intro t ht
  obtain ⟨hinv, hf⟩ := h t ht
  exact ⟨hinv, 0, d, (zero_add d).symm, by rw [htrace, add_zero], hf _ hinv⟩

/-- A routine with a fixed result, over a part that the trace does not depend on. -/
theorem Settles.zoom {inv : σ → Prop} (hview : ∀ s t, view (update s t) = s)
    (htrace : ∀ s t, trace (update s t) = trace t) {r : Routine σ α} {a : α}
    (h : Settles inv r a) : Gives (fun t => inv (view t)) trace (r.zoom view update) 0 a := by
  suffices hr : ∀ d t, Ensures inv (fun _ => (0 : ℕ)) r d a (view t) →
      Ensures (fun t => inv (view t)) trace (r.zoom view update) 0 a t from
    fun t ht => hr 0 t (h (view t) ht)
  intro d t hr
  clear h
  induction r generalizing d t with
  | done b => exact ⟨rfl, hr.2⟩
  | read next ih => exact ih _ d t hr
  | write s next ih =>
    obtain ⟨hs, _, d, _, _, hr⟩ := hr
    have hupdate : inv (view (update s t)) := by rwa [hview]
    refine ⟨hupdate, 0, 0, (add_zero 0).symm, by rw [htrace, add_zero], ih d _ ?_⟩
    rwa [hview]
  | suspend next ih => exact fun t ht => ih d t (hr _ ht)

end Zoom

/-! ## Schedules -/

theorem results_of_finished {xs : List (M × α)} {as : List α}
    (h : List.Forall₂ (fun x a => x.1 = 0 ∧ a = x.2) xs as) :
    (xs.map Prod.fst).sum = 0 ∧ as = xs.map Prod.snd := by
  induction h with
  | nil => exact ⟨rfl, rfl⟩
  | cons hx _ ih => simp [hx, ih]

/-- Whatever the order in which routines with fixed results go on, all results are there in the end,
each in its place, and all that was to be added is. Each routine comes with what it is still to
add and with its result. -/
theorem Interleaves.ensures {turn : Option Nat} {rs : List (Routine σ α)}
    {whole : Routine σ (List α)} (h : Interleaves turn rs whole) {xs : List (M × α)} {s : σ}
    (hs : inv s) (hrs : Pending (fun x r => Ensures inv trace r x.1 x.2) inv turn s rs xs) :
    Ensures inv trace whole (xs.map Prod.fst).sum (xs.map Prod.snd) s := by
  induction h generalizing xs s with
  | finished as => exact results_of_finished (hrs.finished hs)
  | pause _ ih => exact fun t ht => ih ht (hrs.anywhere t)
  | start i _ ih => exact ih hs (hrs.start i)
  | done hi _ ih => exact ih hs (hrs.stop hs hi fun _ hx _ => hx)
  | read hi _ ih =>
    obtain ⟨x, hx, hr⟩ := hrs.exists_at hs hi
    refine ih s hs (hrs.goOn hx fun u _ hu => ?_)
    obtain rfl := hu rfl
    exact hr
  | @write i rs t next _ hi _ ih =>
    obtain ⟨x, hx, ht, k, d, hadd, htrace, hr⟩ := hrs.exists_at hs hi
    have hset : Pending (fun x r => Ensures inv trace r x.1 x.2) inv (some i) t (rs.set i next)
        (xs.set i (d, x.2)) :=
      hrs.set fun u _ hu => by
        obtain rfl := hu rfl
        exact hr
    obtain ⟨others, hsum, hsum_set⟩ := exists_sum_set Prod.fst hx
    -- the others have all still to add what they had before
    refine ⟨ht, k, d + others, ?_, htrace, ?_⟩
    · rw [hsum, hadd, add_assoc]
    · have := ih ht hset
      rwa [map_snd_set hx, hsum_set] at this
  | suspend hi _ ih =>
    obtain ⟨x, hx, hr⟩ := hrs.exists_at hs hi
    exact ih hs (hrs.goOn hx fun u hu _ => hr u hu)

theorem Scheduling.gives {join : Join σ α} (h : Scheduling join) {rs : List (Routine σ α)}
    {xs : List (M × α)} (hrs : List.Forall₂ (fun r x => Gives inv trace r x.1 x.2) rs xs) :
    Gives inv trace (join rs) (xs.map Prod.fst).sum (xs.map Prod.snd) :=
  fun s hs => (h rs).ensures hs (pending_of_forall hrs.flip s)

end GraphAssembly.Routine
