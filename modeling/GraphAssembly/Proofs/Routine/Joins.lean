import GraphAssembly.Proofs.Routine.Schedules
import GraphAssembly.Proofs.Routine.Trace

/-!
# What several routines add to a trace together

A join is transparent when it adds what its routines add, each by itself, and puts their results in
the order of the routines. Then nothing that is said about the routines one by one depends on how
they are interleaved.

1. `Together` and `Transparent`.
2. Whichever routine makes a step, what all of them leave together stays the same
   (`Interleaves.adds`). So every join that schedules its routines is transparent.
-/

namespace GraphAssembly.Routine

variable {σ α β M : Type} [AddCommMonoid M] {trace : σ → M}

/-- The sum of what was added and all results, where each of the predicates holds of a part of that
sum and of the result in its place. -/
def Together (Qs : List (M → α → Prop)) (m : M) (as : List α) : Prop :=
  ∃ xs : List (M × α), List.Forall₂ (fun Q x => Q x.1 x.2) Qs xs ∧
    m = (xs.map Prod.fst).sum ∧ as = xs.map Prod.snd

def Transparent (trace : σ → M) (join : Join σ α) : Prop :=
  ∀ (Qs : List (M → α → Prop)) (rs : List (Routine σ α)), List.Forall₂ (Leaves trace) Qs rs →
    Leaves trace (Together Qs) (join rs)

theorem together_nil : Together ([] : List (M → α → Prop)) 0 [] := ⟨[], .nil, rfl, rfl⟩

theorem together_cons {Q : M → α → Prop} {Qs : List (M → α → Prop)} {m k : M} {a : α}
    {as : List α} (h : Q m a) (hs : Together Qs k as) : Together (Q :: Qs) (m + k) (a :: as) := by
  obtain ⟨xs, hxs, rfl, rfl⟩ := hs
  exact ⟨(m, a) :: xs, .cons h hxs, by simp, by simp⟩

/-! ## Schedules -/

theorem together_of_finished {xs : List (M × (M → α → Prop))} {as : List α}
    (h : List.Forall₂ (fun x a => x.2 x.1 a) xs as) :
    Together (xs.map Prod.snd) (xs.map Prod.fst).sum as := by
  induction h with
  | nil => exact together_nil
  | cons hx _ ih => simpa using together_cons hx ih

/-- Each routine comes with what it has added so far and with what it is to leave. What one step
adds is added to the first, for the routine as for the whole. -/
theorem Interleaves.adds {turn : Option Nat} {rs : List (Routine σ α)}
    {whole : Routine σ (List α)} (h : Interleaves turn rs whole)
    {xs : List (M × (M → α → Prop))} {s : σ}
    (hrs : Pending (fun x r => Adds trace x.2 r x.1) (fun _ => True) turn s rs xs) :
    Adds trace (Together (xs.map Prod.snd)) whole (xs.map Prod.fst).sum s := by
  induction h generalizing xs s with
  | finished as => exact together_of_finished (hrs.finished trivial)
  | pause _ ih => exact fun t => ih (hrs.anywhere t)
  | start i _ ih => exact ih (hrs.start i)
  | done hi _ ih => exact ih (hrs.stop trivial hi fun _ hx _ => hx)
  | read hi _ ih =>
    obtain ⟨x, hx, hr⟩ := hrs.exists_at trivial hi
    refine ih s (hrs.goOn hx fun u _ hu => ?_)
    obtain rfl := hu rfl
    exact hr
  | @write i rs t next _ hi _ ih =>
    obtain ⟨x, hx, d, htrace, hr⟩ := hrs.exists_at trivial hi
    have hset : Pending (fun x r => Adds trace x.2 r x.1) (fun _ => True) (some i) t
        (rs.set i next) (xs.set i (x.1 + d, x.2)) :=
      hrs.set fun u _ hu => by
        obtain rfl := hu rfl
        exact hr
    obtain ⟨k, hsum, hsum_set⟩ := exists_sum_set Prod.fst hx
    refine ⟨d, htrace, ?_⟩
    have := ih hset
    rwa [map_snd_set hx, hsum_set, add_right_comm, ← hsum] at this
  | suspend hi _ ih =>
    obtain ⟨x, hx, hr⟩ := hrs.exists_at trivial hi
    exact ih (hrs.goOn hx fun u _ _ => hr u)

theorem Scheduling.transparent {join : Join σ α} (h : Scheduling join) :
    Transparent trace join := by
  intro Qs rs hrs s
  -- before the first turn nothing has been added
  have hpending : Pending (fun x r => Adds trace x.2 r x.1) (fun _ => True) none s rs
      (Qs.map fun Q => (0, Q)) :=
    pending_of_forall (List.forall₂_map_left_iff.2 (hrs.imp fun _ _ hr t _ => hr t)) s
  have := (h rs).adds hpending
  simpa [Function.comp_def] using this

end GraphAssembly.Routine
