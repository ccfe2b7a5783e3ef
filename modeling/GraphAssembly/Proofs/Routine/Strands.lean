import GraphAssembly.Proofs.Routine.Course
import GraphAssembly.Proofs.Routine.Schedules
import Mathlib.Data.List.Forall2

/-!
# Whose move it is

A course of several routines together is made up of courses of each of them: of one after the other
if they are joined in order, and of strands that may be twisted in any way if they are scheduled.

1. `course_run`: a run is a course.
2. `Part` and `Linked`: courses one after another.
3. `Act`: a move together with the routine that makes it, and `strand`.
4. `Strands`: what each step of a schedule does to the strands, and `Interleaves.exists_acts`.
5. `Scheduling.exists_parts`: the parts that make up a course of a join.
-/

namespace GraphAssembly.Routine

variable {σ α β : Type}

/-- A run is a course on which every suspension is resumed at once. -/
theorem course_run (r : Routine σ α) (s : σ) : ∃ ms, Course r s ms (r.run s).1 (r.run s).2 := by
  induction r generalizing s with
  | done a => exact ⟨[], .done a s⟩
  | read next ih =>
    obtain ⟨ms, h⟩ := ih s s
    exact ⟨ms, .read h⟩
  | write t next ih =>
    obtain ⟨ms, h⟩ := ih t
    exact ⟨_, .write h⟩
  | suspend next ih =>
    obtain ⟨ms, h⟩ := ih s
    exact ⟨_, .suspend h⟩

/-! ## One after another -/

/-- A course of one of several routines. -/
structure Part (σ α : Type) where
  start : σ
  moves : List (Move σ)
  result : α
  stop : σ

def Part.Of (r : Routine σ α) (x : Part σ α) : Prop := Course r x.start x.moves x.result x.stop

/-- Each part starts in the state in which the one before stopped. -/
inductive Linked : σ → List (Part σ α) → σ → Prop
  | nil (s : σ) : Linked s [] s
  | cons (x : Part σ α) {xs : List (Part σ α)} {s' : σ} (h : Linked x.stop xs s') :
    Linked x.start (x :: xs) s'

/-- Routines that are joined in order go on one after another, each once. -/
theorem course_inOrder_iff {rs : List (Routine σ α)} {s s' : σ} {ms : List (Move σ)}
    {as : List α} : Course (inOrder rs) s ms as s' ↔ ∃ xs : List (Part σ α),
      List.Forall₂ Part.Of rs xs ∧ Linked s xs s' ∧ ms = xs.flatMap Part.moves ∧
        as = xs.map Part.result := by
  induction rs generalizing s ms as with
  | nil =>
    rw [inOrder, course_done_iff]
    constructor
    · rintro ⟨rfl, rfl, rfl⟩
      exact ⟨[], .nil, .nil _, rfl, rfl⟩
    · rintro ⟨_, ⟨⟩, ⟨⟩, rfl, rfl⟩
      exact ⟨rfl, rfl, rfl⟩
  | cons r rs ih =>
    have hcons : inOrder (r :: rs) = r >>= fun a => (a :: ·) <$> inOrder rs := rfl
    rw [hcons, course_bind_iff]
    constructor
    · rintro ⟨first, a, t, rest, rfl, hr, hrest⟩
      obtain ⟨as, rfl, hrs⟩ := course_map_iff.1 hrest
      obtain ⟨xs, hxs, hlinked, rfl, rfl⟩ := ih.1 hrs
      have hx : Part.Of r ⟨s, first, a, t⟩ := hr
      exact ⟨_, .cons hx hxs, hlinked.cons ⟨s, first, a, t⟩, rfl, rfl⟩
    · rintro ⟨xs, hxs, hlinked, rfl, rfl⟩
      cases hxs with
      | @cons _ x _ _ hr hxs =>
        cases hlinked with
        | cons _ hlinked =>
          exact ⟨x.moves, x.result, x.stop, _, rfl, hr,
            course_map_iff.2 ⟨_, rfl, ih.2 ⟨_, hxs, hlinked, rfl, rfl⟩⟩⟩

/-! ## Strands -/

/-- What happens while several routines go on together. -/
inductive Act (σ : Type) where
  /-- The routine at the position is started or resumed, and finds this state. -/
  | goesOn (i : Nat) (s : σ)
  | writes (i : Nat) (s : σ)
  /-- The whole is resumed, and finds this state. -/
  | resumes (s : σ)

namespace Act

/-- What the routine at a position has to do with it. -/
def own? (i : Nat) : Act σ → Option (Move σ)
  | goesOn j s => if j = i then some (.resumes s) else none
  | writes j s => if j = i then some (.writes s) else none
  | resumes _ => none

/-- What the whole has to do with it. -/
def whole? : Act σ → Option (Move σ)
  | goesOn _ _ => none
  | writes _ s => some (.writes s)
  | resumes s => some (.resumes s)

end Act

/-- The moves of the routine at a position, with its start. -/
def strand (i : Nat) (acts : List (Act σ)) : List (Move σ) := acts.filterMap (Act.own? i)

/-- All routines share their state. -/
inductive Acts : σ → List (Act σ) → σ → Prop
  | nil (s : σ) : Acts s [] s
  | goesOn (i : Nat) {s s' : σ} {acts : List (Act σ)} (h : Acts s acts s') :
    Acts s (.goesOn i s :: acts) s'
  | writes (i : Nat) {s t s' : σ} {acts : List (Act σ)} (h : Acts t acts s') :
    Acts s (.writes i t :: acts) s'
  | resumes {s t s' : σ} {acts : List (Act σ)} (h : Acts t acts s') :
    Acts s (.resumes t :: acts) s'

section Act

variable {acts : List (Act σ)} {i j : Nat} {s : σ}

theorem strand_goesOn_self :
    strand i (.goesOn i s :: acts) = .resumes s :: strand i acts := by
  simp [strand, Act.own?]

theorem strand_writes_self :
    strand i (.writes i s :: acts) = .writes s :: strand i acts := by
  simp [strand, Act.own?]

theorem strand_goesOn_of_ne (h : i ≠ j) : strand j (.goesOn i s :: acts) = strand j acts := by
  simp [strand, Act.own?, h]

theorem strand_writes_of_ne (h : i ≠ j) : strand j (.writes i s :: acts) = strand j acts := by
  simp [strand, Act.own?, h]

end Act

/-- The moves of a routine that waits: it is started or resumed first, unless it is finished. -/
inductive Waits : Routine σ α → List (Move σ) → α → Prop
  | done (a : α) : Waits (.done a) [] a
  | goesOn {r : Routine σ α} {s s' : σ} {ms : List (Move σ)} {a : α} (hr : ∀ b, r ≠ .done b)
    (h : Course r s ms a s') : Waits r (.resumes s :: ms) a

/-- The moves of the routine at a position are a course of what is left of it. -/
def Strung (turn : Option Nat) (s : σ) (acts : List (Act σ)) (as : List α) (i : Nat)
    (r : Routine σ α) : Prop :=
  ∃ a, as[i]? = some a ∧
    if turn = some i then ∃ s', Course r s (strand i acts) a s' else Waits r (strand i acts) a

/-- This is so at all positions. -/
def Strands (turn : Option Nat) (s : σ) (acts : List (Act σ)) (as : List α)
    (rs : List (Routine σ α)) : Prop :=
  as.length = rs.length ∧ ∀ i r, rs[i]? = some r → Strung turn s acts as i r

section Strands

variable {s t : σ} {acts acts' : List (Act σ)} {as : List α} {i : Nat} {r : Routine σ α}
  {rs rs' : List (Routine σ α)} {turn turn' : Option Nat}

theorem strung_at : Strung (some i) s acts as i r ↔
    ∃ a s', as[i]? = some a ∧ Course r s (strand i acts) a s' := by
  simp [Strung]

theorem strung_none : Strung none s acts as i r ↔ ∃ a, as[i]? = some a ∧
    Waits r (strand i acts) a := by
  simp [Strung]

theorem strung_of_ne {j : Nat} (hturn : turn = none ∨ turn = some i) (hij : i ≠ j) :
    Strung turn s acts as j r ↔ ∃ a, as[j]? = some a ∧ Waits r (strand j acts) a := by
  rcases hturn with rfl | rfl <;> simp [Strung, hij]

namespace Strands

/-- Nothing happens to the routines that wait while one goes on. -/
theorem of_others (h : Strands turn t acts as rs') (hlength : rs'.length = rs.length)
    (hrs : ∀ j, i ≠ j → rs[j]? = rs'[j]?) (hturn : turn = none ∨ turn = some i)
    (hturn' : turn' = none ∨ turn' = some i)
    (hacts : ∀ j, i ≠ j → strand j acts' = strand j acts)
    (hi : ∀ r, rs[i]? = some r → Strung turn' s acts' as i r) : Strands turn' s acts' as rs := by
  refine ⟨h.1.trans hlength, fun j r hr => ?_⟩
  by_cases hij : i = j
  · exact hij ▸ hi r (hij ▸ hr)
  · have hwaits := (strung_of_ne hturn hij).1 (h.2 j r (hrs j hij ▸ hr))
    rw [strung_of_ne hturn' hij, hacts j hij]
    exact hwaits

/-- The routine at a position takes a step, from which `r` is left of it. -/
theorem of_set (h : Strands turn t acts as (rs.set i r)) (hturn : turn = none ∨ turn = some i)
    (hacts : ∀ j, i ≠ j → strand j acts' = strand j acts) {r' : Routine σ α}
    (hi : rs[i]? = some r') (hr' : Strung (some i) s acts' as i r') :
    Strands (some i) s acts' as rs := by
  refine h.of_others (by simp) (fun j hij => (List.getElem?_set_ne hij).symm) hturn (.inr rfl)
    hacts fun q hq => ?_
  cases hi.symm.trans hq
  exact hr'

theorem strung_set (h : Strands turn t acts as (rs.set i r)) {r' : Routine σ α}
    (hi : rs[i]? = some r') : Strung turn t acts as i r := by
  refine h.2 i r ?_
  rw [List.getElem?_set_self', hi]
  rfl

theorem finished (as : List α) (s : σ) : Strands none s [] as (as.map .done) := by
  refine ⟨by simp, fun i r hr => ?_⟩
  rw [List.getElem?_map] at hr
  obtain ⟨a, ha, rfl⟩ := Option.map_eq_some_iff.1 hr
  exact strung_none.2 ⟨a, ha, .done a⟩

theorem pause (h : Strands none t acts as rs) (s : σ) :
    Strands none s (.resumes t :: acts) as rs :=
  ⟨h.1, fun i r hr => strung_none.2 (strung_none.1 (h.2 i r hr))⟩

/-- Nothing comes of starting a routine that is finished. -/
theorem start (h : Strands (some i) s acts as rs) :
    Strands none s acts as rs ∨ Strands none s (.goesOn i s :: acts) as rs := by
  by_cases hdone : ∃ b, rs[i]? = some (.done b)
  · refine .inl (h.of_others rfl (fun _ _ => rfl) (.inr rfl) (.inl rfl) (fun _ _ => rfl)
      fun r hr => ?_)
    obtain ⟨b, hb⟩ := hdone
    obtain ⟨a, t, ha, hcourse⟩ := strung_at.1 (h.2 i r hr)
    cases hb.symm.trans hr
    obtain ⟨hstrand, rfl, rfl⟩ := course_done_iff.1 hcourse
    exact strung_none.2 ⟨_, ha, hstrand ▸ .done _⟩
  · refine .inr (h.of_others rfl (fun _ _ => rfl) (.inr rfl) (.inl rfl)
      (fun _ hij => strand_goesOn_of_ne hij) fun r hr => ?_)
    obtain ⟨a, t, ha, hcourse⟩ := strung_at.1 (h.2 i r hr)
    refine strung_none.2 ⟨a, ha, ?_⟩
    rw [strand_goesOn_self]
    exact .goesOn (fun b hb => hdone ⟨b, hb ▸ hr⟩) hcourse

theorem done {b : α} (h : Strands none s acts as rs) (hi : rs[i]? = some (.done b)) :
    Strands (some i) s acts as rs := by
  refine h.of_others rfl (fun _ _ => rfl) (.inl rfl) (.inr rfl) (fun _ _ => rfl) fun r hr => ?_
  cases hi.symm.trans hr
  obtain ⟨a, ha, hwaits⟩ := strung_none.1 (h.2 i _ hr)
  generalize hstrand : strand i acts = moves at hwaits
  cases hwaits with
  | done => exact strung_at.2 ⟨b, s, ha, hstrand ▸ .done b s⟩
  | goesOn hb => exact absurd rfl (hb b)

theorem read {next : σ → Routine σ α} (h : Strands (some i) s acts as (rs.set i (next s)))
    (hi : rs[i]? = some (.read next)) : Strands (some i) s acts as rs := by
  obtain ⟨a, t, ha, hcourse⟩ := strung_at.1 (h.strung_set hi)
  exact h.of_set (.inr rfl) (fun _ _ => rfl) hi (strung_at.2 ⟨a, t, ha, .read hcourse⟩)

theorem write {next : Routine σ α} (h : Strands (some i) t acts as (rs.set i next))
    (hi : rs[i]? = some (.write t next)) (s : σ) :
    Strands (some i) s (.writes i t :: acts) as rs := by
  obtain ⟨a, t', ha, hcourse⟩ := strung_at.1 (h.strung_set hi)
  refine h.of_set (.inr rfl) (fun _ hij => strand_writes_of_ne hij) hi
    (strung_at.2 ⟨a, t', ha, ?_⟩)
  rw [strand_writes_self]
  exact .write hcourse

/-- A routine that only has to be resumed is resumed at once. -/
theorem suspend {next : Routine σ α} (h : Strands none s acts as (rs.set i next))
    (hi : rs[i]? = some (.suspend next)) :
    Strands (some i) s acts as rs ∨ Strands (some i) s (.goesOn i s :: acts) as rs := by
  obtain ⟨a, ha, hwaits⟩ := strung_none.1 (h.strung_set hi)
  generalize hstrand : strand i acts = moves at hwaits
  cases hwaits with
  | done =>
    refine .inr (h.of_set (.inl rfl) (fun _ hij => strand_goesOn_of_ne hij) hi
      (strung_at.2 ⟨a, s, ha, ?_⟩))
    rw [strand_goesOn_self, hstrand]
    exact .suspend (.done a s)
  | @goesOn _ _ t _ _ _ hcourse =>
    refine .inl (h.of_set (.inl rfl) (fun _ _ => rfl) hi (strung_at.2 ⟨a, t, ha, ?_⟩))
    rw [hstrand]
    exact .suspend hcourse

end Strands

end Strands

/-- Whatever a scheduler does, each routine takes a course of its own, and what the whole does is
what its routines do. -/
theorem Interleaves.exists_acts {turn : Option Nat} {rs : List (Routine σ α)}
    {whole : Routine σ (List α)} (h : Interleaves turn rs whole) {s s' : σ} {ms : List (Move σ)}
    {as : List α} (hc : Course whole s ms as s') : ∃ acts, Acts s acts s' ∧
      acts.filterMap Act.whole? = ms ∧ Strands turn s acts as rs := by
  induction h generalizing s ms with
  | finished bs =>
    obtain ⟨rfl, rfl, rfl⟩ := course_done_iff.1 hc
    exact ⟨[], .nil _, rfl, .finished _ _⟩
  | pause _ ih =>
    obtain ⟨t, ms, rfl, hcourse⟩ := course_suspend_iff.1 hc
    obtain ⟨acts, hacts, rfl, hrs⟩ := ih hcourse
    exact ⟨.resumes t :: acts, .resumes hacts, rfl, hrs.pause s⟩
  | start i _ ih =>
    obtain ⟨acts, hacts, rfl, hrs⟩ := ih hc
    rcases hrs.start with hrs | hrs
    · exact ⟨acts, hacts, rfl, hrs⟩
    · exact ⟨.goesOn i s :: acts, .goesOn i hacts, rfl, hrs⟩
  | done hi _ ih =>
    obtain ⟨acts, hacts, rfl, hrs⟩ := ih hc
    exact ⟨acts, hacts, rfl, hrs.done hi⟩
  | read hi _ ih =>
    obtain ⟨acts, hacts, rfl, hrs⟩ := ih s (course_read_iff.1 hc)
    exact ⟨acts, hacts, rfl, hrs.read hi⟩
  | @write i _ t _ _ hi _ ih =>
    obtain ⟨ms, rfl, hcourse⟩ := course_write_iff.1 hc
    obtain ⟨acts, hacts, rfl, hrs⟩ := ih hcourse
    exact ⟨.writes i t :: acts, .writes i hacts, rfl, hrs.write hi s⟩
  | @suspend i _ _ _ hi _ ih =>
    obtain ⟨acts, hacts, rfl, hrs⟩ := ih hc
    rcases hrs.suspend hi with hrs | hrs
    · exact ⟨acts, hacts, rfl, hrs⟩
    · exact ⟨.goesOn i s :: acts, .goesOn i hacts, rfl, hrs⟩

/-! ## The parts of a course -/

/-- The part is all that the routine at the position does. A routine that does nothing need not even
be started. -/
def Part.IsStrand (i : Nat) (acts : List (Act σ)) (x : Part σ α) : Prop :=
  strand i acts = .resumes x.start :: x.moves ∨ strand i acts = [] ∧ x.moves = []

theorem Waits.exists_part {r : Routine σ α} {i : Nat} {acts : List (Act σ)} {a : α}
    (h : Waits r (strand i acts) a) (s : σ) :
    ∃ x : Part σ α, x.Of r ∧ x.result = a ∧ x.IsStrand i acts := by
  generalize hstrand : strand i acts = ms at h
  cases h with
  | done => exact ⟨⟨s, [], a, s⟩, Course.done a s, rfl, .inr ⟨hstrand, rfl⟩⟩
  | @goesOn _ t t' ms _ _ h => exact ⟨⟨t, ms, a, t'⟩, h, rfl, .inl hstrand⟩

/-- Whatever the scheduler does, each routine goes on once, as if it were alone but for the states
it finds after suspensions. -/
theorem Scheduling.exists_parts {join : Join σ α} (h : Scheduling join) {rs : List (Routine σ α)}
    {s s' : σ} {ms : List (Move σ)} {as : List α} (hc : Course (join rs) s ms as s') :
    ∃ (acts : List (Act σ)) (xs : List (Part σ α)), Acts s acts s' ∧
      acts.filterMap Act.whole? = ms ∧ List.Forall₂ Part.Of rs xs ∧ as = xs.map Part.result ∧
        ∀ i (x : Part σ α), xs[i]? = some x → x.IsStrand i acts := by
  obtain ⟨acts, hacts, hms, hlength, hrs⟩ := (h rs).exists_acts hc
  have hpart (i : Fin rs.length) : ∃ x : Part σ α, x.Of rs[i] ∧ as[i]? = some x.result ∧
      x.IsStrand i acts := by
    obtain ⟨a, ha, hwaits⟩ := strung_none.1 (hrs i rs[i] (List.getElem?_eq_getElem i.2))
    obtain ⟨x, hx, rfl, hstrand⟩ := hwaits.exists_part s
    exact ⟨x, hx, ha, hstrand⟩
  choose part hof hresult hstrand using hpart
  refine ⟨acts, List.ofFn part, hacts, hms, ?_, ?_, fun i x hx => ?_⟩
  · rw [List.forall₂_iff_get]
    refine ⟨by simp, fun i hi hi' => ?_⟩
    simpa using hof ⟨i, hi⟩
  · refine List.ext_getElem (by simpa using hlength) fun i hi hi' => ?_
    have hi'' : i < rs.length := by simpa using hi'
    have : as[i]? = some (part ⟨i, hi''⟩).result := hresult ⟨i, hi''⟩
    rw [List.getElem?_eq_getElem hi] at this
    simpa using Option.some.inj this
  · obtain ⟨hi, rfl⟩ := List.getElem?_eq_some_iff.1 hx
    simpa using hstrand ⟨i, by simpa using hi⟩

end GraphAssembly.Routine
