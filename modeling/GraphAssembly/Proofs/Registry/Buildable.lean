import GraphAssembly.Proofs.Registry.Log
import GraphAssembly.Proofs.Registry.Needs

/-!
# When a token has an instance

A resolution goes through the tokens that a token needs, and stops at the first failure. It succeeds
exactly if nothing that is needed can fail, wherever the resolution would come to it.

1. `Makes`: the instances that can be made for a token, out of those made for its dependencies.
2. `Sound`: what is needed has providers, is without cycles, and its factories succeed.
3. `resolve_orderly`: the answer, and the order of the work.
-/

namespace GraphAssembly.Registry

open Work Relation

variable {ω : Type}

/-! ## Making instances -/

inductive Makes (r : Registry ω) : Token → Instance ω → Prop
  | value {t p i} (hp : r.provider? t = some p) (hs : p.source = .value i) : Makes r t i
  | factory {t p build u i} {ds : Dependencies ω} (hp : r.provider? t = some p)
      (hs : p.source = .factory (ds.map Prod.fst) build) (hds : ∀ d ∈ ds, Makes r d.1 d.2)
      (hb : (build ds u).1 = .ok i) : Makes r t i

section Makes

variable {r : Registry ω} {t s d : Token} {p : Provider ω} {i j : Instance ω}

theorem DependsOn.mem (h : r.DependsOn t d) (hp : r.provider? t = some p) : d ∈ p.dependencies := by
  obtain ⟨q, hq, hd⟩ := h
  cases hp.symm.trans hq
  exact hd

/-- Every step from a token that an instance can be made for leads to another one. -/
theorem Makes.exists_dependency (h : r.Makes t i) (hd : r.DependsOn t d) : ∃ j, r.Makes d j := by
  cases h with
  | value hp hs =>
    have hmem := hd.mem hp
    rw [Provider.dependencies, hs] at hmem
    cases hmem
  | factory hp hs hds =>
    have hmem := hd.mem hp
    rw [Provider.dependencies, hs] at hmem
    obtain ⟨x, hx, rfl⟩ := List.mem_map.1 hmem
    exact ⟨x.2, hds x hx⟩

theorem Makes.exists_needed (h : r.Makes t i) (hs : r.Needs t s) : ∃ j, r.Makes s j := by
  induction hs with
  | refl => exact ⟨i, h⟩
  | tail _ hd ih =>
    obtain ⟨j, hj⟩ := ih
    exact hj.exists_dependency hd

theorem Makes.contains (h : r.Makes t i) : r.contains t := by
  cases h with
  | value hp => rw [Registry.contains, hp, Option.isSome_some]
  | factory hp => rw [Registry.contains, hp, Option.isSome_some]

/-- A cycle through a token goes through one of its dependencies. -/
theorem Makes.not_cyclic (h : r.Makes t i) : ¬ TransGen r.DependsOn t t := by
  induction h with
  | value hp hs =>
    intro hcycle
    obtain ⟨d, hd, -⟩ := TransGen.head'_iff.1 hcycle
    have hmem := hd.mem hp
    rw [Provider.dependencies, hs] at hmem
    cases hmem
  | factory hp hs _ _ ih =>
    intro hcycle
    obtain ⟨d, hd, hback⟩ := TransGen.head'_iff.1 hcycle
    have hmem := hd.mem hp
    rw [Provider.dependencies, hs] at hmem
    obtain ⟨x, hx, rfl⟩ := List.mem_map.1 hmem
    exact ih x hx (.tail' hback hd)

theorem same_of_map_fst_eq {ds ds' : Dependencies ω} (h : ds.map Prod.fst = ds'.map Prod.fst)
    (hsame : ∀ d ∈ ds, ∀ j, (d.1, j) ∈ ds' → d.2.Same j) : ds.Same ds' := by
  induction ds generalizing ds' with
  | nil =>
    cases List.map_eq_nil_iff.1 h.symm
    exact .nil
  | cons d ds ih =>
    obtain ⟨d', ds', rfl, hd, hds⟩ := List.map_eq_cons_iff.1 h.symm
    refine .cons ⟨hd.symm, hsame d List.mem_cons_self d'.2 (hd ▸ List.mem_cons_self)⟩ ?_
    exact ih hds.symm fun x hx j hj =>
      hsame x (List.mem_cons_of_mem _ hx) j (List.mem_cons_of_mem _ hj)

theorem Makes.of_value (h : r.Makes t j) (hp : r.provider? t = some p)
    (hs : p.source = .value i) : j = i := by
  cases h with
  | value hp' hs' =>
    cases hp.symm.trans hp'
    cases hs.symm.trans hs'
    rfl
  | factory hp' hs' =>
    cases hp.symm.trans hp'
    cases hs.symm.trans hs'

theorem Makes.of_factory (h : r.Makes t j) (hp : r.provider? t = some p) {dependencies build}
    (hs : p.source = .factory dependencies build) : ∃ (ds : Dependencies ω) (u : ω),
      ds.map Prod.fst = dependencies ∧ (∀ d ∈ ds, r.Makes d.1 d.2) ∧ (build ds u).1 = .ok j := by
  cases h with
  | value hp' hs' =>
    cases hp.symm.trans hp'
    cases hs.symm.trans hs'
  | @factory _ _ _ u _ ds hp' hs' hds hb =>
    cases hp.symm.trans hp'
    cases hs.symm.trans hs'
    exact ⟨ds, u, rfl, hds, hb⟩

/-- Deterministic factories make one instance for a token. -/
theorem Makes.same (hr : r.Deterministic) (h : r.Makes t i) (h' : r.Makes t j) : i.Same j := by
  induction h generalizing j with
  | value hp hs => rw [h'.of_value hp hs, Instance.Same]
  | @factory _ _ _ u i ds hp hs _ hb ih =>
    obtain ⟨ds', u', hkeys, hds', hb'⟩ := h'.of_factory hp hs
    have hds : ds.Same ds' := same_of_map_fst_eq hkeys.symm fun d hd j hj => ih d hd (hds' _ hj)
    have halike := hr _ (List.mem_of_find?_eq_some hp) _ _ hs ds ds' u u' hds
    rw [hb, hb'] at halike
    obtain ⟨_, ⟨⟩, hij⟩ := halike.exists_ok
    exact hij

end Makes

/-! ## Sound tokens -/

/-- What the token needs has providers and no cycles, and its factories succeed on instances of
their dependencies. -/
structure Sound (r : Registry ω) (t : Token) : Prop where
  registered : ∀ s, r.Needs t s → r.contains s
  acyclic : ∀ s, r.Needs t s → ¬ TransGen r.DependsOn s s
  succeeds : ∀ s p build (ds : Dependencies ω), r.Needs t s → r.provider? s = some p →
    p.source = .factory (ds.map Prod.fst) build → (∀ d ∈ ds, r.Makes d.1 d.2) →
    ∀ u, ∃ i, (build ds u).1 = .ok i

section Sound

variable {r : Registry ω} {t d : Token} {i : Instance ω}

theorem Sound.dependency (h : r.Sound t) (hd : r.DependsOn t d) : r.Sound d where
  registered s hs := h.registered s (.head hd hs)
  acyclic s hs := h.acyclic s (.head hd hs)
  succeeds s p build ds hs := h.succeeds s p build ds (.head hd hs)

theorem Makes.sound (hr : r.Deterministic) (h : r.Makes t i) : r.Sound t where
  registered s hs := by
    obtain ⟨j, hj⟩ := h.exists_needed hs
    exact hj.contains
  acyclic s hs := by
    obtain ⟨j, hj⟩ := h.exists_needed hs
    exact hj.not_cyclic
  succeeds s p build ds hs hp hsource hds u := by
    obtain ⟨j, hj⟩ := h.exists_needed hs
    obtain ⟨ds', u', hkeys, hds', hb⟩ := hj.of_factory hp hsource
    have hsame : ds'.Same ds :=
      same_of_map_fst_eq hkeys fun d hd j hj => (hds' d hd).same hr (hds _ hj)
    have halike := hr p (List.mem_of_find?_eq_some hp) _ build hsource ds' ds u' u hsame
    rw [hb] at halike
    obtain ⟨k, hk, -⟩ := halike.exists_ok
    exact ⟨k, hk⟩

end Sound

/-! ## Serving sound tokens -/

section Serving

variable {r : Registry ω} {chain ts : List Token} {t : Token} {p : Provider ω} {i : Instance ω}
  {w w' : Workshop ω} {log log' : List (Work ω)} {x : Except ResolutionError (List (Instance ω))}
  {u : ω}

/-- Everything kept can be made. -/
def KeepsMade (r : Registry ω) (w : Workshop ω) : Prop :=
  ∀ t i, w.instance? t = some i → r.Makes t i

theorem Finishes.makes (h : Finishes t w'.user p.source x log' (.ok i) u)
    (hp : r.provider? t = some p) (hds : Serves r chain p.dependencies w log x w')
    (hw' : r.KeepsMade w') : r.Makes t i := by
  rcases h.value_or_ran with hs | ⟨ds, hran⟩
  · exact .value hp hs
  · obtain ⟨-, -, -, -, build, hs, hb⟩ := h.of_ran hds hran
    exact .factory hp hs (fun d hd => hw' _ _ (h.handed hds hran d hd)) hb

theorem Finishes.keepsMade_keep (h : Finishes t w'.user p.source x log' (.ok i) u)
    (hp : r.provider? t = some p) (hi : w.instance? t = none)
    (hds : Serves r (chain ++ [t]) p.dependencies w log x w') (hw' : r.KeepsMade w') :
    r.KeepsMade ({ w' with user := u }.keep t i) := by
  intro s j hj
  by_cases hst : s = t
  · subst hst
    rw [hds.keep_self i u hi] at hj
    cases hj
    exact h.makes hp hds hw'
  · rw [Workshop.instance?_keep_of_ne hst] at hj
    exact hw' s j hj

theorem Serves.keepsMade (h : Serves r chain ts w log x w') (hw : r.KeepsMade w) :
    r.KeepsMade w' := by
  induction h with
  | done => exact hw
  | refused => exact hw
  | kept _ _ _ ih => exact ih hw
  | failed _ _ _ _ _ ih => exact ih hw
  | built hp hi _ hds hf _ ihds ihts => exact ihts (hf.keepsMade_keep hp hi hds (ihds hw))

theorem Sound.not_finishes_error (ht : r.Sound t) (hp : r.provider? t = some p)
    {is : List (Instance ω)} (hds : Serves r chain p.dependencies w log (.ok is) w')
    (hw' : r.KeepsMade w') {e : ResolutionError} :
    ¬ Finishes t w'.user p.source (.ok is) log' (.error e) u := by
  intro h
  obtain ⟨ds, reason, hran⟩ := h.broken_of_error
  obtain ⟨-, -, -, -, build, hs, hb⟩ := h.of_ran hds hran
  obtain ⟨i, hi⟩ := ht.succeeds t p build ds .refl hp hs
    (fun d hd => hw' _ _ (h.handed hds hran d hd)) w'.user
  cases hb.symm.trans hi

/-- Nothing fails where everything is sound: a cycle would be closed by a token of the chain, which
leads to itself. -/
theorem Serves.exists_ok (h : Serves r chain ts w log x w') (hw : r.KeepsMade w)
    (hts : ∀ t ∈ ts, r.Sound t) (hchain : ∀ c ∈ chain, ∀ t ∈ ts, TransGen r.DependsOn c t) :
    ∃ is, x = .ok is := by
  induction h with
  | done => exact ⟨[], rfl⟩
  | @refused _ t _ _ _ h =>
    have ht := hts t List.mem_cons_self
    cases h with
    | unknown hp =>
      have := ht.registered t .refl
      rw [Registry.contains, hp] at this
      cases this
    | cyclic hp hi hmem => exact absurd (hchain t hmem t List.mem_cons_self) (ht.acyclic t .refl)
  | kept _ _ _ ih =>
    obtain ⟨is, rfl⟩ := ih hw (fun t ht => hts t (List.mem_cons_of_mem _ ht))
      fun c hc t ht => hchain c hc t (List.mem_cons_of_mem _ ht)
    exact ⟨_, rfl⟩
  | @failed chain t ts _ _ _ _ _ _ _ _ hp _ _ hds hf ih =>
    have ht := hts t List.mem_cons_self
    obtain ⟨is, rfl⟩ := ih hw (fun d hd => ht.dependency ⟨_, hp, hd⟩) fun c hc d hd => by
      rcases List.mem_append.1 hc with hc | hc
      · exact (hchain c hc t List.mem_cons_self).tail ⟨_, hp, hd⟩
      · rw [List.mem_singleton.1 hc]
        exact .single ⟨_, hp, hd⟩
    exact absurd hf (ht.not_finishes_error hp hds (hds.keepsMade hw))
  | built hp hi _ hds hf _ _ ih =>
    obtain ⟨is, rfl⟩ := ih (hf.keepsMade_keep hp hi hds (hds.keepsMade hw))
      (fun t ht => hts t (List.mem_cons_of_mem _ ht))
      fun c hc t ht => hchain c hc t (List.mem_cons_of_mem _ ht)
    exact ⟨_, rfl⟩

/-- Whatever is kept so far can be made: a token is resolved exactly if it is sound. -/
theorem resolve_ok_iff (hr : r.Deterministic) (hw : r.KeepsMade w) :
    (∃ i, (r.resolve t w).1 = .ok i) ↔ r.Sound t := by
  obtain ⟨log, hlog⟩ := r.exists_logs t w
  rw [Logs] at hlog
  constructor
  · rintro ⟨i, hi⟩
    rw [hi] at hlog
    have hkept := hlog.all_kept rfl
    cases hkept with
    | cons hkept _ => exact (hlog.keepsMade hw t i hkept).sound hr
  · intro ht
    obtain ⟨is, his⟩ := hlog.exists_ok hw (fun s hs => List.mem_singleton.1 hs ▸ ht) nofun
    cases hi : (r.resolve t w).1 with
    | ok i => exact ⟨i, rfl⟩
    | error e =>
      rw [hi] at his
      cases his

end Serving

/-! ## Resolutions of a fresh registry -/

/-- How the work of a resolution goes: nothing is begun twice, in particular not while it is in
progress; no factory runs twice; and a factory runs once its dependencies have been served. -/
structure Orderly (r : Registry ω) (log : List (Work ω)) : Prop where
  entered : (entered log).Nodup
  bounded : (Work.entered log).length ≤ r.providers.length
  produced : (produced log).Nodup
  prepared : r.Prepared log

variable {r : Registry ω}

/-- A resolution ends, with an instance just if the token is sound, and its work is orderly. The
work is that of the factories: if they note down their runs, they have written what the log says. -/
theorem resolve_orderly (hr : r.Deterministic) (t : Token) (u : ω) :
    ((∃ i, (r.resolve t ⟨[], u⟩).1 = .ok i) ↔ r.Sound t) ∧
      (∃ log, r.Logs t ⟨[], u⟩ log) ∧ ∀ log, r.Logs t ⟨[], u⟩ log →
        r.Orderly log ∧ ∀ {γ : Type} (note : Work ω → γ) (written : ω → List γ),
          r.WritesDown note written →
            written (r.resolve t ⟨[], u⟩).2.user = written u ++ (runs log).map note := by
  refine ⟨resolve_ok_iff hr nofun, r.exists_logs t _, fun log hlog => ⟨?_, ?_⟩⟩
  · exact ⟨hlog.entered_nodup, hlog.entered_length_le, hlog.produced_nodup, hlog.prepared⟩
  · intro γ note written hwrites
    exact hlog.written_eq hwrites

/-- What a baker writes down: what has been made, and the numbers of what went into it. -/
abbrev Diary := List (Token × List Nat)

/-- Each thing is numbered by the page it is written on. -/
def bake (name : String) (dependencies : List Token) : Provider Diary where
  token := ⟨name⟩
  source := .factory dependencies fun ds diary =>
    (.ok ⟨diary.length + 1, .held name .null⟩,
      diary ++ [(⟨name⟩, ds.map fun d => d.2.identity)])

/-- Bread has what it needs; eggs and hens need one another. -/
def bakery : Registry Diary where
  providers := [
    ⟨⟨"Flour"⟩, .value ⟨0, .held "Flour" .null⟩⟩,
    bake "Dough" [⟨"Flour"⟩, ⟨"Flour"⟩],
    bake "Bread" [⟨"Dough"⟩, ⟨"Flour"⟩],
    bake "Egg" [⟨"Hen"⟩],
    bake "Hen" [⟨"Egg"⟩]]

theorem bakery_deterministic : bakery.Deterministic := by
  intro p hp dependencies build hsource ds ds' u u' _
  simp only [bakery, List.mem_cons, List.not_mem_nil, or_false] at hp
  obtain rfl | rfl | rfl | rfl | rfl := hp <;> cases hsource <;> exact .ok rfl

/-- A page of the diary. -/
def page : Work Diary → Token × List Nat
  | .ran t ds _ => (t, ds.map fun d => d.2.identity)
  | .opened t | .closed t _ => (t, [])

theorem bakery_writesDown : bakery.WritesDown page id := by
  intro p hp dependencies build hsource ds diary
  simp only [bakery, List.mem_cons, List.not_mem_nil, or_false] at hp
  obtain rfl | rfl | rfl | rfl | rfl := hp <;> cases hsource <;> rfl

theorem bakery_makes_bread : ∃ i, bakery.Makes ⟨"Bread"⟩ i := by
  let flour : Instance Diary := ⟨0, .held "Flour" .null⟩
  let dough : Instance Diary := ⟨1, .held "Dough" .null⟩
  have hflour : bakery.Makes ⟨"Flour"⟩ flour := .value rfl rfl
  have hds : ∀ d ∈ ([(⟨"Flour"⟩, flour), (⟨"Flour"⟩, flour)] : Dependencies Diary),
      bakery.Makes d.1 d.2 :=
    List.forall_mem_cons.2 ⟨hflour, List.forall_mem_singleton.2 hflour⟩
  have hdough : bakery.Makes ⟨"Dough"⟩ dough := .factory (u := []) rfl rfl hds rfl
  have hds' : ∀ d ∈ ([(⟨"Dough"⟩, dough), (⟨"Flour"⟩, flour)] : Dependencies Diary),
      bakery.Makes d.1 d.2 :=
    List.forall_mem_cons.2 ⟨hdough, List.forall_mem_singleton.2 hflour⟩
  exact ⟨_, .factory (u := []) rfl rfl hds' rfl⟩

/-- The dough is made of flour alone, and then the bread of both. -/
theorem bakery_orderly : bakery.Deterministic ∧
    (∃ i, (bakery.resolve ⟨"Bread"⟩ ⟨[], []⟩).1 = .ok i) ∧
    (¬ ∃ i, (bakery.resolve ⟨"Egg"⟩ ⟨[], []⟩).1 = .ok i) ∧
    bakery.WritesDown page id ∧
    ∃ log, bakery.Logs ⟨"Bread"⟩ ⟨[], []⟩ log ∧ bakery.Orderly log ∧
      (runs log).map page = [(⟨"Dough"⟩, [0, 0]), (⟨"Bread"⟩, [1, 0])] := by
  have hr := bakery_deterministic
  obtain ⟨i, hbread⟩ := bakery_makes_bread
  obtain ⟨hiff, ⟨log, hlog⟩, hall⟩ := resolve_orderly hr ⟨"Bread"⟩ []
  obtain ⟨horderly, hwritten⟩ := hall log hlog
  have hdiary : (bakery.resolve ⟨"Bread"⟩ ⟨[], []⟩).2.user =
      [(⟨"Dough"⟩, [0, 0]), (⟨"Bread"⟩, [1, 0])] := by decide +kernel
  have hruns := (hwritten page id bakery_writesDown).symm.trans hdiary
  refine ⟨hr, hiff.2 (hbread.sound hr), fun h => ?_, bakery_writesDown, log, hlog, horderly,
    hruns⟩
  have hegg := (resolve_orderly hr ⟨"Egg"⟩ []).1.1 h
  have hcycle : TransGen bakery.DependsOn ⟨"Egg"⟩ ⟨"Egg"⟩ :=
    .tail (.single ⟨_, rfl, List.mem_singleton_self (Token.mk "Hen")⟩)
      ⟨_, rfl, List.mem_singleton_self (Token.mk "Egg")⟩
  exact hegg.acyclic _ .refl hcycle

end GraphAssembly.Registry
