import GraphAssembly.Proofs.Registry.Work
import Mathlib.Data.List.Perm.Subperm

/-!
# What a log says

1. What is kept after a resolution is what was kept before it, and what has been completed.
2. No construction begins twice, and no factory runs twice.
3. Factories run on what is kept for their dependencies.
4. `Prepared`: a factory runs right after its dependencies have been served.
5. `WritesDown`: factories that note down their runs have written what the log says.
-/

namespace GraphAssembly.Registry

open Work

variable {ω : Type}

section Logs

variable {r : Registry ω} {chain ts : List Token} {t s : Token} {w w' : Workshop ω}
  {log log' rest : List (Work ω)} {x : Except ResolutionError (List (Instance ω))} {u u' : ω}
  {source : Source ω} {answer : Except ResolutionError (Instance ω)} {p : Provider ω}
  {ds : Dependencies ω} {result : Except String (Instance ω)}

/-! ## The end of a construction -/

/-- Nothing else begins while a construction ends. -/
theorem Finishes.entered_eq (h : Finishes t u source x log' answer u') :
    entered (.opened t :: (log ++ (log' ++ .closed t answer :: rest))) =
      t :: (entered log ++ entered rest) := by
  cases h <;> simp

/-- A construction closes what has been closed within it, and then itself. -/
theorem Finishes.mem_closed (h : Finishes t u source x log' answer u')
    {answer' : Except ResolutionError (Instance ω)} :
    .closed s answer' ∈ .opened t :: (log ++ (log' ++ .closed t answer :: rest)) ↔
      (s = t ∧ answer' = answer) ∨ .closed s answer' ∈ log ∨ .closed s answer' ∈ rest := by
  cases h <;> simp [or_left_comm]

theorem Finishes.completed_eq (h : Finishes t u source x log' answer u') : completed log' = [] := by
  cases h <;> rfl

/-- A factory runs once at most in its construction. -/
theorem Finishes.produced_subperm (h : Finishes t u source x log answer u') {ss ss' : List Token}
    (hss : ss.Subperm ss') : (ss ++ produced log).Subperm (t :: ss') := by
  have hown : (produced log).Sublist [t] := by
    cases h <;> simp
  exact List.perm_append_comm.subperm.trans (hown.subperm.append hss)

theorem Finishes.value_or_ran {i : Instance ω} (h : Finishes t u source x log (.ok i) u') :
    source = .value i ∨ ∃ ds, .ran t ds (.ok i) ∈ log := by
  cases h with
  | value => exact .inl rfl
  | succeeded => exact .inr ⟨_, List.mem_singleton_self _⟩

theorem Finishes.broken_of_error {is : List (Instance ω)} {e : ResolutionError}
    (h : Finishes t u source (.ok is) log (.error e) u') :
    ∃ ds reason, .ran t ds (.error reason) ∈ log := by
  cases h with
  | broken => exact ⟨_, _, List.mem_singleton_self _⟩

theorem Finishes.exists_ok {i : Instance ω} (h : Finishes t u source x log (.ok i) u') :
    ∃ is, x = .ok is := by
  cases h <;> exact ⟨_, rfl⟩

/-! ## What is kept -/

/-- What is kept is what has been completed. -/
theorem Serves.built_eq (h : Serves r chain ts w log x w') :
    w'.built = w.built ++ completed log := by
  induction h with
  | done => simp
  | refused => simp
  | kept _ _ _ ih => exact ih
  | failed _ _ _ _ hf ih => simp [ih, hf.completed_eq]
  | built _ _ _ _ hf _ ihds ihts => simp [ihts, ihds, hf.completed_eq, Workshop.keep]

theorem Serves.onward (h : Serves r chain ts w log x w') : w.Extends w' := by
  intro s i hi
  rw [Workshop.instance?] at hi ⊢
  rw [h.built_eq, List.lookup_append, hi, Option.some_or]

/-- What is under construction is not kept before it is finished. -/
theorem Serves.instance?_of_mem_chain (h : Serves r chain ts w log x w') (hs : s ∈ chain)
    (hi : w.instance? s = none) : w'.instance? s = none := by
  induction h with
  | done => exact hi
  | refused => exact hi
  | kept _ _ _ ih => exact ih hs hi
  | failed _ _ _ _ _ ih => exact ih (List.mem_append_left _ hs) hi
  | built _ _ ht _ _ _ ihds ihts =>
    refine ihts hs ?_
    rw [Workshop.instance?_keep_of_ne (ne_of_mem_of_not_mem hs ht)]
    exact ihds (List.mem_append_left _ hs) hi

section Built

variable (h : Serves r (chain ++ [t]) ts w log x w') (i : Instance ω) (u : ω)

include h

/-- An instance that has been finished is kept. -/
theorem Serves.keep_self (hi : w.instance? t = none) :
    ({ w' with user := u }.keep t i).instance? t = some i :=
  Workshop.instance?_keep_self (h.instance?_of_mem_chain (by simp) hi)

theorem Serves.onward_keep : w.Extends ({ w' with user := u }.keep t i) := fun s j hj =>
  Workshop.extends_keep { w' with user := u } t i s j (h.onward s j hj)

end Built

/-- The instances that tokens are served with are kept. -/
theorem Serves.all_kept (h : Serves r chain ts w log x w') {is : List (Instance ω)}
    (hx : x = .ok is) : List.Forall₂ (fun t i => w'.instance? t = some i) ts is := by
  induction h generalizing is with
  | done =>
    cases hx
    exact .nil
  | refused => cases hx
  | @kept _ _ _ _ _ _ _ x _ _ hi hts ih =>
    cases x <;> cases hx
    exact .cons (hts.onward _ _ hi) (ih rfl)
  | failed => cases hx
  | @built _ _ _ _ _ _ _ _ _ i u _ y _ _ hi _ hds _ hts _ ih =>
    cases y <;> cases hx
    exact .cons (hts.onward _ _ (hds.keep_self i u hi)) (ih rfl)

/-- A construction that has succeeded leaves what it has made. -/
theorem Serves.kept_of_closed (h : Serves r chain ts w log x w') {i : Instance ω}
    (hi : .closed s (.ok i) ∈ log) : w'.instance? s = some i := by
  induction h with
  | done => cases hi
  | refused => cases hi
  | kept _ _ _ ih => exact ih hi
  | failed _ _ _ _ hf ih =>
    rw [hf.mem_closed] at hi
    rcases hi with ⟨-, ⟨⟩⟩ | hi | ⟨⟨⟩⟩
    exact ih hi
  | @built _ t _ _ _ _ _ w' _ j u _ _ _ _ hnew _ hds hf hts ihds ihts =>
    rw [hf.mem_closed] at hi
    rcases hi with ⟨rfl, ⟨⟩⟩ | hi | hi
    · exact hts.onward _ _ (hds.keep_self _ u hnew)
    · exact hts.onward _ _ (Workshop.extends_keep { w' with user := u } t j s i (ihds hi))
    · exact ihts hi

/-- A failure is not recovered from. -/
theorem Serves.not_closed_error (h : Serves r chain ts w log x w') {is : List (Instance ω)}
    (hx : x = .ok is) (e : ResolutionError) : .closed s (.error e) ∉ log := by
  induction h generalizing is with
  | done => exact List.not_mem_nil
  | refused => cases hx
  | @kept _ _ _ _ _ _ _ x _ _ _ _ ih =>
    cases x <;> cases hx
    exact ih rfl
  | failed => cases hx
  | @built _ _ _ _ _ _ _ _ _ _ _ _ y _ _ _ _ _ hf _ ihds ihts =>
    cases y <;> cases hx
    obtain ⟨is, hx⟩ := hf.exists_ok
    rw [hf.mem_closed]
    rintro (⟨-, ⟨⟩⟩ | hmem | hmem)
    · exact ihds hx hmem
    · exact ihts rfl hmem

/-- A construction that has failed leaves nothing. -/
theorem Serves.lacks_of_closed (h : Serves r chain ts w log x w') {e : ResolutionError}
    (he : .closed s (.error e) ∈ log) : w'.instance? s = none := by
  induction h with
  | done => cases he
  | refused => cases he
  | kept _ _ _ ih => exact ih he
  | failed _ hi _ hds hf ih =>
    rw [hf.mem_closed] at he
    rcases he with ⟨rfl, -⟩ | he | ⟨⟨⟩⟩
    · exact hds.instance?_of_mem_chain (List.mem_append_right _ List.mem_cons_self) hi
    · exact ih he
  | built _ _ _ hds hf _ _ ihts =>
    rw [hf.mem_closed] at he
    rcases he with ⟨-, ⟨⟩⟩ | he | he
    · obtain ⟨is, hx⟩ := hf.exists_ok
      exact absurd he (hds.not_closed_error hx e)
    · exact ihts he

/-! ## What is begun -/

/-- A construction begins only for what is neither kept nor under construction. -/
theorem Serves.new_of_mem_entered (h : Serves r chain ts w log x w') (hs : s ∈ entered log) :
    s ∉ chain ∧ w.instance? s = none := by
  induction h with
  | done => cases hs
  | refused => cases hs
  | kept _ _ _ ih => exact ih hs
  | failed _ hi ht _ hf ih =>
    rw [hf.entered_eq, List.mem_cons, List.mem_append] at hs
    rcases hs with rfl | hs | ⟨⟨⟩⟩
    · exact ⟨ht, hi⟩
    · exact ⟨fun h => (ih hs).1 (List.mem_append_left _ h), (ih hs).2⟩
  | @built _ _ _ _ _ _ _ _ _ i u _ _ _ _ hi ht hds hf _ ihds ihts =>
    rw [hf.entered_eq, List.mem_cons, List.mem_append] at hs
    rcases hs with rfl | hs | hs
    · exact ⟨ht, hi⟩
    · exact ⟨fun h => (ihds hs).1 (List.mem_append_left _ h), (ihds hs).2⟩
    · refine ⟨(ihts hs).1, Option.eq_none_iff_forall_ne_some.2 fun j hj => ?_⟩
      have := (hds.onward_keep i u s j hj).symm.trans (ihts hs).2
      cases this

/-- If all are served, then whatever has been begun has been kept. -/
theorem Serves.kept_of_mem_entered (h : Serves r chain ts w log x w') {is : List (Instance ω)}
    (hx : x = .ok is) (hs : s ∈ entered log) : ∃ i, w'.instance? s = some i := by
  induction h generalizing is with
  | done => cases hs
  | refused => cases hs
  | @kept _ _ _ _ _ _ _ x _ _ _ _ ih =>
    cases x <;> cases hx
    exact ih rfl hs
  | failed => cases hx
  | @built _ t _ _ _ _ _ w' _ i u _ y _ _ hi _ hds hf hts ihds ihts =>
    cases y <;> cases hx
    rw [hf.entered_eq, List.mem_cons, List.mem_append] at hs
    rcases hs with rfl | hs | hs
    · exact ⟨i, hts.onward _ _ (hds.keep_self i u hi)⟩
    · obtain ⟨is, hx⟩ := hf.exists_ok
      obtain ⟨j, hj⟩ := ihds hx hs
      exact ⟨j, hts.onward _ _ (Workshop.extends_keep { w' with user := u } t i s j hj)⟩
    · exact ihts rfl hs

/-- No construction begins twice. -/
theorem Serves.entered_nodup (h : Serves r chain ts w log x w') : (entered log).Nodup := by
  induction h with
  | done => exact .nil
  | refused => exact .nil
  | kept _ _ _ ih => exact ih
  | failed _ _ _ hds hf ih =>
    rw [hf.entered_eq, entered_nil, List.append_nil, List.nodup_cons]
    exact ⟨fun h => (hds.new_of_mem_entered h).1 (by simp), ih⟩
  | @built _ t _ _ _ _ _ w' _ i u _ _ _ _ hi _ hds hf hts ihds ihts =>
    rw [hf.entered_eq, List.nodup_cons, List.mem_append, not_or, List.nodup_append]
    refine ⟨⟨fun h => (hds.new_of_mem_entered h).1 (by simp), fun h => ?_⟩, ihds, ihts, ?_⟩
    · have := (hds.keep_self i u hi).symm.trans (hts.new_of_mem_entered h).2
      cases this
    · rintro s hs _ hs' rfl
      obtain ⟨is, hx⟩ := hf.exists_ok
      obtain ⟨j, hj⟩ := hds.kept_of_mem_entered hx hs
      have := (Workshop.extends_keep { w' with user := u } t i s j hj).symm.trans
        (hts.new_of_mem_entered hs').2
      cases this

/-- A factory runs in a construction of its own. -/
theorem Serves.produced_subperm (h : Serves r chain ts w log x w') :
    (produced log).Subperm (entered log) := by
  induction h with
  | done => exact .refl _
  | refused => exact .refl _
  | kept _ _ _ ih => exact ih
  | failed _ _ _ _ hf ih =>
    rw [hf.entered_eq]
    simpa using hf.produced_subperm ih
  | built _ _ _ _ hf _ ihds ihts =>
    rw [hf.entered_eq]
    simpa using (hf.produced_subperm ihds).append ihts

theorem Serves.produced_nodup (h : Serves r chain ts w log x w') : (produced log).Nodup := by
  obtain ⟨ss, hperm, hsub⟩ := h.produced_subperm
  exact hperm.nodup_iff.1 (h.entered_nodup.sublist hsub)

/-- Only what has a provider is constructed. -/
theorem Serves.provided_of_mem_entered (h : Serves r chain ts w log x w') (hs : s ∈ entered log) :
    ∃ p, r.provider? s = some p := by
  induction h with
  | done => cases hs
  | refused => cases hs
  | kept _ _ _ ih => exact ih hs
  | failed hp _ _ _ hf ih =>
    rw [hf.entered_eq, List.mem_cons, List.mem_append] at hs
    rcases hs with rfl | hs | ⟨⟨⟩⟩
    · exact ⟨_, hp⟩
    · exact ih hs
  | built hp _ _ _ hf _ ihds ihts =>
    rw [hf.entered_eq, List.mem_cons, List.mem_append] at hs
    rcases hs with rfl | hs | hs
    · exact ⟨_, hp⟩
    · exact ihds hs
    · exact ihts hs

/-- There are no more constructions than providers. -/
theorem Serves.entered_length_le (h : Serves r chain ts w log x w') :
    (entered log).length ≤ r.providers.length := by
  have hsub : entered log ⊆ r.providers.map Provider.token := fun s hs => by
    obtain ⟨p, hp⟩ := h.provided_of_mem_entered hs
    exact List.mem_map.2 ⟨p, List.mem_of_find?_eq_some hp, by simpa using List.find?_some hp⟩
  simpa using (h.entered_nodup.subperm hsub).length_le

/-! ## What factories are handed -/

theorem mem_ran_construction : .ran s ds result ∈
      Work.opened t :: (log ++ (log' ++ .closed t answer :: rest)) ↔
    .ran s ds result ∈ log ∨ .ran s ds result ∈ log' ∨ .ran s ds result ∈ rest := by
  simp

/-- The instances of its dependencies, in their order, are what a factory runs on. -/
theorem Finishes.of_ran (h : Finishes t w'.user p.source x log' answer u)
    (hds : Serves r chain p.dependencies w log x w') (hran : .ran s ds result ∈ log') :
    log' = [.ran t ds result] ∧ s = t ∧ x = .ok (ds.map Prod.snd) ∧
      answer = result.mapError (.factoryFailed t) ∧ ∃ build,
      p.source = .factory (ds.map Prod.fst) build ∧ (build ds w'.user).1 = result := by
  rw [Provider.dependencies] at hds
  generalize p.source = source at h hds
  cases h with
  | value => cases hran
  | starved => cases hran
  | broken hb =>
    have hlength := (hds.all_kept rfl).length_eq
    cases List.mem_singleton.1 hran
    rw [List.map_fst_zip (Nat.le_of_eq hlength), List.map_snd_zip (Nat.le_of_eq hlength.symm)]
    exact ⟨rfl, rfl, rfl, rfl, _, rfl, congrArg Prod.fst hb⟩
  | succeeded hb =>
    have hlength := (hds.all_kept rfl).length_eq
    cases List.mem_singleton.1 hran
    rw [List.map_fst_zip (Nat.le_of_eq hlength), List.map_snd_zip (Nat.le_of_eq hlength.symm)]
    exact ⟨rfl, rfl, rfl, rfl, _, rfl, congrArg Prod.fst hb⟩

theorem Finishes.handed (h : Finishes t w'.user p.source x log' answer u)
    (hds : Serves r chain p.dependencies w log x w') (hran : .ran s ds result ∈ log') :
    ∀ d ∈ ds, w'.instance? d.1 = some d.2 := by
  obtain ⟨-, -, hx, -, build, hs, -⟩ := h.of_ran hds hran
  have hkept := hds.all_kept hx
  rw [Provider.dependencies, hs] at hkept
  exact List.forall₂_same.1 (List.forall₂_map_left_iff.1 (List.forall₂_map_right_iff.1 hkept))

/-- A factory has been handed what is kept for its dependencies. -/
theorem Serves.handed (h : Serves r chain ts w log x w') (hran : .ran s ds result ∈ log) :
    ∀ d ∈ ds, w'.instance? d.1 = some d.2 := by
  induction h with
  | done => cases hran
  | refused => cases hran
  | kept _ _ _ ih => exact ih hran
  | failed _ _ _ hds hf ih =>
    rcases mem_ran_construction.1 hran with hran | hran | ⟨⟨⟩⟩
    · exact ih hran
    · exact hf.handed hds hran
  | @built _ t _ _ _ _ _ w' _ i u _ _ _ _ _ _ hds hf hts ihds ihts =>
    have honward : w'.Extends _ := fun s j hj =>
      hts.onward s j (Workshop.extends_keep { w' with user := u } t i s j hj)
    rcases mem_ran_construction.1 hran with hran | hran | hran
    · exact fun d hd => honward _ _ (ihds hran d hd)
    · exact fun d hd => honward _ _ (hf.handed hds hran d hd)
    · exact ihts hran

/-- What a factory has made completes its construction. -/
theorem Serves.closed_of_ran (h : Serves r chain ts w log x w') {i : Instance ω}
    (hran : .ran s ds (.ok i) ∈ log) : .closed s (.ok i) ∈ log := by
  induction h with
  | done => cases hran
  | refused => cases hran
  | kept _ _ _ ih => exact ih hran
  | failed _ _ _ hds hf ih =>
    rcases mem_ran_construction.1 hran with hran | hran | ⟨⟨⟩⟩
    · simp [ih hran]
    · obtain ⟨-, -, -, hanswer, -⟩ := hf.of_ran hds hran
      cases hanswer
  | built _ _ _ hds hf _ ihds ihts =>
    rcases mem_ran_construction.1 hran with hran | hran | hran
    · simp [ihds hran]
    · obtain ⟨-, rfl, -, hanswer, -⟩ := hf.of_ran hds hran
      cases hanswer
      simp
    · simp [ihts hran]

/-! ## The order of the work -/

/-- Whenever the body of a factory has run, its construction had begun, its dependencies had been
served since then, one after the other, and it has run on their instances. -/
def Prepared (r : Registry ω) (log : List (Work ω)) : Prop :=
  ∀ before t ds result after, log = before ++ .ran t ds result :: after →
    ∃ earlier served chain p build w w', before = earlier ++ .opened t :: served ∧
      r.provider? t = some p ∧ p.source = .factory (ds.map Prod.fst) build ∧
      Serves r (chain ++ [t]) (ds.map Prod.fst) w served (.ok (ds.map Prod.snd)) w' ∧
      (build ds w'.user).1 = result

theorem append_cases {α : Type} {as bs before after : List α} {a : α}
    (h : as ++ bs = before ++ a :: after) : (∃ rest, as = before ++ a :: rest) ∨
      ∃ rest, before = as ++ rest ∧ bs = rest ++ a :: after := by
  rcases List.append_eq_append_iff.1 h with ⟨rest, hbefore, hbs⟩ | ⟨rest, has, hafter⟩
  · exact .inr ⟨rest, hbefore, hbs⟩
  · cases rest with
    | nil => exact .inr ⟨[], by simpa using has.symm, hafter.symm⟩
    | cons b rest =>
      cases hafter
      exact .inl ⟨rest, has⟩

theorem Prepared.of_not_ran (h : ∀ t ds result, .ran t ds result ∉ log) : Prepared r log := by
  rintro before t ds result after rfl
  exact absurd (List.mem_append_right before List.mem_cons_self) (h t ds result)

theorem Prepared.append (h : Prepared r log) (h' : Prepared r log') : Prepared r (log ++ log') := by
  intro before t ds result after hsplit
  rcases append_cases hsplit with ⟨rest, rfl⟩ | ⟨rest, rfl, rfl⟩
  · exact h before t ds result rest rfl
  · obtain ⟨earlier, served, chain, p, build, w, w', rfl, hrest⟩ := h' rest t ds result after rfl
    exact ⟨log ++ earlier, served, chain, p, build, w, w', by simp, hrest⟩

theorem Prepared.opened_cons (h : Prepared r log) : Prepared r (.opened t :: log) := by
  have hopened : Prepared r [.opened t] := .of_not_ran (by simp)
  exact hopened.append h

theorem Finishes.prepared (h : Finishes t w'.user p.source x log' answer u)
    (hp : r.provider? t = some p) (hds : Serves r (chain ++ [t]) p.dependencies w log x w')
    (hlog : Prepared r log) : Prepared r (.opened t :: (log ++ (log' ++ [.closed t answer]))) := by
  intro before s ds result after hsplit
  rw [← List.cons_append] at hsplit
  rcases append_cases hsplit with ⟨rest, hlog'⟩ | ⟨rest, rfl, hend⟩
  · exact hlog.opened_cons before s ds result rest hlog'
  · have hran : .ran s ds result ∈ log' := by
      have : .ran s ds result ∈ log' ++ [.closed t answer] := hend ▸ by simp
      simpa using this
    obtain ⟨rfl, rfl, rfl, -, build, hsource, hresult⟩ := h.of_ran hds hran
    -- there is one run in a construction, so nothing comes between it and the dependencies
    obtain rfl : rest = [] := by
      cases rest with
      | nil => rfl
      | cons work rest =>
        have htail : [Work.closed s answer] = rest ++ .ran s ds result :: after :=
          (List.cons.inj hend).2
        have hmem : Work.ran s ds result ∈ [Work.closed s answer] := by simp [htail]
        simp at hmem
    rw [Provider.dependencies, hsource] at hds
    exact ⟨[], log, chain, p, build, w, w', by simp, hp, hsource, hds, hresult⟩

theorem Serves.prepared (h : Serves r chain ts w log x w') : Prepared r log := by
  induction h with
  | done => exact .of_not_ran (by simp)
  | refused => exact .of_not_ran (by simp)
  | kept _ _ _ ih => exact ih
  | failed hp _ _ hds hf ih => exact hf.prepared hp hds ih
  | built hp _ _ hds hf _ ihds ihts =>
    simpa using (hf.prepared hp hds ihds).append ihts

/-! ## What the factories write down -/

section Writing

variable {γ : Type} {note : Work ω → γ} {written : ω → List γ}

/-- Each run of a factory is noted down, after what has been written before it. -/
def WritesDown (r : Registry ω) (note : Work ω → γ) (written : ω → List γ) : Prop :=
  ∀ p ∈ r.providers, ∀ dependencies build, p.source = .factory dependencies build →
    ∀ ds u, written (build ds u).2 = written u ++ [note (.ran p.token ds (build ds u).1)]

variable (hr : r.WritesDown note written)

include hr

theorem Finishes.written_eq (h : Finishes t u p.source x log answer u')
    (hp : r.provider? t = some p) : written u' = written u ++ (runs log).map note := by
  have hmem : p ∈ r.providers := List.mem_of_find?_eq_some hp
  have htoken : p.token = t := by simpa using List.find?_some hp
  have hwrites := hr p hmem
  rw [htoken] at hwrites
  generalize p.source = source at h hwrites
  cases h with
  | value => simp
  | starved => simp
  | @broken dependencies build is _ _ hb =>
    have := hwrites dependencies build rfl (dependencies.zip is) u
    rwa [hb] at this
  | @succeeded dependencies build is _ _ hb =>
    have := hwrites dependencies build rfl (dependencies.zip is) u
    rwa [hb] at this

/-- What the factories have written is what the log says of their runs. -/
theorem Serves.written_eq (h : Serves r chain ts w log x w') :
    written w'.user = written w.user ++ (runs log).map note := by
  induction h with
  | done => simp
  | refused => simp
  | kept _ _ _ ih => exact ih
  | failed hp _ _ _ hf ih => simp [hf.written_eq hr hp, ih]
  | built hp _ _ _ hf _ ihds ihts => simp [ihts, Workshop.keep, hf.written_eq hr hp, ihds]

end Writing

end Logs

end GraphAssembly.Registry
