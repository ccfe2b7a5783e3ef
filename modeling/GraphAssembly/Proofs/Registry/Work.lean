import GraphAssembly.Proofs.Registry.Answers

/-!
# The work of a resolution

A resolution constructs instances within one another, and each construction serves its dependencies
one after the other. The answer does not tell what was done for it: `Serves` gives the log of it.

1. `Work`: what can be seen of a resolution.
2. `Serves`: serving tokens one after the other, with the log of what is done.
3. `Serves.mapM_eq`, `exists_serves`: this is what a registry does, and it comes to an end.
-/

namespace GraphAssembly

variable {ω : Type}

inductive Work (ω : Type) where
  /-- The construction of an instance has begun. -/
  | opened (t : Token)
  /-- The body of a factory has run. -/
  | ran (t : Token) (ds : Dependencies ω) (result : Except String (Instance ω))
  | closed (t : Token) (answer : Except ResolutionError (Instance ω))

namespace Work

/-- The tokens whose construction has begun, in order. -/
def entered (log : List (Work ω)) : List Token :=
  log.filterMap fun
    | opened t => some t
    | _ => none

/-- The tokens whose factories have run, in order. -/
def produced (log : List (Work ω)) : List Token :=
  log.filterMap fun
    | ran t _ _ => some t
    | _ => none

/-- The runs of factories, in order. -/
def runs (log : List (Work ω)) : List (Work ω) :=
  log.filter fun
    | ran _ _ _ => true
    | _ => false

/-- The instances whose construction has succeeded, in order. -/
def completed (log : List (Work ω)) : List (Token × Instance ω) :=
  log.filterMap fun
    | closed t (.ok i) => some (t, i)
    | _ => none

section Lists

variable {log log' : List (Work ω)} {t : Token} {ds : Dependencies ω} {i : Instance ω}

@[simp] theorem entered_nil : entered ([] : List (Work ω)) = [] := rfl

@[simp] theorem entered_opened : entered (opened t :: log) = t :: entered log := rfl

@[simp] theorem entered_ran {result} : entered (ran t ds result :: log) = entered log := rfl

@[simp] theorem entered_closed {answer} : entered (closed t answer :: log) = entered log := rfl

@[simp] theorem entered_append : entered (log ++ log') = entered log ++ entered log' :=
  List.filterMap_append

@[simp] theorem produced_nil : produced ([] : List (Work ω)) = [] := rfl

@[simp] theorem produced_opened : produced (opened t :: log) = produced log := rfl

@[simp] theorem produced_ran {result} : produced (ran t ds result :: log) = t :: produced log := rfl

@[simp] theorem produced_closed {answer} : produced (closed t answer :: log) = produced log := rfl

@[simp] theorem produced_append : produced (log ++ log') = produced log ++ produced log' :=
  List.filterMap_append

@[simp] theorem runs_nil : runs ([] : List (Work ω)) = [] := rfl

@[simp] theorem runs_opened : runs (opened t :: log) = runs log := rfl

@[simp] theorem runs_ran {result} : runs (ran t ds result :: log) = ran t ds result :: runs log :=
  rfl

@[simp] theorem runs_closed {answer} : runs (closed t answer :: log) = runs log := rfl

@[simp] theorem runs_append : runs (log ++ log') = runs log ++ runs log' := List.filter_append ..

@[simp] theorem completed_nil : completed ([] : List (Work ω)) = [] := rfl

@[simp] theorem completed_opened : completed (opened t :: log) = completed log := rfl

@[simp] theorem completed_ran {result} : completed (ran t ds result :: log) = completed log := rfl

@[simp] theorem completed_closed_ok :
    completed (closed t (.ok i) :: log) = (t, i) :: completed log := rfl

@[simp] theorem completed_closed_error {e} :
    completed (closed t (.error e) :: log) = completed log := rfl

@[simp] theorem completed_append : completed (log ++ log') = completed log ++ completed log' :=
  List.filterMap_append

end Lists

end Work

namespace Registry

open Work

/-! ## Serving tokens -/

/-- Why no construction begins for a token without an instance. -/
inductive Refuses (r : Registry ω) (chain : List Token) (w : Workshop ω) (t : Token) :
    ResolutionError → Prop
  | unknown (hp : r.provider? t = none) : Refuses r chain w t (.unknownToken t)
  | cyclic {p : Provider ω} (hp : r.provider? t = some p) (hi : w.instance? t = none)
      (ht : t ∈ chain) : Refuses r chain w t (.cyclicDependency (chain ++ [t]))

/-- How a construction ends, once its dependencies have been served in this way. -/
inductive Finishes (t : Token) (u : ω) : Source ω → Except ResolutionError (List (Instance ω)) →
    List (Work ω) → Except ResolutionError (Instance ω) → ω → Prop
  | value (i : Instance ω) : Finishes t u (.value i) (.ok []) [] (.ok i) u
  | starved {dependencies build} (e : ResolutionError) :
      Finishes t u (.factory dependencies build) (.error e) [] (.error (.dependencyFailed t e)) u
  | broken {dependencies build} {is : List (Instance ω)} {reason : String} {u' : ω}
      (hb : build (dependencies.zip is) u = (.error reason, u')) :
      Finishes t u (.factory dependencies build) (.ok is)
        [.ran t (dependencies.zip is) (.error reason)] (.error (.factoryFailed t reason)) u'
  | succeeded {dependencies build} {is : List (Instance ω)} {i : Instance ω} {u' : ω}
      (hb : build (dependencies.zip is) u = (.ok i, u')) :
      Finishes t u (.factory dependencies build) (.ok is)
        [.ran t (dependencies.zip is) (.ok i)] (.ok i) u'

/-- Serves tokens one after the other while those of the chain are under construction, up to the
first one without an instance: what is done, the instances or the error, and the state after it. -/
inductive Serves (r : Registry ω) : List Token → List Token → Workshop ω → List (Work ω) →
    Except ResolutionError (List (Instance ω)) → Workshop ω → Prop
  | done {chain w} : Serves r chain [] w [] (.ok []) w
  | refused {chain t ts w e} (h : Refuses r chain w t e) :
      Serves r chain (t :: ts) w [] (.error e) w
  | kept {chain t ts w p i log x w'} (hp : r.provider? t = some p) (hi : w.instance? t = some i)
      (hts : Serves r chain ts w log x w') : Serves r chain (t :: ts) w log (x.map (i :: ·)) w'
  | failed {chain t ts w p log x w' log' e u} (hp : r.provider? t = some p)
      (hi : w.instance? t = none) (ht : t ∉ chain)
      (hds : Serves r (chain ++ [t]) p.dependencies w log x w')
      (hf : Finishes t w'.user p.source x log' (.error e) u) :
      Serves r chain (t :: ts) w (.opened t :: (log ++ (log' ++ [.closed t (.error e)])))
        (.error e) { w' with user := u }
  | built {chain t ts w p log x w' log' i u rest y w''} (hp : r.provider? t = some p)
      (hi : w.instance? t = none) (ht : t ∉ chain)
      (hds : Serves r (chain ++ [t]) p.dependencies w log x w')
      (hf : Finishes t w'.user p.source x log' (.ok i) u)
      (hts : Serves r chain ts ({ w' with user := u }.keep t i) rest y w'') :
      Serves r chain (t :: ts) w (.opened t :: (log ++ (log' ++ .closed t (.ok i) :: rest)))
        (y.map (i :: ·)) w''

/-- What is done to resolve a token. -/
def Logs (r : Registry ω) (t : Token) (w : Workshop ω) (log : List (Work ω)) : Prop :=
  Serves r [] [t] w log ((r.resolve t w).1.map ([·])) (r.resolve t w).2

/-! ## Serving is resolving -/

section Resolving

variable {r : Registry ω} {chain ts : List Token} {t : Token} {p : Provider ω} {w w' : Workshop ω}
  {log log' : List (Work ω)} {x : Except ResolutionError (List (Instance ω))}

theorem mapM_cons_apply {α β : Type} (f : α → Resolving ω β) (a : α) (as : List α) :
    (a :: as).mapM f w = match f a w with
      | (.ok b, w') => (((as.mapM f) w').1.map (b :: ·), ((as.mapM f) w').2)
      | (.error e, w') => (.error e, w') := by
  rw [List.mapM_cons, bind_apply]
  rcases f a w with ⟨_ | b, w'⟩
  · rfl
  · dsimp only
    rw [bind_apply]
    rcases as.mapM f w' with ⟨_ | bs, w''⟩ <;> rfl

theorem mapM_dependency_apply (resolve : Token → Resolving ω (Instance ω)) (ds : List Token) :
    (ds.mapM fun d => do pure (d, ← asDependency t (resolve d)) : Resolving ω (Dependencies ω)) w =
      (((ds.mapM resolve w).1.mapError (.dependencyFailed t)).map (ds.zip ·),
        (ds.mapM resolve w).2) := by
  induction ds generalizing w with
  | nil => rfl
  | cons d ds ih =>
    rw [mapM_cons_apply, mapM_cons_apply, dependency_apply]
    rcases resolve d w with ⟨e | i, w'⟩
    · rfl
    · dsimp only [Except.mapError, Except.map]
      rw [ih]
      rcases ds.mapM resolve w' with ⟨e | is, w''⟩ <;> rfl

/-- Making an instance is serving its dependencies and finishing. -/
theorem make_apply {resolve : Token → Resolving ω (Instance ω)} {answer u}
    (h : p.dependencies.mapM resolve w = (x, w'))
    (hf : Finishes t w'.user p.source x log answer u) :
    make resolve t p.source w = (answer, { w' with user := u }) := by
  rw [Provider.dependencies] at h
  cases hs : p.source with
  | value i =>
    rw [hs] at h hf
    cases h
    cases hf
    rfl
  | factory dependencies build =>
    rw [hs] at h hf
    rw [make, bind_apply, mapM_dependency_apply, h]
    cases hf with
    | starved e => rfl
    | broken hb =>
      dsimp only [Except.mapError, Except.map]
      rw [runFactory_apply, hb]
      rfl
    | succeeded hb =>
      dsimp only [Except.mapError, Except.map]
      rw [runFactory_apply, hb]
      rfl

theorem Serves.mapM_eq (h : Serves r chain ts w log x w') :
    ts.mapM (r.resolveFrom chain) w = (x, w') := by
  induction h with
  | done => rfl
  | refused h =>
    rw [mapM_cons_apply]
    cases h with
    | unknown hp => rw [resolveFrom_unknown hp]
    | cyclic hp hi ht => rw [resolveFrom_cyclic hp hi ht]
  | kept hp hi _ ih =>
    rw [mapM_cons_apply, resolveFrom_kept hp hi]
    dsimp only
    rw [ih]
  | failed hp hi ht _ hf ih => rw [mapM_cons_apply, resolveFrom_new hp hi ht, make_apply ih hf]
  | built hp hi ht _ hf _ ihds ihts =>
    rw [mapM_cons_apply, resolveFrom_new hp hi ht, make_apply ihds hf]
    dsimp only
    rw [ihts]

theorem Serves.exists_finishes (h : Serves r chain p.dependencies w log x w') (t : Token) :
    ∃ log' answer u, Finishes t w'.user p.source x log' answer u := by
  rw [Provider.dependencies] at h
  cases hs : p.source with
  | value i =>
    rw [hs] at h
    cases h
    exact ⟨_, _, _, .value i⟩
  | factory dependencies build =>
    match x with
    | .error e => exact ⟨_, _, _, .starved e⟩
    | .ok is =>
      rcases hb : build (dependencies.zip is) w'.user with ⟨reason | i, u⟩
      · exact ⟨_, _, _, .broken hb⟩
      · exact ⟨_, _, _, .succeeded hb⟩

/-- Whatever the registry, serving tokens comes to an end. -/
theorem exists_serves (r : Registry ω) (chain ts : List Token) (w : Workshop ω) :
    ∃ log x w', Serves r chain ts w log x w' := by
  induction ts generalizing w with
  | nil => exact ⟨_, _, _, .done⟩
  | cons t ts ihts =>
    cases hp : r.provider? t with
    | none => exact ⟨_, _, _, .refused (.unknown hp)⟩
    | some p =>
      cases hi : w.instance? t with
      | some i =>
        obtain ⟨log, x, w', h⟩ := ihts w
        exact ⟨_, _, _, .kept hp hi h⟩
      | none =>
        by_cases ht : t ∈ chain
        · exact ⟨_, _, _, .refused (.cyclic hp hi ht)⟩
        · have _shrinks := r.idle_append_length_lt chain hp ht
          obtain ⟨log, x, w', hds⟩ := exists_serves r (chain ++ [t]) p.dependencies w
          obtain ⟨log', answer, u, hf⟩ := hds.exists_finishes t
          cases answer with
          | error e => exact ⟨_, _, _, .failed hp hi ht hds hf⟩
          | ok i =>
            obtain ⟨rest, y, w'', hts⟩ := ihts ({ w' with user := u }.keep t i)
            exact ⟨_, _, _, .built hp hi ht hds hf hts⟩
termination_by (r.idle chain).length
decreasing_by exact _shrinks

theorem Serves.resolve_eq (h : Serves r [] [t] w log x w') :
    (r.resolve t w).1.map ([·]) = x ∧ (r.resolve t w).2 = w' := by
  have hx := h.mapM_eq
  rw [mapM_cons_apply] at hx
  rw [resolve]
  generalize r.resolveFrom [] t w = answer at hx ⊢
  rcases answer with ⟨e | i, w''⟩ <;>
    · cases hx
      exact ⟨rfl, rfl⟩

theorem Serves.logs (h : Serves r [] [t] w log x w') : r.Logs t w log := by
  obtain ⟨rfl, rfl⟩ := h.resolve_eq
  exact h

theorem exists_logs (r : Registry ω) (t : Token) (w : Workshop ω) : ∃ log, r.Logs t w log := by
  obtain ⟨log, x, w', h⟩ := exists_serves r [] [t] w
  exact ⟨log, h.logs⟩

end Resolving

end Registry

end GraphAssembly
