import GraphAssembly.Proofs.Registry.History
import Mathlib.Data.List.Chain

/-!
# Why a token has no instance

A resolution that fails has gone down from one token to the next, up to a construction that could
not be finished. Its error tells this path and the cause, and the path is one of dependencies.

1. `ComesTo`, `Cause`: steps on the path, and its end.
2. `Descent`: the path within a chain of tokens under construction.
3. `Stops`, `Serves.stops`: whatever fails comes from a descent, and its error tells it.
4. `Explained`, `resolve_explained`: what the error of a token says.
-/

namespace GraphAssembly.Registry

variable {ω : Type}

/-! ## Paths of dependencies -/

/-- The token resolves, to what is kept for it. -/
def Resolved (r : Registry ω) (w : Workshop ω) (t : Token) : Prop := ∃ i, r.resolve t w = (.ok i, w)

/-- The first token declares the second one as a dependency, and all that it declares before
resolve. -/
def ComesTo (r : Registry ω) (w : Workshop ω) (t d : Token) : Prop :=
  ∃ p before after, r.provider? t = some p ∧ p.dependencies = before ++ d :: after ∧
    ∀ s ∈ before, r.Resolved w s

/-- The dependencies of the token resolve, and the factory that is handed them fails. -/
def Breaks (r : Registry ω) (w : Workshop ω) (t : Token) (reason : String) : Prop :=
  ∃ p build u, ∃ ds : Dependencies ω, r.provider? t = some p ∧
    p.source = .factory (ds.map Prod.fst) build ∧ (∀ d ∈ ds, r.resolve d.1 w = (.ok d.2, w)) ∧
    build ds u = (.error reason, w.user)

/-- Why the construction at the end of a path has failed, in words. -/
inductive Cause (r : Registry ω) (w : Workshop ω) (path : List Token) (t : Token) : String → Prop
  | own {reason : String} (h : r.Breaks w t reason) : Cause r w path t reason
  | unregistered {d : Token} (hd : r.ComesTo w t d) (hp : r.contains d = false) :
      Cause r w path t s!"no provider for token '{d.name}'"
  | cyclic {d : Token} (hd : r.ComesTo w t d) (hmem : d ∈ path) :
      Cause r w path t
        ("cyclic dependency detected: " ++ " -> ".intercalate ((path ++ [d]).map Token.name))

/-! ## Descents -/

/-- The path on which the resolution of a token has failed while those of the chain are under
construction, and the cause. Nothing is on it if the construction of the token has not begun. -/
inductive Descent (r : Registry ω) (w : Workshop ω) :
    List Token → Token → List Token → String → Prop
  | unknown {chain t} (hp : r.contains t = false) :
      Descent r w chain t [] s!"no provider for token '{t.name}'"
  | cyclic {chain t} (ht : t ∈ chain) :
      Descent r w chain t []
        ("cyclic dependency detected: " ++ " -> ".intercalate ((chain ++ [t]).map Token.name))
  | own {chain t reason} (ht : t ∉ chain) (h : r.Breaks w t reason) : Descent r w chain t [t] reason
  | down {chain t d path cause} (ht : t ∉ chain) (hd : r.ComesTo w t d)
      (h : Descent r w (chain ++ [t]) d path cause) : Descent r w chain t (t :: path) cause

section Descents

variable {r : Registry ω} {w : Workshop ω} {chain path : List Token} {t s : Token} {cause : String}

/-- A path begins with the token itself. -/
theorem Descent.eq_nil_or_cons (h : Descent r w chain t path cause) :
    path = [] ∨ ∃ below, path = t :: below := by
  cases h <;> simp

theorem Descent.isChain (h : Descent r w chain t path cause) : path.IsChain (r.ComesTo w) := by
  induction h with
  | unknown => exact .nil
  | cyclic => exact .nil
  | own => exact .singleton _
  | down _ hd h ih =>
    rcases h.eq_nil_or_cons with rfl | ⟨below, rfl⟩
    · exact .singleton _
    · exact .cons_cons hd ih

/-- No token on the path is under construction before its turn. -/
theorem Descent.notMem_chain (h : Descent r w chain t path cause) (hs : s ∈ path) : s ∉ chain := by
  induction h with
  | unknown => cases hs
  | cyclic => cases hs
  | own ht =>
    rw [List.mem_singleton.1 hs]
    exact ht
  | down ht _ _ ih =>
    rcases List.mem_cons.1 hs with rfl | hs
    · exact ht
    · exact fun hmem => ih hs (List.mem_append_left _ hmem)

theorem Descent.nodup (h : Descent r w chain t path cause) : path.Nodup := by
  induction h with
  | unknown => exact .nil
  | cyclic => exact .nil
  | own => simp
  | down _ _ h ih =>
    refine List.nodup_cons.2 ⟨?_, ih⟩
    -- the rest of the path is gone down while the token is under construction
    intro hmem
    exact h.notMem_chain hmem (List.mem_append_right _ (List.mem_singleton_self _))

/-- What a path comes to where nothing more is constructed. -/
theorem Descent.cause_of_nil (h : Descent r w (chain ++ [t]) s [] cause) (hs : r.ComesTo w t s) :
    Cause r w (chain ++ [t]) t cause := by
  cases h with
  | unknown hp => exact .unregistered hs hp
  | cyclic hmem => exact .cyclic hs hmem

theorem Descent.cause_last {init : List Token} {last : Token} (h : Descent r w chain t path cause)
    (hpath : path = init ++ [last]) : Cause r w (chain ++ path) last cause := by
  induction h generalizing init with
  | unknown => simp at hpath
  | cyclic => simp at hpath
  | own _ h =>
    cases init with
    | nil =>
      obtain ⟨rfl, -⟩ := List.cons.inj hpath
      exact .own h
    | cons s init => simp at hpath
  | down _ hd h ih =>
    cases init with
    | nil =>
      obtain ⟨rfl, rfl⟩ := List.cons.inj hpath
      exact h.cause_of_nil hd
    | cons s init =>
      have hlast := ih (List.cons.inj hpath).2
      rwa [List.append_assoc] at hlast

end Descents

/-! ## Failures of resolutions -/

/-- Tokens are served up to one of them, whose failure is told by its descent. -/
def Stops (r : Registry ω) (w : Workshop ω) (chain ts : List Token) (e : ResolutionError) : Prop :=
  ∃ before t after path cause, ts = before ++ t :: after ∧ (∀ s ∈ before, r.Resolved w s) ∧
    Descent r w chain t path cause ∧
    e.message = " -> ".intercalate (path.map Token.name ++ [cause])

section Stopping

variable {r : Registry ω} {chain ts path : List Token} {t : Token} {cause : String}
  {p : Provider ω} {w w' : Workshop ω} {log log' : List (Work ω)}
  {x : Except ResolutionError (List (Instance ω))} {e : ResolutionError} {u : ω}

theorem intercalate_path_cons (t : Token) (path : List Token) (cause : String) :
    " -> ".intercalate ((t :: path).map Token.name ++ [cause]) =
      t.name ++ " -> " ++ " -> ".intercalate (path.map Token.name ++ [cause]) := by
  rw [List.map_cons, List.cons_append, String.intercalate_cons_of_ne_nil]
  simp

theorem Descent.stops (h : Descent r w chain t path cause)
    (hmessage : e.message = " -> ".intercalate (path.map Token.name ++ [cause]))
    (ts : List Token) : Stops r w chain (t :: ts) e :=
  ⟨[], t, ts, path, cause, rfl, nofun, h, hmessage⟩

theorem Stops.cons (ht : r.Resolved w t) (h : Stops r w chain ts e) :
    Stops r w chain (t :: ts) e := by
  obtain ⟨before, s, after, path, cause, rfl, hbefore, hdescent, hmessage⟩ := h
  exact ⟨t :: before, s, after, path, cause, rfl, List.forall_mem_cons.2 ⟨ht, hbefore⟩, hdescent,
    hmessage⟩

/-- A dependency that stops a construction is one step further down. -/
theorem Stops.under (h : Stops r w (chain ++ [t]) p.dependencies e)
    (hp : r.provider? t = some p) (ht : t ∉ chain) (ts : List Token) :
    Stops r w chain (t :: ts) (.dependencyFailed t e) := by
  obtain ⟨before, d, after, path, cause, hds, hbefore, hdescent, hmessage⟩ := h
  have hdown : Descent r w chain t (t :: path) cause :=
    .down ht ⟨p, before, after, hp, hds, hbefore⟩ hdescent
  refine hdown.stops ?_ ts
  rw [intercalate_path_cons, ← hmessage]
  rfl

theorem Refuses.stops (h : Refuses r chain w t e) (ts : List Token) :
    Stops r w chain (t :: ts) e := by
  cases h with
  | unknown hp =>
    have hcontains : r.contains t = false := by simp [contains, hp]
    exact (Descent.unknown hcontains).stops rfl ts
  | cyclic _ _ ht => exact (Descent.cyclic ht).stops rfl ts

/-- Only what has a provider is served. -/
theorem Serves.all_provided (h : Serves r chain ts w log x w') {is : List (Instance ω)}
    (hx : x = .ok is) : ∀ t ∈ ts, ∃ p, r.provider? t = some p := by
  induction h generalizing is with
  | done => nofun
  | refused => cases hx
  | @kept _ _ _ _ _ _ _ x _ hp _ _ ih =>
    cases x <;> cases hx
    exact List.forall_mem_cons.2 ⟨⟨_, hp⟩, ih rfl⟩
  | failed => cases hx
  | @built _ _ _ _ _ _ _ _ _ _ _ _ y _ hp _ _ _ _ _ _ ih =>
    cases y <;> cases hx
    exact List.forall_mem_cons.2 ⟨⟨_, hp⟩, ih rfl⟩

/-- A factory fails on instances to which its dependencies resolve from then on. -/
theorem Serves.breaks {dependencies : List Token} {is : List (Instance ω)} {reason : String}
    {build : Dependencies ω → StateM ω (Except String (Instance ω))}
    (h : Serves r chain dependencies w log (.ok is) w') (hp : r.provider? t = some p)
    (hs : p.source = .factory dependencies build)
    (hb : build (dependencies.zip is) w'.user = (.error reason, u)) :
    r.Breaks { w' with user := u } t reason := by
  obtain ⟨hlength, hkept⟩ := List.forall₂_iff_zip.1 (h.all_kept rfl)
  refine ⟨p, build, w'.user, dependencies.zip is, hp, ?_, ?_, hb⟩
  · rw [hs, List.map_fst_zip (Nat.le_of_eq hlength)]
  · intro d hd
    obtain ⟨q, hq⟩ := h.all_provided rfl d.1 (List.of_mem_zip hd).1
    exact resolveFrom_kept hq (hkept hd)

/-- A construction fails because of a dependency, or else because of its factory. -/
theorem Finishes.stops (h : Finishes t w'.user p.source x log' (.error e) u)
    (hp : r.provider? t = some p) (ht : t ∉ chain)
    (hds : Serves r (chain ++ [t]) p.dependencies w log x w')
    (hstops : ∀ e, x = .error e → Stops r w' (chain ++ [t]) p.dependencies e) (ts : List Token) :
    Stops r { w' with user := u } chain (t :: ts) e := by
  generalize hs : p.source = source at h
  cases h with
  | starved e => exact (hstops e rfl).under hp ht ts
  | broken hb =>
    rw [Provider.dependencies, hs] at hds
    refine (Descent.own ht (hds.breaks hp hs hb)).stops ?_ ts
    rw [intercalate_path_cons, List.map_nil, List.nil_append, String.intercalate_singleton]
    rfl

/-- The induction is on the run: a failure among the dependencies of a construction is one step
further down, and all that has been served before it resolves in the state that is left. -/
theorem Serves.stops (h : Serves r chain ts w log x w') (hx : x = .error e) :
    Stops r w' chain ts e := by
  induction h generalizing e with
  | done => cases hx
  | refused h =>
    cases hx
    exact h.stops _
  | @kept _ _ _ _ _ _ _ x _ hp hi hts ih =>
    cases x <;> cases hx
    exact (ih rfl).cons ⟨_, resolveFrom_kept hp (hts.onward _ _ hi)⟩
  | failed hp _ ht hds hf ih =>
    cases hx
    exact hf.stops hp ht hds (fun _ => ih) _
  | @built _ _ _ _ _ _ _ _ _ i u _ y _ hp hi _ hds _ hts _ ih =>
    cases y <;> cases hx
    exact (ih rfl).cons ⟨i, resolveFrom_kept hp (hts.onward _ _ (hds.keep_self i u hi))⟩

end Stopping

/-! ## Errors of a token -/

/-- What is said of a token that has no instance, and when a fallback stands in for one. -/
structure Explained (r : Registry ω) (t : Token) (w : Workshop ω) : Prop where
  unregistered : r.contains t = false →
    ∃ e, r.resolve t w = (.error e, w) ∧ e.message = s!"no provider for token '{t.name}'"
  /-- The tokens from this one down to the last one are told, and then the cause. -/
  descends : r.contains t = true → ∀ e w', r.resolve t w = (.error e, w') →
    ∃ path last cause, path.head? = some t ∧ path.getLast? = some last ∧
      path.IsChain (r.ComesTo w') ∧ path.Nodup ∧ r.Cause w' path last cause ∧
      e.message = " -> ".intercalate (path.map Token.name ++ [cause])
  fallback : ∀ i, r.resolveOr t i w = if r.contains t then r.resolve t w else (.ok i, w)
  /-- A fallback that is not the instance of the token is given for an unregistered token only. -/
  fallback_iff : ∀ i, (r.resolve t w).1 ≠ .ok i →
    ((r.resolveOr t i w).1 = .ok i ↔ r.contains t = false)

section Explaining

variable {r : Registry ω} {w w' : Workshop ω} {t : Token} {path : List Token} {cause : String}
  {e : ResolutionError}

/-- The construction of a registered token has begun, if nothing else was under construction. -/
theorem Descent.head?_eq (h : Descent r w [] t path cause) (ht : r.contains t = true) :
    path.head? = some t := by
  cases h with
  | unknown hp => simp [ht] at hp
  | cyclic hmem => cases hmem
  | own => rfl
  | down => rfl

theorem exists_descent (h : r.resolve t w = (.error e, w')) : ∃ path cause,
    Descent r w' [] t path cause ∧
      e.message = " -> ".intercalate (path.map Token.name ++ [cause]) := by
  obtain ⟨log, hlog⟩ := r.exists_logs t w
  rw [Logs, h] at hlog
  obtain ⟨before, s, after, path, cause, hts, -, hdescent, hmessage⟩ := hlog.stops rfl
  cases before with
  | nil =>
    obtain ⟨rfl, -⟩ := List.cons.inj hts
    exact ⟨path, cause, hdescent, hmessage⟩
  | cons => simp at hts

/-- Whatever has been asked before and is kept since, the error of a token tells the dependencies
that have led to its cause. -/
theorem resolve_explained (r : Registry ω) (t : Token) (w : Workshop ω) : r.Explained t w where
  unregistered ht := by
    have hp : r.provider? t = none := by simpa [contains] using ht
    exact ⟨.unknownToken t, resolveFrom_unknown hp, rfl⟩
  descends ht e w' h := by
    obtain ⟨path, cause, hdescent, hmessage⟩ := exists_descent h
    have hhead := hdescent.head?_eq ht
    rcases List.eq_nil_or_concat' path with rfl | ⟨above, last, rfl⟩
    · cases hhead
    · exact ⟨_, last, cause, hhead, List.getLast?_concat, hdescent.isChain, hdescent.nodup,
        hdescent.cause_last rfl, hmessage⟩
  fallback i := resolveOr_eq i
  fallback_iff i hi := by
    rw [resolveOr_eq]
    cases ht : r.contains t with
    | true => simpa using hi
    | false => simp

end Explaining

end GraphAssembly.Registry
