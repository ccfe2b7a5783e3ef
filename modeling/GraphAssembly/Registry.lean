import GraphAssembly.Registry.Error
import GraphAssembly.Registry.Provider

/-!
# The registry

A registry keeps one provider for each token. An instance is made when it is first asked for, after
those it depends on, and is kept from then on.

1. `Registry.ofProviders` refuses an empty or repeated token.
2. `Workshop` is the changing part: the instances made so far, and the state of the code behind
   them.
3. `Registry.resolveFrom` makes an instance. The tokens under construction form a chain without
   repetition, so the number of providers outside of it bounds the depth.
-/

namespace GraphAssembly

structure Registry (ω : Type) where
  providers : List (Provider ω)

structure Workshop (ω : Type) where
  built : List (Token × Instance ω)
  user : ω

namespace Registry

variable {ω : Type}

/-! ## Registration -/

/-- The registry with one provider more. -/
def register (r : Registry ω) (p : Provider ω) : Except RegistrationError (Registry ω) :=
  if p.token.isEmpty then .error .emptyToken
  else if r.providers.any (·.token = p.token) then .error (.duplicateToken p.token)
  else .ok ⟨r.providers ++ [p]⟩

def ofProviders (providers : List (Provider ω)) : Except RegistrationError (Registry ω) :=
  providers.foldlM register ⟨[]⟩

def provider? (r : Registry ω) (t : Token) : Option (Provider ω) :=
  r.providers.find? (·.token = t)

def contains (r : Registry ω) (t : Token) : Bool := (r.provider? t).isSome

/-! ## Resolution -/

/-- A resolution may fail; what was built before the failure is kept. -/
abbrev Resolving (ω : Type) := ExceptT ResolutionError (StateM (Workshop ω))

end Registry

/-- A failure ends a computation and keeps the state that it has left. -/
theorem bind_apply {σ ε α β : Type} (x : ExceptT ε (StateM σ) α)
    (f : α → ExceptT ε (StateM σ) β) (s : σ) :
    (x >>= f) s = match x s with
      | (.ok a, s') => f a s'
      | (.error e, s') => (.error e, s') := by
  change (match x s with | (a, s') => ExceptT.bindCont f a s') = _
  rcases x s with ⟨_ | _, s'⟩ <;> rfl

def Workshop.instance? {ω : Type} (w : Workshop ω) (t : Token) : Option (Instance ω) :=
  w.built.lookup t

def Workshop.keep {ω : Type} (t : Token) (i : Instance ω) (w : Workshop ω) : Workshop ω :=
  { w with built := w.built ++ [(t, i)] }

namespace Registry

variable {ω : Type}

/-- Runs the body of a factory. -/
def runFactory (t : Token) (build : StateM ω (Except String (Instance ω))) :
    Resolving ω (Instance ω) := do
  let w ← get
  let (result, user) := build w.user
  set { w with user }
  match result with
  | .ok i => pure i
  | .error reason => throw (.factoryFailed t reason)

/-- Resolves one dependency of a factory; its failure is reported as the factory's. -/
def asDependency (t : Token) (m : Resolving ω (Instance ω)) : Resolving ω (Instance ω) :=
  ExceptT.adapt (ResolutionError.dependencyFailed t) m

/-- Providers whose token is not under construction. -/
def idle (r : Registry ω) (chain : List Token) : List (Provider ω) :=
  r.providers.filter fun p => p.token ∉ chain

theorem idle_append_length_lt (r : Registry ω) (chain : List Token) {t : Token} {p : Provider ω}
    (hp : r.provider? t = some p) (ht : t ∉ chain) :
    (r.idle (chain ++ [t])).length < (r.idle chain).length := by
  have hmem : p ∈ r.providers := List.mem_of_find?_eq_some hp
  have htok : p.token = t := by simpa using List.find?_some hp
  have hsub : r.idle (chain ++ [t]) = (r.idle chain).filter fun q => q.token ≠ t := by
    simp [idle, List.filter_filter, Bool.and_comm]
  rw [hsub]
  refine Nat.lt_of_le_of_ne (List.length_filter_le _ _) fun h => ?_
  have hall := List.length_filter_eq_length_iff.1 h
  have hin : p ∈ r.idle chain := List.mem_filter.2 ⟨hmem, by simpa [htok] using ht⟩
  simpa [htok] using hall p hin

/-- Makes the instance of a token, once those it depends on are at hand. -/
def make (dependency : Token → Resolving ω (Instance ω)) (t : Token) :
    Source ω → Resolving ω (Instance ω)
  | .value i => pure i
  | .factory dependencies build => do
    let resolved ← dependencies.mapM fun d => do pure (d, ← asDependency t (dependency d))
    runFactory t (build resolved)

/-- The instance of a token while the tokens of the chain are under construction, each as a
dependency of the one before. -/
def resolveFrom (r : Registry ω) (chain : List Token) (t : Token) : Resolving ω (Instance ω) :=
  match (r.provider? t).attach with
  | none => throw (.unknownToken t)
  | some ⟨p, hp⟩ => do
    match (← get).instance? t with
    | some i => pure i
    | none =>
      if ht : t ∈ chain then throw (.cyclicDependency (chain ++ [t]))
      else
        have _shrinks := r.idle_append_length_lt chain hp ht
        let i ← make (fun d => resolveFrom r (chain ++ [t]) d) t p.source
        modify (Workshop.keep t i)
        pure i
termination_by (r.idle chain).length
decreasing_by exact _shrinks

/-- The instance of a token. -/
def resolve (r : Registry ω) (t : Token) : Resolving ω (Instance ω) := r.resolveFrom [] t

/-- Only a token without a provider gives the fallback. -/
def resolveOr (r : Registry ω) (t : Token) (fallback : Instance ω) : Resolving ω (Instance ω) :=
  tryCatch (r.resolve t) fun
    | .unknownToken _ => pure fallback
    | e => throw e

/-- The instance of a token as a value of a type of the host. -/
def resolveAs (r : Registry ω) (t : Token) (typeName : String) : Resolving ω Held := do
  match (← r.resolve t).asType? typeName with
  | some held => pure held
  | none => throw (.typeMismatch t typeName)

end Registry

end GraphAssembly
