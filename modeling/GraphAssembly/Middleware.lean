import GraphAssembly.Middleware.Error
import GraphAssembly.Registry

/-!
# Middleware chains

Before the method of a field runs, the middleware bound to it run one after the other.

1. `Binding` names a middleware and says what it is given and where its result goes.
2. `Step.ofBindings` turns all bindings into steps before any of them runs.
3. `Step.run` runs one step; `Step.runAll` runs them in order and stops at the first failure.
-/

namespace GraphAssembly

/-- A middleware bound to a field, or to every field of an implementation. -/
structure Binding (ω : Type) where
  token : Token
  options : Option Json := none
  /-- The slot of the context that the result is merged into. -/
  resultName : Option String := none
  /-- The provider that the binding brings with it. -/
  provider : Option (Provider ω) := none

structure Step (ω : Type) where
  token : Token
  middleware : Middleware ω
  options : Option Json
  resultName : Option String

namespace Step

variable {ω : Type}

/-- The step of one binding, once the instance of its token is at hand. -/
def ofInstance (b : Binding ω) (i : Instance ω) : Except SequenceError (Step ω) :=
  match i.asMiddleware? with
  | some m => .ok ⟨b.token, m, b.options, b.resultName⟩
  | none => .error (.notExecutable b.token)

def ofBinding (r : Registry ω) (b : Binding ω) :
    ExceptT SequenceError (StateM (Workshop ω)) (Step ω) := do
  let i ← ExceptT.adapt (SequenceError.unknownMiddleware b.token) (r.resolve b.token)
  match ofInstance b i with
  | .ok s => pure s
  | .error e => throw e

def ofBindings (r : Registry ω) (bindings : List (Binding ω)) :
    ExceptT SequenceError (StateM (Workshop ω)) (List (Step ω)) :=
  bindings.mapM (ofBinding r)

/-- Stores the result of a step in its slot, if it names one. -/
def store (s : Step ω) (result : Json) (scope : Scope ω) : Scope ω :=
  match s.resultName with
  | some slot => { scope with context := scope.context.merge slot result }
  | none => scope

/-- A truthy result is stored and passed on; a falsy one stops the chain like a failure. -/
def run (s : Step ω) (source : Json) (args : Dict Json) :
    Routine (Scope ω) (Except MiddlewareError Json) := do
  match ← s.middleware.execute source args s.options with
  | .error reason => pure (.error ⟨s.token.name, .str reason⟩)
  | .ok v =>
    if v.isTruthy then
      Routine.modify (s.store v)
      pure (.ok v)
    else pure (.error ⟨s.token.name, v⟩)

end Step

/-- Runs routines one after the other; the first failure is the answer, and the later ones never
start. -/
def Routine.untilError {σ ε α : Type} :
    List (Routine σ (Except ε α)) → Routine σ (Except ε (List α))
  | [] => .done (.ok [])
  | r :: rs => r.bind fun
    | .error e => .done (.error e)
    | .ok a => (untilError rs).bind fun
      | .error e => .done (.error e)
      | .ok as => .done (.ok (a :: as))

/-- Runs the steps in order. -/
def Step.runAll {ω : Type} (steps : List (Step ω)) (source : Json) (args : Dict Json) :
    Routine (Scope ω) (Except MiddlewareError (List Json)) :=
  Routine.untilError (steps.map fun s => s.run source args)

end GraphAssembly
