import GraphAssembly.Schema

/-!
# The pipeline of a field

How the value of one field is found. A plain field reads a property of its parent. A field with a
method first resolves its middleware, runs them in order, asks for the instance of its
implementation, and calls the method with its arguments by position. The first failure ends it.
-/

namespace GraphAssembly

/-- The state that the fields of one request share: its context, and the workshop, which outlives
the request. -/
structure World (ω : Type) where
  context : Context
  workshop : Workshop ω

namespace World

variable {ω : Type}

def user (w : World ω) : ω := w.workshop.user

def withUser (user : ω) (w : World ω) : World ω :=
  { w with workshop := { w.workshop with user } }

/-- The part that the code behind a field can see. -/
def scope (w : World ω) : Scope ω := ⟨w.context, w.user⟩

def withScope (s : Scope ω) (w : World ω) : World ω :=
  { context := s.context, workshop := { w.workshop with user := s.user } }

def withWorkshop (workshop : Workshop ω) (w : World ω) : World ω := { w with workshop }

end World

/-- A computation of a field, which may suspend and may fail. -/
abbrev Pipeline (ω ε : Type) := ExceptT ε (Routine (World ω))

namespace Pipeline

variable {ω ε δ α : Type}

/-- Runs a resolution in the workshop. -/
def inWorkshop (wrap : δ → ε) (m : ExceptT δ (StateM (Workshop ω)) α) : Pipeline ω ε α :=
  ExceptT.adapt wrap (ExceptT.mk ((Routine.ofState m.run).zoom World.workshop World.withWorkshop))

/-- Runs the code behind a field. -/
def inScope (wrap : δ → ε) (r : Routine (Scope ω) (Except δ α)) : Pipeline ω ε α :=
  ExceptT.adapt wrap (ExceptT.mk (r.zoom World.scope World.withScope))

end Pipeline

variable {ω : Type}

/-- The method of a field, called once its middleware have passed. -/
def Resolver.call (r : Resolver ω) (registry : Registry ω) (source : Json) (args : Dict Json) :
    Pipeline ω FieldError Resolved := do
  let i ← Pipeline.inWorkshop FieldError.resolution (registry.resolve r.instanceToken)
  Pipeline.inScope (FieldError.implementation r.name)
    (r.method i (Arguments.expand r.parameters source args))

/-- Runs the middleware of a field. All of them are resolved before the first one runs. -/
def Binding.runAll (registry : Registry ω) (bindings : List (Binding ω)) (source : Json)
    (args : Dict Json) : Pipeline ω FieldError Unit := do
  let steps ← Pipeline.inWorkshop FieldError.sequence (Step.ofBindings registry bindings)
  let _ ← Pipeline.inScope FieldError.middleware (Step.runAll steps source args)
  pure ()

/-- The value of a field for one parent value. -/
def FieldNode.resolve (f : FieldNode ω) (registry : Registry ω) (source : Json)
    (args : Dict Json) : Pipeline ω FieldError Resolved :=
  match f.source with
  | .property => pure (.value (source.property f.name))
  | .method r bindings => do
    Binding.runAll registry bindings source args
    r.call registry source args

end GraphAssembly
