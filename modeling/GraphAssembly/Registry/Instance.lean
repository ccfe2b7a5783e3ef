import GraphAssembly.Context
import GraphAssembly.Routine
import GraphAssembly.Token

/-!
# Instances

What a registry holds: middleware, codecs of custom scalars, and values of types of the host. The
state `ω` is whatever the code behind them keeps for itself; a factory and a codec see it alone,
middleware and methods see the context of the request as well.
-/

namespace GraphAssembly

/-- What the code of one request can see and change. -/
structure Scope (ω : Type) where
  context : Context
  user : ω

/-- A step run before the method of a field. -/
structure Middleware (ω : Type) where
  execute : (source : Json) → (args : Dict Json) → (options : Option Json) →
    Routine (Scope ω) (Except String Json)

/-- The three directions in which a custom scalar is converted. -/
structure Codec (ω : Type) where
  serialize : Json → StateM ω (Except String Json)
  parseValue : Json → StateM ω (Except String Json) := fun v => pure (.ok v)
  parseLiteral : Json → StateM ω (Except String Json) := parseValue

/-- A value of a type of the host, known by the name of that type. -/
structure Held where
  identity : Nat
  typeName : String
  value : Json
deriving DecidableEq

inductive Content (ω : Type) where
  | middleware (m : Middleware ω)
  | codec (c : Codec ω)
  | held (typeName : String) (value : Json)

/-- Two instances are the same one only if they have the same identity. -/
structure Instance (ω : Type) where
  identity : Nat
  content : Content ω

namespace Instance

variable {ω : Type}

def asMiddleware? (i : Instance ω) : Option (Middleware ω) :=
  match i.content with
  | .middleware m => some m
  | _ => none

def asCodec? (i : Instance ω) : Option (Codec ω) :=
  match i.content with
  | .codec c => some c
  | _ => none

/-- The held value, if it is of this type. -/
def asType? (i : Instance ω) (typeName : String) : Option Held :=
  match i.content with
  | .held name value => if name = typeName then some ⟨i.identity, name, value⟩ else none
  | _ => none

end Instance

end GraphAssembly
