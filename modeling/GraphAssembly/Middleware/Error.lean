import GraphAssembly.Json.Record
import GraphAssembly.Registry.Error

/-!
# Errors of a middleware chain

A chain cannot be formed when a binding leads to no middleware, and it stops at the first step that
fails or answers with a falsy value.
-/

namespace GraphAssembly

inductive SequenceError where
  | unknownMiddleware (token : Token) (cause : ResolutionError)
  | notExecutable (token : Token)
deriving DecidableEq

def SequenceError.message : SequenceError → String
  | .unknownMiddleware t cause =>
    s!"unable to find instance at token '{t.name}' for middleware: " ++ cause.message
  | .notExecutable t => s!"instance at token '{t.name}' is not executable as middleware"

/-- The reason is the message of the failure, or the falsy value itself. -/
structure MiddlewareError where
  middleware : String
  reason : Json
deriving DecidableEq

namespace MiddlewareError

def reasonText : Json → String
  | .str s => s
  | v => v.text

def message (e : MiddlewareError) : String :=
  "Middleware \"" ++ e.middleware ++ "\" error with reason \"" ++ reasonText e.reason ++ "\""

/-! ## JSON form -/

def toJson (e : MiddlewareError) : Json :=
  .obj [("middleware", .str e.middleware), ("reason", e.reason)]

structure Draft where
  middleware : Option String := none
  reason : Option Json := none

def Draft.member (d : Draft) (entry : String × Json) : Except ShapeError Draft :=
  match entry with
  | ("middleware", v) => do pure { d with middleware := some (← v.readString .byKind) }
  | ("reason", v) => .ok { d with reason := some v }
  | _ => .ok d

def ofJson : Json → Except ShapeError MiddlewareError
  | .obj entries => do
    let d ← entries.foldlM Draft.member {}
    pure ⟨← Record.require "middleware" d.middleware, ← Record.require "reason" d.reason⟩
  | .arr [] => Record.tooShort "MiddlewareError" 2 0
  | .arr (m :: rest) => do
    let middleware ← m.readString .byKind
    match rest with
    | [] => Record.tooShort "MiddlewareError" 2 1
    | [reason] => pure ⟨middleware, reason⟩
    | _ => Record.tooLong (rest.length + 1)
  | v => Record.notRecord "MiddlewareError" v

end MiddlewareError

end GraphAssembly
