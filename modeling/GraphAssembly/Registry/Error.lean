import GraphAssembly.Token

/-!
# Errors of the registry

Why a list of providers is refused, and why a token has no instance.
-/

namespace GraphAssembly

inductive RegistrationError where
  | duplicateToken (token : Token)
  | emptyToken
deriving DecidableEq

def RegistrationError.message : RegistrationError → String
  | .duplicateToken t => s!"provider token '{t.name}' is registered more than once"
  | .emptyToken => "invalid provider: provider token must not be empty"

inductive ResolutionError where
  | unknownToken (token : Token)
  /-- The body of the factory failed. -/
  | factoryFailed (factory : Token) (reason : String)
  /-- A dependency of the factory has no instance. -/
  | dependencyFailed (factory : Token) (cause : ResolutionError)
  /-- The chain ends with the token that closes the cycle. -/
  | cyclicDependency (chain : List Token)
  | typeMismatch (token : Token) (expected : String)
deriving DecidableEq, Inhabited

def ResolutionError.message : ResolutionError → String
  | .unknownToken t => s!"no provider for token '{t.name}'"
  | .factoryFailed t reason => s!"{t.name} -> {reason}"
  | .dependencyFailed t cause => s!"{t.name} -> " ++ cause.message
  | .cyclicDependency chain => "cyclic dependency detected: " ++ Token.chainText chain
  | .typeMismatch t expected => s!"instance at token '{t.name}' is not a {expected}"

end GraphAssembly
