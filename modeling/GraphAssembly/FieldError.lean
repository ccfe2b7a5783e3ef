import GraphAssembly.Middleware.Error
import GraphAssembly.Report
import GraphAssembly.TypeRef

/-!
# Failures of a field

Why one field of a response has no value. The other fields go on; the failure is reported beside the
data, under a code that its kind determines.
-/

namespace GraphAssembly

/-- What is wrong with a value at its type. -/
inductive ValueFault where
  | nullNotAllowed
  | notBuiltin (value : Json) (type : TypeRef)
  | notObject (value : Json)
  | missingField (name : String)
  | expectedList
  | unexpectedList
  | notInputType
  | notOutputType
  | notObjectType (runtimeType : String)
  /-- The reason given by the codec of a custom scalar. -/
  | refused (reason : String)
deriving DecidableEq

def ValueFault.message : ValueFault → String
  | .nullNotAllowed => "null is not allowed"
  | .notBuiltin v t => v.text ++ " is not a valid " ++ t.text
  | .notObject v => v.text ++ " is not an object"
  | .missingField name => s!"missing value for non-nullable field '{name}'"
  | .expectedList => "expected a list"
  | .unexpectedList => "unexpected list"
  | .notInputType => "not an input type"
  | .notOutputType => "not an output type"
  | .notObjectType t => s!"'{t}' is not an object type"
  | .refused reason => reason

inductive FieldError where
  | middleware (error : MiddlewareError)
  | sequence (error : SequenceError)
  | resolution (error : ResolutionError)
  /-- The method of the field failed. -/
  | implementation (field : String) (reason : String)
  | unresolvedType (abstractType : String)
  | impossibleType (runtimeType abstractType : String)
  | nullValue (field : String)
  | invalidValue (type : String) (fault : ValueFault)
  | missingArgument (name : String)
  | unknownField (field parent : String)
deriving DecidableEq

namespace FieldError

def message : FieldError → String
  | .middleware e => e.message
  | .sequence e => e.message
  | .resolution e => e.message
  | .implementation field reason => s!"resolver for field '{field}' failed: {reason}"
  | .unresolvedType t =>
    s!"unable to resolve the runtime type of a value for abstract type '{t}'"
  | .impossibleType runtime abstract =>
    s!"type '{runtime}' is not a possible type of '{abstract}'"
  | .nullValue field => s!"cannot return null for non-nullable field '{field}'"
  | .invalidValue type fault => s!"invalid value for type '{type}': " ++ fault.message
  | .missingArgument name => s!"missing value for non-nullable argument '{name}'"
  | .unknownField field parent => s!"field '{field}' does not exist on type '{parent}'"

def code : FieldError → String
  | .middleware _ => "MIDDLEWARE_REJECTED"
  | .sequence _ => "MIDDLEWARE_UNAVAILABLE"
  | .resolution _ => "RESOLUTION_FAILED"
  | .implementation _ _ => "RESOLVER_FAILED"
  | .unresolvedType _ | .impossibleType _ _ => "UNRESOLVED_TYPE"
  | .nullValue _ | .invalidValue _ _ => "INVALID_VALUE"
  | .missingArgument _ => "MISSING_ARGUMENT"
  | .unknownField _ _ => "UNKNOWN_FIELD"

/-- A rejection by a middleware names it and its reason. -/
def extensions (e : FieldError) : Dict Json :=
  ("code", .str e.code) :: match e with
    | .middleware m => [("middleware", .str m.middleware), ("reason", m.reason)]
    | _ => []

def report (e : FieldError) (path : Option Path) : Report :=
  { message := e.message, path, extensions := e.extensions }

end FieldError

end GraphAssembly
