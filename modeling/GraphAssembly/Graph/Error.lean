import GraphAssembly.Registry.Error
import GraphAssembly.TypeRef

/-!
# Errors of an assembly

Why a blueprint gives no graph. The first mistake that is found ends the assembly.
-/

namespace GraphAssembly

inductive NodeKind where
  | scalar
  | object
  | interface
  | union
  | input
deriving DecidableEq

def NodeKind.text : NodeKind → String
  | .scalar => "scalar"
  | .object => "object"
  | .interface => "interface"
  | .union => "union"
  | .input => "input"

/-- Where a type is referred to. -/
inductive Usage where
  | output
  | input
deriving DecidableEq

def Usage.text : Usage → String
  | .output => "output"
  | .input => "input"

/-- How the field of an object falls short of that of an interface. -/
inductive Shortfall where
  | missingField
  | incompatible (actual expected : TypeRef)
  | argumentType (name : String) (actual expected : TypeRef)
  | missingArgument (name : String)
deriving DecidableEq

def Shortfall.message : Shortfall → String
  | .missingField => "the field is missing"
  | .incompatible actual expected =>
    s!"type '{actual.text}' is not compatible with '{expected.text}'"
  | .argumentType name actual expected =>
    s!"argument '{name}' has type '{actual.text}' instead of '{expected.text}'"
  | .missingArgument name => s!"argument '{name}' is missing"

inductive GraphError where
  | unknownType (type field parent : String)
  | duplicateField (field parent : String)
  | missingRootQuery (name : String)
  | invalidRootMutation (name : String)
  | unknownInterface (interface parent : String)
  | invalidImplementation (object interface field : String) (shortfall : Shortfall)
  | invalidUnionMember (member union : String)
  | invalidFieldType (type field parent : String) (kind : NodeKind) (usage : Usage)
  | duplicateType (name : String)
  | resolution (error : ResolutionError)
  | registration (error : RegistrationError)
deriving DecidableEq

def GraphError.message : GraphError → String
  | .unknownType type field parent =>
    s!"unknown type '{type}' for field '{field}' of type '{parent}'"
  | .duplicateField field parent =>
    s!"field '{field}' of type '{parent}' is defined more than one time"
  | .missingRootQuery name => s!"root query type '{name}' is not a registered object type"
  | .invalidRootMutation name => s!"root mutation type '{name}' is not a registered object type"
  | .unknownInterface interface parent =>
    s!"type '{parent}' implements '{interface}' which is not a registered interface"
  | .invalidImplementation object interface field shortfall =>
    s!"type '{object}' does not implement field '{field}' of interface '{interface}': "
      ++ shortfall.message
  | .invalidUnionMember member union =>
    s!"union '{union}' lists '{member}' which is not a registered object type"
  | .invalidFieldType type field parent kind usage =>
    s!"field '{field}' of type '{parent}' cannot use '{type}': "
      ++ s!"{kind.text} types cannot be used as {usage.text}"
  | .duplicateType name => s!"type '{name}' is declared more than one time"
  | .resolution e => e.message
  | .registration e => e.message

end GraphAssembly
