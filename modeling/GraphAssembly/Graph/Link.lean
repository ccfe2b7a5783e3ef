import GraphAssembly.Graph.Declaration

/-!
# Linking

Once every type is declared, each reference is followed. The declarations are checked in their
order; for an object type its interfaces come before its fields.

1. References of fields and input values.
2. Whether the type of a field may stand where an interface asks for another.
3. The check of one declaration, and of all.
4. The nodes of the graph: abstract types learn their possible types.
-/

namespace GraphAssembly.Declarations

variable {ω : Type}

/-! ## References -/

/-- A reference must name a declared type that suits its usage. -/
def checkReference (t : Declarations ω) (parent field : String) (type : TypeRef) (usage : Usage) :
    Except GraphError Unit :=
  match Dict.get? t type.baseName with
  | none => .error (.unknownType type.baseName field parent)
  | some d =>
    if d.suits usage then .ok ()
    else .error (.invalidFieldType type.baseName field parent d.kind usage)

/-- A field is checked before its arguments, whose mistakes are reported under its name. -/
def checkField (t : Declarations ω) (parent : String) (f : FieldNode ω) :
    Except GraphError Unit := do
  t.checkReference parent f.name f.type .output
  (Dict.values f.arguments).forM fun a => t.checkReference parent f.name a.type .input

def checkFields (t : Declarations ω) (parent : String) (fields : Dict (FieldNode ω)) :
    Except GraphError Unit :=
  (Dict.values fields).forM (t.checkField parent)

/-! ## Covariance -/

/-- Whether the object type is possible for the abstract type, going by the declarations. -/
def isPossibleType (t : Declarations ω) (abstractType object : String) : Bool :=
  match Dict.get? t abstractType with
  | some (.interface _ _ _ _) =>
    match t.object? object with
    | some n => n.implements.contains abstractType
    | none => false
  | some (.union u) => u.members.contains object
  | _ => false

/-- Whether a field of the first type can stand in for one of the second: it may be null less often,
and it may be of a possible type instead of the abstract one. -/
def isCovariant (t : Declarations ω) : (actual expected : TypeRef) → Bool
  | .nonNull a, .nonNull e => t.isCovariant a e
  | .nonNull a, e => t.isCovariant a e
  | _, .nonNull _ => false
  | .list a, .list e => t.isCovariant a e
  | .list _, _ => false
  | _, .list _ => false
  | a, e => a.baseName = e.baseName || t.isPossibleType e.baseName a.baseName

/-! ## Interfaces of an object type -/

def checkArgument (actual : Dict InputValue) (expected : InputValue) : Except Shortfall Unit :=
  match Dict.get? actual expected.name with
  | none => .error (.missingArgument expected.name)
  | some a =>
    if a.type = expected.type then .ok ()
    else .error (.argumentType expected.name a.type expected.type)

/-- The object type must have the field, with a type and arguments that fit the interface. -/
def checkInterfaceField (t : Declarations ω) (o : ObjectNode ω) (expected : FieldNode ω) :
    Except Shortfall Unit :=
  match Dict.get? o.fields expected.name with
  | none => .error .missingField
  | some f => do
    if t.isCovariant f.type expected.type then
      (Dict.values expected.arguments).forM (checkArgument f.arguments)
    else throw (.incompatible f.type expected.type)

def checkImplementation (t : Declarations ω) (o : ObjectNode ω) (interface : String)
    (fields : Dict (FieldNode ω)) : Except GraphError Unit :=
  (Dict.values fields).forM fun f =>
    (t.checkInterfaceField o f).mapError (.invalidImplementation o.name interface f.name)

def checkInterface (t : Declarations ω) (o : ObjectNode ω) (interface : String) :
    Except GraphError Unit :=
  match Dict.get? t interface with
  | some (.interface name _ fields _) => t.checkImplementation o name fields
  | _ => .error (.unknownInterface interface o.name)

/-! ## Declarations -/

def checkMember (t : Declarations ω) (union member : String) : Except GraphError Unit :=
  if (t.object? member).isSome then .ok () else .error (.invalidUnionMember member union)

def check (t : Declarations ω) : Declaration ω → Except GraphError Unit
  | .object o => do
    o.implements.forM (t.checkInterface o)
    t.checkFields o.name o.fields
  | .interface name _ fields _ => t.checkFields name fields
  | .input n =>
    (Dict.values n.fields).forM fun f => t.checkReference n.name f.name f.type .input
  | .union u => u.members.forM (t.checkMember u.name)
  | .scalar _ => .ok ()

def checkAll (t : Declarations ω) : Except GraphError Unit := (Dict.values t).forM t.check

/-! ## Nodes -/

/-- The object types of the table. -/
def objects (t : Declarations ω) : List (ObjectNode ω) :=
  (Dict.values t).filterMap fun
    | .object n => some n
    | _ => none

def fieldSets (t : Declarations ω) : FieldSets :=
  t.objects.map fun o => (o.name, Dict.keys o.fields)

/-- The object types that implement an interface, in the order of the table. -/
def implementers (t : Declarations ω) (interface : String) : List String :=
  (t.objects.filter fun o => o.implements.contains interface).map (·.name)

def link (t : Declarations ω) (c : TypeResolution) : Declaration ω → Node ω
  | .scalar n => .scalar n
  | .object n => .object n
  | .input n => .input n
  | .interface name description fields chooser =>
    .interface ⟨name, description, fields,
      Typing.make name (t.implementers name) t.fieldSets chooser c⟩
  | .union u =>
    .union ⟨u.name, u.description, Typing.make u.name u.members t.fieldSets u.chooser c⟩

def linkAll (t : Declarations ω) (c : TypeResolution) : Dict (Node ω) :=
  Dict.mapValues (t.link c) t

end GraphAssembly.Declarations
