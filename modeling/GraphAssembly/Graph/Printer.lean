import GraphAssembly.Graph

/-!
# Graphs as schema definitions

The text of a graph in the schema definition language: a block for the root operations when their
names are not the usual ones, then a block for each type but the built-in scalars. Blocks are
separated by an empty line.
-/

namespace GraphAssembly

/-! ## Descriptions -/

namespace Description

/-- The lines of a text. A line ends with a line feed, before which one carriage return is dropped;
the empty line after the last line feed does not count. -/
def lines (reversed : List Char) : List Char → List (List Char)
  | [] => if reversed.isEmpty then [] else [reversed.reverse]
  | '\n' :: rest =>
    let line := match reversed with
      | '\r' :: before => before.reverse
      | _ => reversed.reverse
    line :: lines [] rest
  | c :: rest => lines (c :: reversed) rest

/-- Three quotes in a row would end a block, so the first of them is escaped. -/
def escapeBlock : List Char → List Char
  | '"' :: '"' :: '"' :: rest => '\\' :: '"' :: '"' :: '"' :: escapeBlock rest
  | c :: rest => c :: escapeBlock rest
  | [] => []

def escapeQuoted : List Char → List Char
  | [] => []
  | c :: rest =>
    if c = '\\' then '\\' :: '\\' :: escapeQuoted rest
    else if c = '"' then '\\' :: '"' :: escapeQuoted rest
    else c :: escapeQuoted rest

def quotes : List Char := ['"', '"', '"']

/-- A description with a line feed is written as a block, any other as one quoted line. -/
def write (indent text : List Char) : List Char :=
  if '\n' ∈ text then
    indent ++ quotes ++ ['\n']
      ++ (lines [] text).flatMap (fun l => indent ++ escapeBlock l ++ ['\n'])
      ++ indent ++ quotes ++ ['\n']
  else indent ++ ['"'] ++ escapeQuoted text ++ ['"', '\n']

/-- The text of a description, and nothing if there is none. -/
def print (indent : String) : Option String → String
  | none => ""
  | some d => String.ofList (write indent.toList d.toList)

end Description

/-! ## Blocks -/

def InputValue.argumentText (v : InputValue) : String := s!"{v.name}: {v.type.text}"

namespace Graph

variable {ω : Type}

def fieldText (f : FieldNode ω) : String :=
  let arguments := (Dict.values f.arguments).map InputValue.argumentText
  Description.print "  " f.description ++ "  " ++ f.name
    ++ (if arguments.isEmpty then "" else "(" ++ ", ".intercalate arguments ++ ")")
    ++ s!": {f.type.text}\n"

def inputFieldText (v : InputValue) : String :=
  Description.print "  " v.description ++ s!"  {v.name}: {v.type.text}\n"

/-- Lines between braces. -/
def braced (lines : List String) : String := " \x7b\n" ++ String.join lines ++ "\x7d"

def fieldsText (fields : Dict (FieldNode ω)) : String :=
  braced ((Dict.values fields).map fieldText)

def nodeText : Node ω → String
  | .scalar n => "scalar " ++ n.name
  | .object n =>
    "type " ++ n.name
      ++ (if n.implements.isEmpty then "" else " implements " ++ " & ".intercalate n.implements)
      ++ fieldsText n.fields
  | .interface n => "interface " ++ n.name ++ fieldsText n.fields
  | .union n =>
    let members := n.typing.possibleTypes
    "union " ++ n.name ++ (if members.isEmpty then "" else " = " ++ " | ".intercalate members)
  | .input n => "input " ++ n.name ++ braced ((Dict.values n.fields).map inputFieldText)

/-- A scalar without a codec is built in and not printed. -/
def isPrinted : Node ω → Bool
  | .scalar n => n.codec.isSome
  | _ => true

def block (n : Node ω) : String := Description.print "" n.description ++ nodeText n

/-- The block of the root operations, unless they go by the names `Query` and `Mutation`. -/
def rootBlock (g : Graph ω) : List String :=
  if g.query = "Query" ∧ (g.mutation = none ∨ g.mutation = some "Mutation") then []
  else
    let mutation := match g.mutation with
      | none => []
      | some m => [s!"  mutation: {m}\n"]
    ["schema" ++ braced ([s!"  query: {g.query}\n"] ++ mutation)]

/-- The text of a graph, with a line feed at its end. -/
def toSdl (g : Graph ω) : String :=
  "\n\n".intercalate (g.rootBlock ++ ((Dict.values g.nodes).filter isPrinted).map block) ++ "\n"

end Graph

end GraphAssembly
