import GraphAssembly.Proofs.Printing.Lexemes
import GraphAssembly.TypeRef

/-!
# Documents in the schema definition language

What a document says, and a reader that finds it in the lexemes of the document.

1. `Definition`: the parts of a document, with their lexemes.
2. `Reader`: each part is read by one function.
3. A reader for a part finds the part in its lexemes.
-/

namespace GraphAssembly.Sdl

open Description (Literal)

/-! ## Documents -/

/-- An argument or an input field. -/
structure Input where
  description : Option Literal
  name : String
  type : TypeRef
deriving DecidableEq

structure Field where
  description : Option Literal
  name : String
  arguments : List Input
  type : TypeRef
deriving DecidableEq

inductive Definition
  | schema (operations : Dict String)
  | scalar (description : Option Literal) (name : String)
  | object (description : Option Literal) (name : String) (implements : List String)
      (fields : List Field)
  | interface (description : Option Literal) (name : String) (fields : List Field)
  | union (description : Option Literal) (name : String) (members : List String)
  | input (description : Option Literal) (name : String) (fields : List Input)
deriving DecidableEq

/-! ## Lexemes -/

def typeLexemes : TypeRef → List Lexeme
  | .list item => .mark '[' :: (typeLexemes item ++ [.mark ']'])
  | .nonNull inner => typeLexemes inner ++ [.mark '!']
  | t => [.name t.baseName]

def described (d : Option Literal) : List Lexeme := (d.map .literal).toList

/-- Names with a mark between them. -/
def separated (c : Char) (names : List String) : List Lexeme :=
  [Lexeme.mark c].intercalate (names.map fun name => [.name name])

def Input.lexemes (i : Input) : List Lexeme :=
  described i.description ++ .name i.name :: .mark ':' :: typeLexemes i.type

def argumentsLexemes : List Input → List Lexeme
  | [] => []
  | arguments => .mark '(' :: (arguments.flatMap Input.lexemes ++ [.mark ')'])

def Field.lexemes (f : Field) : List Lexeme :=
  described f.description ++ .name f.name ::
    (argumentsLexemes f.arguments ++ .mark ':' :: typeLexemes f.type)

def implementsLexemes : List String → List Lexeme
  | [] => []
  | names => .name "implements" :: separated '&' names

def membersLexemes : List String → List Lexeme
  | [] => []
  | names => .mark '=' :: separated '|' names

def operationLexemes (operation : String × String) : List Lexeme :=
  [.name operation.1, .mark ':', .name operation.2]

def bracedLexemes {α : Type} (lexemes : α → List Lexeme) (xs : List α) : List Lexeme :=
  .mark '{' :: (xs.flatMap lexemes ++ [.mark '}'])

def Definition.lexemes : Definition → List Lexeme
  | .schema operations => .name "schema" :: bracedLexemes operationLexemes operations
  | .scalar d name => described d ++ [.name "scalar", .name name]
  | .object d name implements fields =>
    described d ++ .name "type" :: .name name ::
      (implementsLexemes implements ++ bracedLexemes Field.lexemes fields)
  | .interface d name fields =>
    described d ++ .name "interface" :: .name name :: bracedLexemes Field.lexemes fields
  | .union d name members =>
    described d ++ .name "union" :: .name name :: membersLexemes members
  | .input d name fields =>
    described d ++ .name "input" :: .name name :: bracedLexemes Input.lexemes fields

/-! ## Readers -/

/-- Reads something from the first lexemes and leaves the others. -/
abbrev Reader (α : Type) := List Lexeme → Option (α × List Lexeme)

/-- The marks behind the name of a type, with a number of brackets before it. -/
def readMarks : Nat → TypeRef → Reader TypeRef
  | brackets, t, .mark '!' :: ls => readMarks brackets (.nonNull t) ls
  | brackets + 1, t, .mark ']' :: ls => readMarks brackets (.list t) ls
  | 0, t, ls => some (t, ls)
  | _, _, _ => none

/-- A type, behind a number of brackets. -/
def readType : Nat → Reader TypeRef
  | brackets, .mark '[' :: ls => readType (brackets + 1) ls
  | brackets, .name name :: ls => readMarks brackets (.ofName name) ls
  | _, _ => none

def readDescription : List Lexeme → Option Literal × List Lexeme
  | .literal l :: ls => (some l, ls)
  | ls => (none, ls)

/-- One name or more, with a mark between them. -/
def readNames (c : Char) : Reader (List String)
  | .name name :: .mark c' :: ls =>
    if c' = c then (readNames c ls).map fun (names, ls) => (name :: names, ls)
    else some ([name], .mark c' :: ls)
  | .name name :: ls => some ([name], ls)
  | _ => none

/-- What there is up to a lexeme that closes it. -/
def readAll {α : Type} (close : Lexeme) (read : Reader α) (ls : List Lexeme) :
    Option (List α × List Lexeme) :=
  match ls with
  | [] => none
  | l :: ls =>
    if l = close then some ([], ls)
    else match read (l :: ls) with
      | none => none
      | some (x, rest) =>
        if _h : rest.length < (l :: ls).length then
          (readAll close read rest).map fun (xs, rest) => (x :: xs, rest)
        else none
termination_by ls.length
decreasing_by exact _h

def readInput : Reader Input := fun ls =>
  let (d, ls) := readDescription ls
  match ls with
  | .name name :: .mark ':' :: ls => do
    let (type, ls) ← readType 0 ls
    some (⟨d, name, type⟩, ls)
  | _ => none

def readArguments : Reader (List Input)
  | .mark '(' :: ls => readAll (.mark ')') readInput ls
  | ls => some ([], ls)

def readField : Reader Field := fun ls =>
  let (d, ls) := readDescription ls
  match ls with
  | .name name :: ls => do
    let (arguments, ls) ← readArguments ls
    match ls with
    | .mark ':' :: ls => do
      let (type, ls) ← readType 0 ls
      some (⟨d, name, arguments, type⟩, ls)
    | _ => none
  | _ => none

def readImplements : Reader (List String)
  | .name "implements" :: ls => readNames '&' ls
  | ls => some ([], ls)

def readMembers : Reader (List String)
  | .mark '=' :: ls => readNames '|' ls
  | ls => some ([], ls)

def readOperation : Reader (String × String)
  | .name operation :: .mark ':' :: .name type :: ls => some ((operation, type), ls)
  | _ => none

def readBraced {α : Type} (read : Reader α) : Reader (List α)
  | .mark '{' :: ls => readAll (.mark '}') read ls
  | _ => none

def readDefinition : Reader Definition := fun ls =>
  let (d, ls) := readDescription ls
  match ls with
  | .name "scalar" :: .name name :: ls => some (.scalar d name, ls)
  | .name "type" :: .name name :: ls => do
    let (implements, ls) ← readImplements ls
    let (fields, ls) ← readBraced readField ls
    some (.object d name implements fields, ls)
  | .name "interface" :: .name name :: ls => do
    let (fields, ls) ← readBraced readField ls
    some (.interface d name fields, ls)
  | .name "union" :: .name name :: ls => do
    let (members, ls) ← readMembers ls
    some (.union d name members, ls)
  | .name "input" :: .name name :: ls => do
    let (fields, ls) ← readBraced readInput ls
    some (.input d name fields, ls)
  | .name "schema" :: ls => do
    let (operations, ls) ← readBraced readOperation ls
    some (.schema operations, ls)
  | _ => none

/-- The definitions of a document. -/
def read (text : String) : Option (List Definition) := do
  let ls ← lex text.toList
  let (definitions, _) ← readAll .stop readDefinition ls
  some definitions

/-! ## Reading what is there -/

/-- The name of the type is a name, and not that of a built-in scalar unless it is the scalar. -/
def Legible : TypeRef → Prop
  | .named name => isName name = true ∧ TypeRef.ofName name = .named name
  | .list item => Legible item
  | .nonNull inner => Legible inner
  | _ => True

def Input.Legible (i : Input) : Prop := isName i.name = true ∧ Sdl.Legible i.type

structure Field.Legible (f : Field) : Prop where
  name : isName f.name = true
  arguments : ∀ a ∈ f.arguments, a.Legible
  type : Sdl.Legible f.type

/-- All names are names. -/
def Definition.Legible : Definition → Prop
  | .schema operations => ∀ o ∈ operations, isName o.1 = true ∧ isName o.2 = true
  | .scalar _ name => isName name = true
  | .object _ name implements fields =>
    isName name = true ∧ (∀ i ∈ implements, isName i = true) ∧ ∀ f ∈ fields, f.Legible
  | .interface _ name fields => isName name = true ∧ ∀ f ∈ fields, f.Legible
  | .union _ name members => isName name = true ∧ ∀ m ∈ members, isName m = true
  | .input _ name fields => isName name = true ∧ ∀ i ∈ fields, i.Legible

/-- With these lexemes something may begin. -/
def Lexeme.opens : Lexeme → Bool
  | .name _ | .literal _ => true
  | _ => false

def Lexeme.closes : Lexeme → Bool
  | .mark c => c = ')' || c = '}'
  | .stop => true
  | _ => false

/-- Something new begins, or what is open is closed. -/
def Fresh (ls : List Lexeme) : Prop := ∀ l ∈ ls.head?, l.opens = true ∨ l.closes = true

theorem Fresh.head_ne {ls : List Lexeme} (h : Fresh ls) {c : Char}
    (hc : (Lexeme.mark c).closes = false) : ls.head? ≠ some (.mark c) := by
  intro hhead
  rcases h _ hhead with hopens | hcloses
  · cases hopens
  · exact absurd hcloses (by simp [hc])

theorem readMarks_of_head {t : TypeRef} {ls : List Lexeme} (h : ls.head? ≠ some (.mark '!')) :
    readMarks 0 t ls = some (t, ls) := by
  unfold readMarks
  split
  · exact absurd rfl h
  · contradiction
  · rfl
  · contradiction

theorem readType_lexemes {t : TypeRef} (h : Legible t) (brackets : Nat) (ls : List Lexeme) :
    readType brackets (typeLexemes t ++ ls) = readMarks brackets t ls := by
  induction t generalizing brackets ls with
  | named name =>
    have hname : TypeRef.ofName name = .named name := h.2
    show readMarks brackets (.ofName name) ls = readMarks brackets (.named name) ls
    rw [hname]
  | list item ih =>
    rw [typeLexemes, List.cons_append, List.append_assoc, readType, ih h]
    rfl
  | nonNull inner ih =>
    rw [typeLexemes, List.append_assoc, ih h]
    rfl
  | string | int | float | id | boolean => rfl

/-- A type that stands before something new. -/
theorem readType_fresh {t : TypeRef} (h : Legible t) {ls : List Lexeme} (hls : Fresh ls) :
    readType 0 (typeLexemes t ++ ls) = some (t, ls) := by
  rw [readType_lexemes h, readMarks_of_head (hls.head_ne rfl)]

theorem readDescription_described (d : Option Literal) (name : String) (ls : List Lexeme) :
    readDescription (described d ++ .name name :: ls) = (d, .name name :: ls) := by
  cases d <;> rfl

theorem readNames_separated {c : Char} {names : List String} (h : names ≠ []) {ls : List Lexeme}
    (hls : ls.head? ≠ some (.mark c)) :
    readNames c (separated c names ++ ls) = some (names, ls) := by
  induction names with
  | nil => exact absurd rfl h
  | cons name names ih =>
    cases names with
    | nil =>
      have hone : separated c [name] = [.name name] := rfl
      rw [hone, List.singleton_append]
      unfold readNames
      split
      · rename_i heq
        cases heq
        rw [if_neg fun hc => hls (by rw [hc]; rfl)]
      · rename_i heq
        cases heq
        rfl
      · rename_i hother
        exact absurd rfl (hother _ _)
    | cons name' names =>
      have hmore : separated c (name :: name' :: names) =
          .name name :: .mark c :: separated c (name' :: names) := by
        simp [separated, List.intercalate_cons_cons]
      rw [hmore, List.cons_append, List.cons_append, readNames, if_pos rfl, ih (by simp)]
      rfl

/-- The reader finds `x` in the lexemes, wherever they stand before something new. -/
structure Reads {α : Type} (read : Reader α) (ls : List Lexeme) (x : α) : Prop where
  opens : ∃ l rest, ls = l :: rest ∧ l.opens = true
  read_eq : ∀ rest, Fresh rest → read (ls ++ rest) = some (x, rest)

theorem readAll_flatMap {α : Type} {read : Reader α} {lexemes : α → List Lexeme} {xs : List α}
    (h : ∀ x ∈ xs, Reads read (lexemes x) x) {close : Lexeme} (hclose : close.closes = true)
    (rest : List Lexeme) :
    readAll close read (xs.flatMap lexemes ++ close :: rest) = some (xs, rest) := by
  induction xs with
  | nil => rw [List.flatMap_nil, List.nil_append, readAll, if_pos rfl]
  | cons x xs ih =>
    obtain ⟨hx, hxs⟩ := List.forall_mem_cons.1 h
    have hfresh : Fresh (xs.flatMap lexemes ++ close :: rest) := by
      cases xs with
      | nil =>
        rintro _ ⟨⟩
        exact .inr hclose
      | cons x' xs =>
        obtain ⟨l, ls, heq, hopens⟩ := (hxs x' List.mem_cons_self).opens
        rw [List.flatMap_cons, heq]
        rintro _ ⟨⟩
        exact .inl hopens
    have hread := hx.read_eq _ hfresh
    obtain ⟨l, ls, heq, hopens⟩ := hx.opens
    rw [List.flatMap_cons, List.append_assoc]
    rw [heq, List.cons_append] at hread ⊢
    have hne : l ≠ close := by
      rintro rfl
      cases l <;> cases hopens <;> cases hclose
    rw [readAll, if_neg hne, hread]
    dsimp only
    rw [dif_pos (by simp only [List.length_cons, List.length_append]; omega), ih hxs]
    rfl

theorem readBraced_lexemes {α : Type} {read : Reader α} {lexemes : α → List Lexeme} {xs : List α}
    (h : ∀ x ∈ xs, Reads read (lexemes x) x) (rest : List Lexeme) :
    readBraced read (bracedLexemes lexemes xs ++ rest) = some (xs, rest) := by
  rw [bracedLexemes, List.cons_append, List.append_assoc, List.singleton_append, readBraced,
    readAll_flatMap h rfl]

/-- What begins with a description or, if there is none, with a name. -/
theorem opens_described (d : Option Literal) (name : String) (ls : List Lexeme) :
    ∃ l rest, described d ++ .name name :: ls = l :: rest ∧ l.opens = true := by
  cases d with
  | none => exact ⟨_, _, rfl, rfl⟩
  | some l => exact ⟨_, _, rfl, rfl⟩

theorem reads_input {i : Input} (h : i.Legible) : Reads readInput i.lexemes i where
  opens := opens_described _ _ _
  read_eq rest hrest := by
    rw [Input.lexemes, List.append_assoc, readInput, List.cons_append, readDescription_described]
    simp [readType_fresh h.2 hrest]

theorem readArguments_lexemes {arguments : List Input} (h : ∀ a ∈ arguments, a.Legible)
    (rest : List Lexeme) :
    readArguments (argumentsLexemes arguments ++ .mark ':' :: rest) =
      some (arguments, .mark ':' :: rest) := by
  cases arguments with
  | nil => rfl
  | cons a arguments =>
    rw [argumentsLexemes, List.cons_append, List.append_assoc, List.singleton_append,
      readArguments, readAll_flatMap (fun a ha => reads_input (h a ha)) rfl]
    nofun

theorem reads_field {f : Field} (h : f.Legible) : Reads readField f.lexemes f where
  opens := opens_described _ _ _
  read_eq rest hrest := by
    rw [Field.lexemes, List.append_assoc, readField, List.cons_append, readDescription_described]
    simp [readArguments_lexemes h.arguments, readType_fresh h.type hrest]

theorem reads_operation (operation : String × String) :
    Reads readOperation (operationLexemes operation) operation where
  opens := ⟨_, _, rfl, rfl⟩
  read_eq _ _ := rfl

theorem readImplements_lexemes {α : Type} {lexemes : α → List Lexeme} {xs : List α}
    (names : List String) (ls : List Lexeme) :
    readImplements (implementsLexemes names ++ (bracedLexemes lexemes xs ++ ls)) =
      some (names, bracedLexemes lexemes xs ++ ls) := by
  cases names with
  | nil => rfl
  | cons name names =>
    rw [implementsLexemes, List.cons_append, readImplements,
      readNames_separated (by simp) (by simp [bracedLexemes])]
    nofun

theorem readMembers_lexemes (names : List String) {ls : List Lexeme} (hls : Fresh ls) :
    readMembers (membersLexemes names ++ ls) = some (names, ls) := by
  cases names with
  | nil =>
    rw [membersLexemes, List.nil_append]
    unfold readMembers
    split
    · exact absurd rfl (hls.head_ne rfl)
    · rfl
  | cons name names =>
    rw [membersLexemes, List.cons_append, readMembers,
      readNames_separated (by simp) (hls.head_ne rfl)]
    nofun

theorem reads_definition {d : Definition} (h : d.Legible) :
    Reads readDefinition d.lexemes d := by
  constructor
  · cases d with
    | schema => exact ⟨_, _, rfl, rfl⟩
    | scalar d | object d | interface d | union d | input d => exact opens_described d _ _
  · intro rest hrest
    cases d with
    | schema operations =>
      have hbraced := readBraced_lexemes (fun o (_ : o ∈ operations) => reads_operation o) rest
      simp [Definition.lexemes, readDefinition, readDescription, hbraced]
    | scalar d name =>
      simp [Definition.lexemes, readDefinition, readDescription_described]
    | object d name implements fields =>
      have hbraced := readBraced_lexemes (fun f hf => reads_field (h.2.2 f hf)) rest
      simp [Definition.lexemes, readDefinition, readDescription_described,
        readImplements_lexemes, hbraced]
    | interface d name fields =>
      have hbraced := readBraced_lexemes (fun f hf => reads_field (h.2 f hf)) rest
      simp [Definition.lexemes, readDefinition, readDescription_described, hbraced]
    | union d name members =>
      simp [Definition.lexemes, readDefinition, readDescription_described,
        readMembers_lexemes members hrest]
    | input d name fields =>
      have hbraced := readBraced_lexemes (fun i hi => reads_input (h.2 i hi)) rest
      simp [Definition.lexemes, readDefinition, readDescription_described, hbraced]

/-- A document is read from a text that has its lexemes. -/
theorem read_of_spells {text : String} {ds : List Definition}
    (h : Spells text.toList (ds.flatMap Definition.lexemes)) (hds : ∀ d ∈ ds, d.Legible) :
    read text = some ds := by
  rw [read, h.lex_eq]
  have hread : readAll .stop readDefinition (ds.flatMap Definition.lexemes ++ [.stop]) =
      some (ds, []) := readAll_flatMap (fun d hd => reads_definition (hds d hd)) rfl []
  simp [hread]

end GraphAssembly.Sdl
