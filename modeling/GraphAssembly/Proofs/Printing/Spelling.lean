import GraphAssembly.Proofs.Printing.Documents
import Mathlib.Data.List.Forall2

/-!
# Printed graphs as documents

The text of a graph is a document, from which a reader finds all that is printed.

1. Lists that are printed with something between.
2. The document of a graph.
3. What is printed has the lexemes of the document.
-/

namespace GraphAssembly

open Sdl
open Description (Literal)

variable {ω : Type}

/-! ## Lists -/

theorem Sdl.Apart.flatMap {α : Type} {f : α → List Char} {xs : List α}
    (h : ∀ x ∈ xs, Apart (f x)) : Apart (xs.flatMap f) := by
  induction xs with
  | nil => nofun
  | cons x xs ih =>
    obtain ⟨hx, hxs⟩ := List.forall_mem_cons.1 h
    exact hx.append (ih hxs)

theorem Sdl.intercalate_nil_eq (lss : List (List Lexeme)) : [].intercalate lss = lss.flatten := by
  induction lss with
  | nil => rfl
  | cons ls lss ih =>
    cases lss with
    | nil => simp
    | cons => rw [List.intercalate_cons_cons, ih, List.append_nil]; rfl

namespace Sdl.Spells

theorem flatMap {α : Type} {f : α → List Char} {lexemes : α → List Lexeme} {xs : List α}
    (h : ∀ x ∈ xs, Spells (f x) (lexemes x)) (hapart : ∀ x ∈ xs, Apart (f x)) :
    Spells (xs.flatMap f) (xs.flatMap lexemes) := by
  induction xs with
  | nil => exact .nil
  | cons x xs ih =>
    obtain ⟨hx, hxs⟩ := List.forall_mem_cons.1 h
    obtain ⟨-, hapart⟩ := List.forall_mem_cons.1 hapart
    exact hx.append (ih hxs hapart) (.flatMap hapart)

/-- Texts with a separator between them, which may have lexemes of its own. -/
theorem intercalate {sep : List Char} {seps : List Lexeme}
    (hsep : ∀ {text ls}, Spells text ls → Spells (sep ++ text) (seps ++ ls))
    (hapart : ∀ text, Apart (sep ++ text)) {texts : List (List Char)} {lss : List (List Lexeme)}
    (h : List.Forall₂ Spells texts lss) :
    Spells (sep.intercalate texts) (seps.intercalate lss) := by
  induction h with
  | nil => exact .nil
  | @cons text ls texts lss hfirst hrest ih =>
    cases hrest with
    | nil => simpa using hfirst
    | cons =>
      rw [List.intercalate_cons_cons, List.intercalate_cons_cons, List.append_assoc,
        List.append_assoc]
      exact hfirst.append (hsep ih) (hapart _)

/-- Texts with blanks between them. -/
theorem spaced {sep : List Char} (hsep : ∀ c ∈ sep, isIgnored c = true) (hne : sep ≠ [])
    {texts : List (List Char)} {lss : List (List Lexeme)} (h : List.Forall₂ Spells texts lss) :
    Spells (sep.intercalate texts) lss.flatten := by
  rw [← intercalate_nil_eq]
  refine intercalate (fun {text ls} h => ?_) (fun text => ?_) h
  · clear hne
    induction sep with
    | nil => exact h
    | cons c sep ih =>
      obtain ⟨hc, hsep⟩ := List.forall_mem_cons.1 hsep
      exact .ignored hc (ih hsep)
  · obtain ⟨c, sep, rfl⟩ := List.exists_cons_of_ne_nil hne
    exact .cons (isNameChar_of_isIgnored (hsep c List.mem_cons_self)) _

theorem word {name : String} (hname : isName name = true) {text : List Char} {ls : List Lexeme}
    (h : Spells text ls) (hapart : Apart text) : Spells (name.toList ++ text) (.name name :: ls) :=
  (Spells.name hname).append h hapart

/-- Names with a mark between them. -/
theorem separated {c : Char} (hc : isMark c = true) {names : List String}
    (h : ∀ name ∈ names, isName name = true) :
    Spells ([' ', c, ' '].intercalate (names.map (·.toList))) (separated c names) := by
  refine intercalate (fun h => .ignored rfl (.mark hc (.ignored rfl h))) (fun _ => .cons rfl _) ?_
  rw [List.forall₂_map_left_iff, List.forall₂_map_right_iff, List.forall₂_same]
  exact fun name hname => .name (h name hname)

end Sdl.Spells

/-! ## Documents -/

/-- The literal of a description that is printed with this indentation. -/
def Description.literal? (indent : String) (d : Option String) : Option Literal :=
  d.map fun d => literal indent.toList d.toList

def InputValue.toArgument (v : InputValue) : Input := ⟨none, v.name, v.type⟩

def InputValue.toInput (v : InputValue) : Input :=
  ⟨Description.literal? "  " v.description, v.name, v.type⟩

def FieldNode.toField (f : FieldNode ω) : Field :=
  ⟨Description.literal? "  " f.description, f.name,
    (Dict.values f.arguments).map InputValue.toArgument, f.type⟩

def Node.toDefinition : Node ω → Definition
  | .scalar n => .scalar (Description.literal? "" n.description) n.name
  | .object n =>
    .object (Description.literal? "" n.description) n.name n.implements
      ((Dict.values n.fields).map FieldNode.toField)
  | .interface n =>
    .interface (Description.literal? "" n.description) n.name
      ((Dict.values n.fields).map FieldNode.toField)
  | .union n => .union (Description.literal? "" n.description) n.name n.typing.possibleTypes
  | .input n =>
    .input (Description.literal? "" n.description) n.name
      ((Dict.values n.fields).map InputValue.toInput)

namespace Graph

/-- The root operations with their types, if they have to be listed. -/
def listedRoots (g : Graph ω) : Option (Dict String) :=
  if g.query = "Query" ∧ (g.mutation = none ∨ g.mutation = some "Mutation") then none
  else some (("query", g.query) :: (g.mutation.map ("mutation", ·)).toList)

def document (g : Graph ω) : List Definition :=
  (g.listedRoots.map .schema).toList ++
    ((Dict.values g.nodes).filter isPrinted).map Node.toDefinition

end Graph

/-! ## Spelling -/

theorem Sdl.spells_type {t : TypeRef} (h : Legible t) : Spells t.text.toList (typeLexemes t) := by
  induction t with
  | named name => exact .name h.1
  | list item ih =>
    have htext : (TypeRef.list item).text.toList = '[' :: (item.text.toList ++ [']']) := by
      simp [TypeRef.text]
    rw [htext]
    exact .mark rfl ((ih h).append (.mark rfl .nil) (.cons rfl _))
  | nonNull inner ih =>
    have htext : (TypeRef.nonNull inner).text.toList = inner.text.toList ++ ['!'] := by
      simp [TypeRef.text]
    rw [htext]
    exact (ih h).append (.mark rfl .nil) (.cons rfl _)
  | string | int | float | id | boolean => exact .name rfl

/-- A name, a colon and a type. -/
theorem Sdl.spells_typed {name : String} (hname : isName name = true) {t : TypeRef}
    (ht : Legible t) {text : List Char} {ls : List Lexeme} (h : Spells text ls)
    (hapart : Apart text) :
    Spells (name.toList ++ ':' :: ' ' :: (t.text.toList ++ text))
      (.name name :: .mark ':' :: (typeLexemes t ++ ls)) :=
  .word hname (.mark rfl (.ignored rfl ((spells_type ht).append h hapart))) (.cons rfl _)

namespace Description

theorem spells_print {indent : String} (hindent : ∀ c ∈ indent.toList, c = ' ')
    (d : Option String) {text : List Char} {ls : List Lexeme} (h : Spells text ls) :
    Spells ((print indent d).toList ++ text) (described (literal? indent d) ++ ls) := by
  cases d with
  | none => exact h
  | some d =>
    rw [print, String.toList_ofList]
    exact .literal hindent d.toList h

/-- With an indentation, a description is apart from what is before it. -/
theorem apart_print (d : Option String) (text : List Char) :
    Apart ((print "  " d).toList ++ ' ' :: text) := by
  cases d with
  | none => exact .cons rfl _
  | some d =>
    rw [print, String.toList_ofList, write]
    split <;> exact .cons rfl _

end Description

theorem InputValue.spells_argument {v : InputValue} (h : v.toArgument.Legible) :
    Spells v.argumentText.toList v.toArgument.lexemes := by
  have htext : v.argumentText.toList =
      v.name.toList ++ ':' :: ' ' :: (v.type.text.toList ++ []) := by
    simp [argumentText, toString]
  have hlexemes : v.toArgument.lexemes =
      .name v.name :: .mark ':' :: (typeLexemes v.type ++ []) := by
    rw [List.append_nil]
    rfl
  rw [htext, hlexemes]
  exact spells_typed h.1 h.2 .nil nofun

namespace Graph

/-- Arguments in parentheses, if there are any. -/
def argumentsText (texts : List String) : String :=
  if texts.isEmpty then "" else "(" ++ ", ".intercalate texts ++ ")"

def implementsText (names : List String) : String :=
  if names.isEmpty then "" else " implements " ++ " & ".intercalate names

def membersText (names : List String) : String :=
  if names.isEmpty then "" else " = " ++ " | ".intercalate names

theorem spells_arguments {vs : List InputValue} (h : ∀ v ∈ vs, v.toArgument.Legible) :
    Spells (argumentsText (vs.map InputValue.argumentText)).toList
      (argumentsLexemes (vs.map InputValue.toArgument)) ∧
    Apart (argumentsText (vs.map InputValue.argumentText)).toList := by
  cases vs with
  | nil => exact ⟨.nil, nofun⟩
  | cons v vs =>
    have htext : (argumentsText ((v :: vs).map InputValue.argumentText)).toList =
        '(' :: ([',', ' '].intercalate ((v :: vs).map fun v => v.argumentText.toList) ++
          [')']) := by
      simp [argumentsText, String.toList_intercalate, Function.comp_def]
    have hlist : Spells ([',', ' '].intercalate ((v :: vs).map fun v => v.argumentText.toList))
        (((v :: vs).map InputValue.toArgument).flatMap Input.lexemes) := by
      rw [List.flatMap_map, List.flatMap_def]
      refine Spells.spaced (by simp [isIgnored]) (by simp) ?_
      rw [List.forall₂_map_left_iff, List.forall₂_map_right_iff, List.forall₂_same]
      exact fun v hv => v.spells_argument (h v hv)
    rw [htext]
    exact ⟨.mark rfl (hlist.append (.mark rfl .nil) (.cons rfl _)), .cons rfl _⟩

theorem spells_implements {names : List String} (h : ∀ name ∈ names, isName name = true) :
    Spells (implementsText names).toList (implementsLexemes names) ∧
      Apart (implementsText names).toList := by
  cases names with
  | nil => exact ⟨.nil, nofun⟩
  | cons name names =>
    have htext : (implementsText (name :: names)).toList =
        ' ' :: ("implements".toList ++
          ' ' :: [' ', '&', ' '].intercalate ((name :: names).map (·.toList))) := by
      simp [implementsText, String.toList_intercalate]
    rw [htext]
    exact ⟨.ignored rfl (.word rfl (.ignored rfl (.separated rfl h)) (.cons rfl _)), .cons rfl _⟩

theorem spells_members {names : List String} (h : ∀ name ∈ names, isName name = true) :
    Spells (membersText names).toList (membersLexemes names) ∧
      Apart (membersText names).toList := by
  cases names with
  | nil => exact ⟨.nil, nofun⟩
  | cons name names =>
    have htext : (membersText (name :: names)).toList =
        ' ' :: '=' :: ' ' :: [' ', '|', ' '].intercalate ((name :: names).map (·.toList)) := by
      simp [membersText, String.toList_intercalate]
    rw [htext]
    exact ⟨.ignored rfl (.mark rfl (.ignored rfl (.separated rfl h))), .cons rfl _⟩

theorem spells_field {f : FieldNode ω} (h : f.toField.Legible) :
    Spells (fieldText f).toList f.toField.lexemes ∧ Apart (fieldText f).toList := by
  obtain ⟨harguments, hapart⟩ := spells_arguments fun v hv =>
    h.arguments v.toArgument (List.mem_map_of_mem hv)
  have htext : (fieldText f).toList = (Description.print "  " f.description).toList ++
      ' ' :: ' ' :: (f.name.toList ++
        ((argumentsText ((Dict.values f.arguments).map InputValue.argumentText)).toList ++
          ':' :: ' ' :: (f.type.text.toList ++ ['\n']))) := by
    simp [fieldText, argumentsText, toString]
  have htype : Spells (':' :: ' ' :: (f.type.text.toList ++ ['\n']))
      (.mark ':' :: (typeLexemes f.type ++ [])) :=
    .mark rfl (.ignored rfl ((spells_type h.type).append (.ignored rfl .nil) (.cons rfl _)))
  rw [List.append_nil] at htype
  rw [htext]
  refine ⟨Description.spells_print (by simp) _ (.ignored rfl (.ignored rfl ?_)),
    Description.apart_print _ _⟩
  exact .word h.name (harguments.append htype (.cons rfl _)) (hapart.append (.cons rfl _))

theorem spells_inputField {v : InputValue} (h : v.toInput.Legible) :
    Spells (inputFieldText v).toList v.toInput.lexemes ∧ Apart (inputFieldText v).toList := by
  have htext : (inputFieldText v).toList = (Description.print "  " v.description).toList ++
      ' ' :: ' ' :: (v.name.toList ++ ':' :: ' ' :: (v.type.text.toList ++ ['\n'])) := by
    simp [inputFieldText, toString]
  have htyped := spells_typed h.1 h.2 (.ignored (c := '\n') rfl .nil) (.cons rfl _)
  rw [List.append_nil] at htyped
  rw [htext]
  exact ⟨Description.spells_print (by simp) _ (.ignored rfl (.ignored rfl htyped)),
    Description.apart_print _ _⟩

/-- Lines between braces. -/
theorem spells_braced {α : Type} {line : α → String} {lexemes : α → List Lexeme} {xs : List α}
    (h : ∀ x ∈ xs, Spells (line x).toList (lexemes x) ∧ Apart (line x).toList) :
    Spells (braced (xs.map line)).toList (bracedLexemes lexemes xs) ∧
      Apart (braced (xs.map line)).toList := by
  have htext : (braced (xs.map line)).toList =
      ' ' :: '{' :: '\n' :: (xs.flatMap (fun x => (line x).toList) ++ ['}']) := by
    simp [braced, String.toList_join, List.flatMap_map]
  have hlines : Spells (xs.flatMap fun x => (line x).toList) (xs.flatMap lexemes) :=
    .flatMap (fun x hx => (h x hx).1) fun x hx => (h x hx).2
  rw [htext]
  exact ⟨.ignored rfl (.mark rfl (.ignored rfl (hlines.append (.mark rfl .nil) (.cons rfl _)))),
    .cons rfl _⟩

theorem spells_fields {fields : Dict (FieldNode ω)}
    (h : ∀ f ∈ (Dict.values fields).map FieldNode.toField, f.Legible) :
    Spells (fieldsText fields).toList
        (bracedLexemes Field.lexemes ((Dict.values fields).map FieldNode.toField)) ∧
      Apart (fieldsText fields).toList := by
  have hbraced := spells_braced fun (f : FieldNode ω) hf =>
    spells_field (h f.toField (List.mem_map_of_mem hf))
  rwa [bracedLexemes, ← List.flatMap_map] at hbraced

theorem spells_node {n : Node ω} (h : n.toDefinition.Legible) :
    ∃ ls, n.toDefinition.lexemes = described (Description.literal? "" n.description) ++ ls ∧
      Spells (nodeText n).toList ls := by
  cases n with
  | scalar n =>
    have htext : (nodeText (.scalar n)).toList = "scalar".toList ++ ' ' :: n.name.toList := by
      simp [nodeText]
    refine ⟨_, rfl, ?_⟩
    rw [htext]
    exact .word rfl (.ignored rfl (.name h)) (.cons rfl _)
  | object n =>
    obtain ⟨hname, himplements, hfields⟩ := h
    obtain ⟨himplements, hapart⟩ := spells_implements himplements
    obtain ⟨hfields, hbrace⟩ := spells_fields hfields
    have htext : (nodeText (.object n)).toList = "type".toList ++ ' ' :: (n.name.toList ++
        ((implementsText n.implements).toList ++ (fieldsText n.fields).toList)) := by
      simp [nodeText, implementsText]
    refine ⟨_, rfl, ?_⟩
    rw [htext]
    exact .word rfl (.ignored rfl (.word hname (himplements.append hfields hbrace)
      (hapart.append hbrace))) (.cons rfl _)
  | interface n =>
    obtain ⟨hname, hfields⟩ := h
    obtain ⟨hfields, hbrace⟩ := spells_fields hfields
    have htext : (nodeText (.interface n)).toList = "interface".toList ++
        ' ' :: (n.name.toList ++ (fieldsText n.fields).toList) := by
      simp [nodeText]
    refine ⟨_, rfl, ?_⟩
    rw [htext]
    exact .word rfl (.ignored rfl (.word hname hfields hbrace)) (.cons rfl _)
  | union n =>
    obtain ⟨hname, hmembers⟩ := h
    obtain ⟨hmembers, hapart⟩ := spells_members hmembers
    have htext : (nodeText (.union n)).toList = "union".toList ++
        ' ' :: (n.name.toList ++ (membersText n.typing.possibleTypes).toList) := by
      simp [nodeText, membersText]
    refine ⟨_, rfl, ?_⟩
    rw [htext]
    exact .word rfl (.ignored rfl (.word hname hmembers hapart)) (.cons rfl _)
  | input n =>
    obtain ⟨hname, hfields⟩ := h
    have hbraced := spells_braced fun (v : InputValue) hv =>
      spells_inputField (hfields v.toInput (List.mem_map_of_mem hv))
    rw [bracedLexemes, ← List.flatMap_map] at hbraced
    have htext : (nodeText (.input n : Node ω)).toList = "input".toList ++ ' ' :: (n.name.toList ++
        (braced ((Dict.values n.fields).map inputFieldText)).toList) := by
      simp [nodeText]
    refine ⟨_, rfl, ?_⟩
    rw [htext]
    exact .word rfl (.ignored rfl (.word hname hbraced.1 hbraced.2)) (.cons rfl _)

theorem spells_block {n : Node ω} (h : n.toDefinition.Legible) :
    Spells (block n).toList n.toDefinition.lexemes := by
  obtain ⟨ls, hlexemes, hspells⟩ := spells_node h
  rw [block, String.toList_append, hlexemes]
  exact Description.spells_print (by simp) _ hspells

/-- One of the root operations. -/
def operationText (o : String × String) : String := "  " ++ o.1 ++ ": " ++ o.2 ++ "\n"

theorem spells_operation {o : String × String} (h : isName o.1 = true ∧ isName o.2 = true) :
    Spells (operationText o).toList (operationLexemes o) ∧ Apart (operationText o).toList := by
  have htext : (operationText o).toList =
      ' ' :: ' ' :: (o.1.toList ++ ':' :: ' ' :: (o.2.toList ++ ['\n'])) := by
    simp [operationText]
  have htype : Spells (o.2.toList ++ ['\n']) [.name o.2] :=
    .word h.2 (.ignored rfl .nil) (.cons rfl _)
  rw [htext]
  exact ⟨.ignored rfl (.ignored rfl (.word h.1 (.mark rfl (.ignored rfl htype)) (.cons rfl _))),
    .cons rfl _⟩

theorem rootBlock_eq (g : Graph ω) : g.rootBlock =
    (g.listedRoots.map fun operations =>
      "schema" ++ braced (operations.map operationText)).toList := by
  unfold rootBlock listedRoots
  split
  · rfl
  · cases g.mutation <;> simp [operationText, braced, toString, String.append_assoc]

theorem spells_rootBlock {g : Graph ω}
    (h : ∀ d ∈ (g.listedRoots.map Definition.schema).toList, d.Legible) :
    List.Forall₂ Spells (g.rootBlock.map (·.toList))
      ((g.listedRoots.map Definition.schema).toList.map Definition.lexemes) := by
  rw [rootBlock_eq]
  cases hroots : g.listedRoots with
  | none => exact .nil
  | some operations =>
    rw [hroots] at h
    have hoperations := h _ List.mem_cons_self
    obtain ⟨hbraced, hapart⟩ := spells_braced fun o ho => spells_operation (hoperations o ho)
    refine .cons ?_ .nil
    show Spells ("schema" ++ braced (operations.map operationText)).toList _
    rw [String.toList_append]
    exact .word rfl hbraced hapart

/-- The text of a graph spells its document. -/
theorem spells_toSdl {g : Graph ω} (h : ∀ d ∈ g.document, d.Legible) :
    Spells g.toSdl.toList (g.document.flatMap Definition.lexemes) := by
  have htext : g.toSdl.toList = ['\n', '\n'].intercalate (g.rootBlock.map (·.toList) ++
      ((Dict.values g.nodes).filter isPrinted).map fun n => (block n).toList) ++ ['\n'] := by
    simp [toSdl, String.toList_intercalate, Function.comp_def]
  have hblocks : List.Forall₂ Spells
      (((Dict.values g.nodes).filter isPrinted).map fun n => (block n).toList)
      (((Dict.values g.nodes).filter isPrinted).map fun n => n.toDefinition.lexemes) := by
    rw [List.forall₂_map_left_iff, List.forall₂_map_right_iff, List.forall₂_same]
    exact fun n hn => spells_block (h _ (List.mem_append_right _ (List.mem_map_of_mem hn)))
  have hall := List.rel_append
    (spells_rootBlock fun d hd => h d (List.mem_append_left _ hd)) hblocks
  have hspells : Spells (['\n', '\n'].intercalate _) _ :=
    .spaced (by simp [isIgnored]) (by simp) hall
  rw [htext, document, List.flatMap_append, List.flatMap_map, List.flatMap_def, List.flatMap_def,
    ← List.flatten_append, ← List.append_nil (List.flatten _)]
  exact hspells.append (.ignored rfl .nil) (.cons rfl _)

/-- A document is read from the text of a graph. -/
theorem read_toSdl {g : Graph ω} (h : ∀ d ∈ g.document, d.Legible) :
    read g.toSdl = some g.document :=
  read_of_spells (spells_toSdl h) h

end Graph

end GraphAssembly
