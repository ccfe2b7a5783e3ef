import GraphAssembly.Selection

/-!
# Selections in JSON

What is written of a selection reads back as the selection, however deep it is. A field leaves out
what it does not have, so a member that is missing must read as what it is left out for. All of this
is about JSON values; a parser of JSON text may stop at a depth of its own.

1. The members of a field and of a fragment, one by one. Those that may be left out are read in
   both forms.
2. Selections and lists of selections.
-/

namespace GraphAssembly.Selection

/-! ## Members -/

section Members

variable (d : FieldDraft) (rest : List (String × Json))

theorem fieldMembers_name (name : String) :
    fieldMembers d (("name", .str name) :: rest) =
      fieldMembers { d with name := some name } rest := by
  rw [fieldMembers]
  rfl

theorem fieldMembers_alias (hd : d.alias? = none) (alias? : Option String) :
    fieldMembers d ((match alias? with
      | some a => [("alias", .str a)]
      | none => []) ++ rest) = fieldMembers { d with alias? } rest := by
  cases alias? with
  | none =>
    rw [show { d with alias? := none } = d by rw [← hd]]
    rfl
  | some a =>
    rw [List.cons_append, fieldMembers]
    rfl

theorem fieldMembers_arguments (hd : d.arguments = []) (arguments : Dict Json) :
    fieldMembers d ((if arguments.isEmpty then [] else [("arguments", .obj arguments)]) ++ rest) =
      fieldMembers { d with arguments } rest := by
  cases arguments with
  | nil =>
    rw [show { d with arguments := [] } = d by rw [← hd]]
    rfl
  | cons a arguments =>
    rw [List.isEmpty_cons, if_neg Bool.false_ne_true, List.cons_append, fieldMembers]
    simp only [readArguments, Json.readDict_ok]
    rfl

/-- The selections of a field are its last member. -/
theorem fieldMembers_selections (hd : d.selections = []) {selections : List Selection}
    (h : ofJsonAll (toJsonAll selections) = .ok selections) :
    fieldMembers d (if selections.isEmpty then []
      else [("selectionSet", .arr (toJsonAll selections))]) = .ok { d with selections } := by
  cases selections with
  | nil =>
    rw [show { d with selections := [] } = d by rw [← hd]]
    rfl
  | cons s selections =>
    rw [List.isEmpty_cons, if_neg Bool.false_ne_true, fieldMembers]
    simp only [listOfJson, h]
    rfl

theorem fragmentMembers_typeCondition (d : FragmentDraft) (typeCondition : String) :
    fragmentMembers d (("type_condition", .str typeCondition) :: rest) =
      fragmentMembers { d with typeCondition := some typeCondition } rest := by
  rw [fragmentMembers]
  rfl

theorem fragmentMembers_selections (d : FragmentDraft) {selections : List Selection}
    (h : ofJsonAll (toJsonAll selections) = .ok selections) :
    fragmentMembers d (("selection_set", .arr (toJsonAll selections)) :: rest) =
      fragmentMembers { d with selections := some selections } rest := by
  rw [fragmentMembers]
  simp only [listOfJson, h]
  rfl

end Members

/-! ## Selections -/

mutual

theorem ofJson_toJson : (s : Selection) → ofJson s.toJson = .ok s
  | .field name alias? arguments selections => by
    have hselections := ofJsonAll_toJsonAll selections
    change (fieldOfJson (.obj (_ ++ _ ++ _ ++ _))).map SelectedField.toSelection = _
    rw [fieldOfJson, List.append_assoc, List.append_assoc, List.singleton_append,
      fieldMembers_name]
    have hmembers := (fieldMembers_alias { name := some name } _ rfl alias?).trans <|
      (fieldMembers_arguments _ _ rfl arguments).trans (fieldMembers_selections _ rfl hselections)
    exact congrArg (fun d => (d >>= FieldDraft.finish).map SelectedField.toSelection) hmembers
  | .fragment typeCondition selections => by
    have hselections := ofJsonAll_toJsonAll selections
    change fragmentOfJson (.obj _) = _
    rw [fragmentOfJson, fragmentMembers_typeCondition, fragmentMembers_selections _ _ hselections]
    rfl

theorem ofJsonAll_toJsonAll : (ss : List Selection) → ofJsonAll (toJsonAll ss) = .ok ss
  | [] => rfl
  | s :: ss => by
    rw [toJsonAll, ofJsonAll, ofJson_toJson s, ofJsonAll_toJsonAll ss]
    rfl

end

/-- Lists of selections read back in their order, with their arguments in their order. -/
theorem listOfJson_written (ss : List Selection) : listOfJson (.arr (toJsonAll ss)) = .ok ss := by
  rw [listOfJson]
  exact ofJsonAll_toJsonAll ss

end GraphAssembly.Selection
