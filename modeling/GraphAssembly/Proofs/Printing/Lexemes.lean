import GraphAssembly.Proofs.Printing.Literals

/-!
# Lexemes of schema definitions

A text in the schema definition language is cut into lexemes: names, literals and punctuation.
Between them, blanks and commas are ignored.

1. `lex`: the lexemes of a text.
2. `Spells`: pieces of a text whose lexemes do not depend on what is around them.
-/

namespace GraphAssembly.Sdl

open Description (Literal readLiteral)

inductive Lexeme
  | name (name : String)
  | literal (l : Literal)
  | mark (c : Char)
  | stop
deriving DecidableEq

/-! ## Cutting a text -/

def isIgnored (c : Char) : Bool := c ∈ [' ', '\t', '\n', '\r', ',']

def isMark (c : Char) : Bool := c ∈ ['{', '}', '(', ')', '[', ']', ':', '!', '=', '&', '|']

def isNameStart (c : Char) : Bool := c.isAlpha || c = '_'

def isNameChar (c : Char) : Bool := c.isAlphanum || c = '_'

theorem isNameChar_of_isNameStart {c : Char} (h : isNameStart c = true) :
    isNameChar c = true := by
  simp only [isNameStart, isNameChar, Char.isAlphanum, Bool.or_eq_true, decide_eq_true_eq] at h ⊢
  tauto

theorem isNameChar_of_isIgnored {c : Char} (h : isIgnored c = true) : isNameChar c = false := by
  simp only [isIgnored, List.mem_cons, List.not_mem_nil, or_false, decide_eq_true_eq] at h
  rcases h with rfl | rfl | rfl | rfl | rfl <;> rfl

/-- A mark is neither ignored nor part of a name. -/
theorem of_isMark {c : Char} (h : isMark c = true) :
    isIgnored c = false ∧ isNameChar c = false := by
  simp only [isMark, List.mem_cons, List.not_mem_nil, or_false, decide_eq_true_eq] at h
  rcases h with rfl | rfl | rfl | rfl | rfl | rfl | rfl | rfl | rfl | rfl | rfl <;> exact ⟨rfl, rfl⟩

/-- A name begins with a letter or an underscore and goes on with these and digits. -/
def isName (name : String) : Bool :=
  match name.toList with
  | [] => false
  | c :: rest => isNameStart c && rest.all isNameChar

/-- The lexemes of a text, the end of the text being one, or nothing if it has others than those
in which graphs are printed. -/
def lex (text : List Char) : Option (List Lexeme) :=
  match text with
  | [] => some [.stop]
  | c :: rest =>
    if isIgnored c then lex rest
    else if isMark c then (lex rest).map (.mark c :: ·)
    else if isNameStart c then
      (lex (rest.dropWhile isNameChar)).map
        (.name (String.ofList (c :: rest.takeWhile isNameChar)) :: ·)
    else match _hread : readLiteral (c :: rest) with
      | some (l, rest) => (lex rest).map (.literal l :: ·)
      | none => none
termination_by text.length
decreasing_by
  · exact Nat.lt_succ_self _
  · exact Nat.lt_succ_self _
  · exact Nat.lt_succ_of_le (List.dropWhile_sublist _).length_le
  · exact Description.length_of_readLiteral _hread

theorem lex_nil : lex [] = some [.stop] := by rw [lex]

theorem lex_ignored {c : Char} (h : isIgnored c = true) (rest : List Char) :
    lex (c :: rest) = lex rest := by
  rw [lex, if_pos h]

theorem lex_blanks {cs : List Char} (h : ∀ c ∈ cs, c = ' ') (rest : List Char) :
    lex (cs ++ rest) = lex rest := by
  induction cs with
  | nil => rfl
  | cons c cs ih =>
    obtain ⟨rfl, hcs⟩ := List.forall_mem_cons.1 h
    rw [List.cons_append, lex_ignored rfl, ih hcs]

theorem lex_mark {c : Char} (h : isMark c = true) (rest : List Char) :
    lex (c :: rest) = (lex rest).map (.mark c :: ·) := by
  rw [lex, if_neg (by simp [of_isMark h]), if_pos h]

theorem lex_literal {cs rest : List Char} {l : Literal}
    (h : readLiteral ('"' :: cs) = some (l, rest)) :
    lex ('"' :: cs) = (lex rest).map (.literal l :: ·) := by
  rw [lex, if_neg (by decide), if_neg (by decide), if_neg (by decide)]
  split
  · rename_i h'
    cases h.symm.trans h'
    rfl
  · rename_i h'
    cases h.symm.trans h'

/-! ## Names -/

/-- The text does not go on with a character of a name. -/
def Apart (text : List Char) : Prop := ∀ c ∈ text.head?, isNameChar c = false

theorem Apart.cons {c : Char} (h : isNameChar c = false) (rest : List Char) :
    Apart (c :: rest) := by
  rintro _ ⟨⟩
  exact h

theorem Apart.append {text rest : List Char} (h : Apart text) (hrest : Apart rest) :
    Apart (text ++ rest) := by
  cases text with
  | nil => exact hrest
  | cons c text => exact .cons (h c rfl) _

theorem lex_name {name : String} (h : isName name = true) {rest : List Char} (hrest : Apart rest) :
    lex (name.toList ++ rest) = (lex rest).map (.name name :: ·) := by
  unfold isName at h
  split at h
  · cases h
  · rename_i c cs hname
    obtain ⟨hc, hcs⟩ := Bool.and_eq_true_iff.1 h
    have hchar := isNameChar_of_isNameStart hc
    have hignored : ¬ isIgnored c = true := fun hignored => by
      simp [isNameChar_of_isIgnored hignored] at hchar
    have hmark : ¬ isMark c = true := fun hmark => by
      simp [of_isMark hmark] at hchar
    have hcs : ∀ c ∈ cs, isNameChar c = true := List.all_eq_true.1 hcs
    have htake : rest.takeWhile isNameChar = [] := by
      cases rest with
      | nil => rfl
      | cons c rest => rw [List.takeWhile_cons, hrest c rfl]; rfl
    have hdrop : rest.dropWhile isNameChar = rest := by
      cases rest with
      | nil => rfl
      | cons c rest => rw [List.dropWhile_cons, hrest c rfl]; rfl
    rw [hname, List.cons_append, lex, if_neg hignored, if_neg hmark, if_pos hc,
      List.takeWhile_append_of_pos hcs, List.dropWhile_append_of_pos hcs, htake, hdrop,
      List.append_nil, ← hname, String.ofList_toList]

/-! ## Pieces of a text -/

/-- The text has these lexemes, wherever it stands before something that is not part of a name. -/
def Spells (text : List Char) (ls : List Lexeme) : Prop :=
  ∀ rest, Apart rest → lex (text ++ rest) = (lex rest).map (ls ++ ·)

namespace Spells

variable {text text' : List Char} {ls ls' : List Lexeme}

theorem nil : Spells [] [] := fun rest _ => by
  rw [List.nil_append]
  exact Option.map_id'.symm

theorem append (h : Spells text ls) (h' : Spells text' ls') (hapart : Apart text') :
    Spells (text ++ text') (ls ++ ls') := by
  intro rest hrest
  rw [List.append_assoc, h _ (hapart.append hrest), h' _ hrest, Option.map_map]
  simp [Function.comp_def]

theorem ignored {c : Char} (hc : isIgnored c = true) (h : Spells text ls) :
    Spells (c :: text) ls := by
  intro rest hrest
  rw [List.cons_append, lex_ignored hc, h _ hrest]

theorem mark {c : Char} (hc : isMark c = true) (h : Spells text ls) :
    Spells (c :: text) (.mark c :: ls) := by
  intro rest hrest
  rw [List.cons_append, lex_mark hc, h _ hrest, Option.map_map]
  rfl

theorem name {name : String} (h : isName name = true) : Spells name.toList [.name name] :=
  fun _ hrest => lex_name h hrest

theorem literal {indent : List Char} (hindent : ∀ c ∈ indent, c = ' ') (d : List Char)
    (h : Spells text ls) :
    Spells (Description.write indent d ++ text)
      (.literal (Description.literal indent d) :: ls) := by
  intro rest hrest
  obtain ⟨cs, hwrite, hread⟩ := Description.exists_literal hindent d
  rw [hwrite, List.append_assoc, List.append_assoc, List.append_assoc, lex_blanks hindent,
    List.cons_append, List.singleton_append, lex_literal (hread _), lex_ignored rfl, h _ hrest,
    Option.map_map]
  rfl

/-- The whole text, when nothing comes after it. -/
theorem lex_eq (h : Spells text ls) : lex text = some (ls ++ [.stop]) := by
  have := h [] nofun
  rwa [List.append_nil, lex_nil] at this

end Spells

end GraphAssembly.Sdl
