import GraphAssembly.Graph.Printer
import Mathlib.Data.List.Basic

/-!
# Descriptions as literals

A description is printed as one literal, and the literal is read again, whatever stands behind it.

1. `Literal`: what a reader finds between the quotes.
2. Quoted literals, blocks, and the literal of a description.
3. Descriptions whose literals are equal.
-/

namespace GraphAssembly.Description

/-- The text of a literal, without its quotes and escapes. The text of a block begins behind the
opening quotes and ends before the closing ones. -/
inductive Literal
  | quoted (text : List Char)
  | block (text : List Char)
deriving DecidableEq

/-! ## Reading -/

/-- Puts characters before the text of a literal that is read in part. -/
def before (cs : List Char) : Option (List Char × List Char) → Option (List Char × List Char) :=
  Option.map fun (text, rest) => (cs ++ text, rest)

/-- The text up to the closing quote, and what is behind it. -/
def readQuoted : List Char → Option (List Char × List Char)
  | [] => none
  | '"' :: rest => some ([], rest)
  | '\n' :: _ => none
  | '\\' :: '\\' :: rest => before ['\\'] (readQuoted rest)
  | '\\' :: '"' :: rest => before ['"'] (readQuoted rest)
  | '\\' :: _ => none
  | c :: rest => before [c] (readQuoted rest)

/-- The text up to three closing quotes, and what is behind them. -/
def readBlock : List Char → Option (List Char × List Char)
  | [] => none
  | '"' :: '"' :: '"' :: rest => some ([], rest)
  | '\\' :: '"' :: '"' :: '"' :: rest => before quotes (readBlock rest)
  | c :: rest => before [c] (readBlock rest)

/-- The literal at the start of a text, and what is behind it. -/
def readLiteral : List Char → Option (Literal × List Char)
  | '"' :: '"' :: '"' :: rest => (readBlock rest).map fun (text, rest) => (.block text, rest)
  | '"' :: rest => (readQuoted rest).map fun (text, rest) => (.quoted text, rest)
  | _ => none

theorem before_eq_some {cs text rest : List Char} {read : Option (List Char × List Char)}
    (h : before cs read = some (text, rest)) :
    ∃ text', read = some (text', rest) ∧ text = cs ++ text' := by
  obtain ⟨⟨text', rest'⟩, hread, heq⟩ := Option.map_eq_some_iff.1 h
  cases heq
  exact ⟨text', hread, rfl⟩

theorem length_of_readQuoted {cs text rest : List Char} (h : readQuoted cs = some (text, rest)) :
    rest.length < cs.length := by
  fun_induction readQuoted cs generalizing text with
  | case1 | case3 | case6 => cases h
  | case2 => cases h; simp
  | case4 rest ih | case5 rest ih | case7 c rest _ _ _ _ _ ih =>
    obtain ⟨text', h, -⟩ := before_eq_some h
    have := ih h
    simp only [List.length_cons]
    omega

theorem length_of_readBlock {cs text rest : List Char} (h : readBlock cs = some (text, rest)) :
    rest.length < cs.length := by
  fun_induction readBlock cs generalizing text with
  | case1 => cases h
  | case2 => cases h; simp only [List.length_cons]; omega
  | case3 rest ih | case4 c rest _ _ ih =>
    obtain ⟨text', h, -⟩ := before_eq_some h
    have := ih h
    simp only [List.length_cons]
    omega

theorem length_of_readLiteral {cs rest : List Char} {l : Literal}
    (h : readLiteral cs = some (l, rest)) : rest.length < cs.length := by
  unfold readLiteral at h
  split at h
  · obtain ⟨⟨text, rest'⟩, hread, heq⟩ := Option.map_eq_some_iff.1 h
    cases heq
    have := length_of_readBlock hread
    simp only [List.length_cons]
    omega
  · obtain ⟨⟨text, rest'⟩, hread, heq⟩ := Option.map_eq_some_iff.1 h
    cases heq
    have := length_of_readQuoted hread
    simp only [List.length_cons]
    omega
  · cases h

/-! ## Quoted literals -/

theorem readQuoted_escapeQuoted {text : List Char} (h : '\n' ∉ text) (rest : List Char) :
    readQuoted (escapeQuoted text ++ '"' :: rest) = some (text, rest) := by
  induction text with
  | nil => rfl
  | cons c text ih =>
    obtain ⟨hc, htext⟩ := not_or.1 (List.mem_cons.not.1 h)
    have ih := ih htext
    unfold escapeQuoted
    split
    · subst c
      rw [List.cons_append, List.cons_append, readQuoted, ih]
      rfl
    · split
      · subst c
        rw [List.cons_append, List.cons_append, readQuoted, ih]
        rfl
      · rw [List.cons_append, readQuoted, ih]
        · rfl
        all_goals grind

/-- An escaped text does not begin with a quote. -/
theorem escapeQuoted_ne_quote (text rest : List Char) : escapeQuoted text ≠ '"' :: rest := by
  unfold escapeQuoted
  split
  · nofun
  · split
    · nofun
    · split
      · nofun
      · rintro ⟨⟩
        contradiction

/-! ## Blocks -/

/-- What is escaped begins with a quote only if the text does. -/
theorem eq_quote_of_escapeBlock {text tail rest : List Char}
    (h : escapeBlock text ++ '\n' :: tail = '"' :: rest) :
    ∃ text', text = '"' :: text' ∧ rest = escapeBlock text' ++ '\n' :: tail := by
  unfold escapeBlock at h
  split at h
  · cases h
  · cases h
    exact ⟨_, rfl, rfl⟩
  · cases h

theorem escapeBlock_ne_quotes (text tail rest : List Char) :
    escapeBlock text ++ '\n' :: tail ≠ '"' :: '"' :: '"' :: rest := by
  intro h
  obtain ⟨text₁, rfl, h₁⟩ := eq_quote_of_escapeBlock h
  obtain ⟨text₂, rfl, h₂⟩ := eq_quote_of_escapeBlock h₁.symm
  obtain ⟨text₃, rfl, -⟩ := eq_quote_of_escapeBlock h₂.symm
  cases h

theorem readBlock_escapeBlock (text tail : List Char) :
    readBlock (escapeBlock text ++ '\n' :: tail) = before text (readBlock ('\n' :: tail)) := by
  fun_induction escapeBlock text with
  | case1 rest ih =>
    rw [List.cons_append, List.cons_append, List.cons_append, List.cons_append, readBlock, ih]
    simp [before, Function.comp_def, quotes]
  | case2 c rest hquotes ih =>
    rw [List.cons_append, readBlock, ih]
    · simp [before, Function.comp_def]
    · rintro rest' rfl heq
      obtain ⟨text₁, rfl, h₁⟩ := eq_quote_of_escapeBlock heq
      obtain ⟨text₂, rfl, -⟩ := eq_quote_of_escapeBlock h₁.symm
      exact hquotes _ rfl rfl
    · rintro rest' rfl heq
      exact escapeBlock_ne_quotes _ _ _ heq
  | case3 => simp [before, readBlock, Function.comp_def]

/-- Characters that are neither quotes nor backslashes are read as they are. -/
theorem readBlock_append {cs : List Char} (h : ∀ c ∈ cs, c ≠ '"' ∧ c ≠ '\\') (rest : List Char) :
    readBlock (cs ++ rest) = before cs (readBlock rest) := by
  induction cs with
  | nil => simp [before]
  | cons c cs ih =>
    obtain ⟨⟨hquote, hescape⟩, hcs⟩ := List.forall_mem_cons.1 h
    rw [List.cons_append, readBlock, ih hcs]
    · simp [before, Function.comp_def]
    · exact fun _ hc => absurd hc hquote
    · exact fun _ hc => absurd hc hescape

/-- The text of a block with these lines. -/
def blockText (indent : List Char) (lines : List (List Char)) : List Char :=
  '\n' :: ((lines.flatMap fun l => indent ++ l ++ ['\n']) ++ indent)

theorem readBlock_lines {indent : List Char} (h : ∀ c ∈ indent, c = ' ')
    (lines : List (List Char)) (rest : List Char) :
    readBlock ('\n' :: ((lines.flatMap fun l => indent ++ escapeBlock l ++ ['\n']) ++
      (indent ++ quotes ++ rest))) = some (blockText indent lines, rest) := by
  have hindent : ∀ c ∈ indent, c ≠ '"' ∧ c ≠ '\\' := by
    intro c hc
    rw [h c hc]
    decide
  have hfeed (tail : List Char) : readBlock ('\n' :: tail) = before ['\n'] (readBlock tail) := by
    simp [readBlock]
  rw [hfeed]
  have hlines : readBlock ((lines.flatMap fun l => indent ++ escapeBlock l ++ ['\n']) ++
      (indent ++ quotes ++ rest)) =
        some ((lines.flatMap fun l => indent ++ l ++ ['\n']) ++ indent, rest) := by
    induction lines with
    | nil =>
      rw [List.flatMap_nil, List.nil_append, List.append_assoc, readBlock_append hindent]
      simp [quotes, readBlock, before]
    | cons l lines ih =>
      rw [List.flatMap_cons, List.append_assoc, List.append_assoc, List.append_assoc,
        readBlock_append hindent, List.singleton_append, readBlock_escapeBlock, hfeed, ih]
      simp [before]
  rw [hlines]
  rfl

/-! ## Descriptions -/

/-- The literal of a description. -/
def literal (indent text : List Char) : Literal :=
  if '\n' ∈ text then .block (blockText indent (lines [] text)) else .quoted text

/-- A description is printed as one literal on lines of its own. -/
theorem exists_literal {indent : List Char} (h : ∀ c ∈ indent, c = ' ') (text : List Char) :
    ∃ cs, write indent text = indent ++ ('"' :: cs ++ ['\n']) ∧ ∀ rest,
      readLiteral ('"' :: (cs ++ '\n' :: rest)) = some (literal indent text, '\n' :: rest) := by
  unfold write literal
  split
  · refine ⟨'"' :: '"' :: '\n' :: ((lines [] text).flatMap (fun l => indent ++ escapeBlock l ++
      ['\n'])) ++ indent ++ quotes, by simp [quotes], fun rest => ?_⟩
    have hread := readBlock_lines h (lines [] text) ('\n' :: rest)
    simp only [List.append_assoc, List.cons_append] at hread ⊢
    rw [readLiteral, hread]
    rfl
  · rename_i hline
    refine ⟨escapeQuoted text ++ ['"'], by simp, fun rest => ?_⟩
    have hread := readQuoted_escapeQuoted hline ('\n' :: rest)
    rw [List.append_assoc, List.singleton_append, readLiteral, hread]
    · rfl
    · intro rest' heq
      rcases List.append_eq_cons_iff.1 heq with ⟨-, heq⟩ | ⟨rest₁, heq, -⟩
      · cases heq
      · exact escapeQuoted_ne_quote _ _ heq

/-! ## Equal literals -/

/-- Two descriptions count as the same when both are absent, both are one line and equal, or both
are several lines and these are equal. -/
inductive Same : Option String → Option String → Prop
  | absent : Same none none
  | line {d : String} (h : '\n' ∉ d.toList) : Same (some d) (some d)
  | lines {d d' : String} (h : '\n' ∈ d.toList) (h' : '\n' ∈ d'.toList)
    (hlines : lines [] d.toList = lines [] d'.toList) : Same (some d) (some d')

theorem feed_notMem_of_mem_lines {text : List Char} {reversed : List Char}
    (h : '\n' ∉ reversed) : ∀ l ∈ lines reversed text, '\n' ∉ l := by
  fun_induction lines reversed text with
  | case1 => nofun
  | case2 reversed =>
    intro l hl
    rw [List.mem_singleton.1 hl]
    simpa using h
  | case3 reversed rest line ih =>
    intro l hl
    rcases List.mem_cons.1 hl with rfl | hl
    · subst line
      split <;> simp_all
    · exact ih (by simp) l hl
  | case4 reversed c rest hc ih =>
    refine ih fun hmem => ?_
    rcases List.mem_cons.1 hmem with rfl | hmem
    · exact hc rfl
    · exact h hmem

theorem eq_of_append_feed {l l' rest rest' : List Char} (hl : '\n' ∉ l) (hl' : '\n' ∉ l')
    (h : l ++ '\n' :: rest = l' ++ '\n' :: rest') : l = l' ∧ rest = rest' := by
  rcases List.append_eq_append_iff.1 h with ⟨more, rfl, hmore⟩ | ⟨more, rfl, hmore⟩
  all_goals
    cases more with
    | nil => simpa [eq_comm] using hmore
    | cons c more =>
      obtain ⟨rfl, -⟩ := List.cons.inj hmore
      simp at hl hl'

theorem blockText_inj {indent : List Char} {ls ls' : List (List Char)}
    (hls : ∀ l ∈ ls, '\n' ∉ l) (hls' : ∀ l ∈ ls', '\n' ∉ l)
    (h : blockText indent ls = blockText indent ls') : ls = ls' := by
  replace h := List.append_cancel_right (List.cons.inj h).2
  induction ls generalizing ls' with
  | nil =>
    cases ls' with
    | nil => rfl
    | cons l' ls' => simp at h
  | cons l ls ih =>
    cases ls' with
    | nil => simp at h
    | cons l' ls' =>
      obtain ⟨hl, hrest⟩ := List.forall_mem_cons.1 hls
      obtain ⟨hl', hrest'⟩ := List.forall_mem_cons.1 hls'
      rw [List.flatMap_cons, List.flatMap_cons, List.append_assoc, List.append_assoc,
        List.append_assoc, List.append_assoc, List.append_cancel_left_eq] at h
      obtain ⟨rfl, htail⟩ := eq_of_append_feed hl hl' h
      rw [ih hrest hrest' htail]

theorem Same.of_literal {indent : List Char} {d d' : String}
    (h : literal indent d.toList = literal indent d'.toList) : Same (some d) (some d') := by
  unfold literal at h
  split at h <;> split at h
  · refine .lines ‹_› ‹_› (blockText_inj ?_ ?_ (Literal.block.inj h)) <;>
      exact feed_notMem_of_mem_lines List.not_mem_nil
  · cases h
  · cases h
  · obtain rfl := String.toList_injective (Literal.quoted.inj h)
    exact .line ‹_›

end GraphAssembly.Description
