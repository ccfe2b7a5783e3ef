import GraphAssembly.Proofs.Printing.Literals

/-!
# Where a printed description ends

A description stands in front of the text that it describes, so its literal must not end before its
last quotes, and must not go on behind them. Where a literal ends is found by a scan that knows the
escapes and nothing else.

1. Scans of quoted literals and of blocks, and what their text is without its escapes.
2. A reader finds what a scan finds.
3. `print_selfContained`: a printed description is one literal.
-/

namespace GraphAssembly.Description

/-! ## Scans -/

/-- The text up to the first quote that is not escaped, and what is behind it. A backslash escapes
whatever comes next. -/
def scanQuoted : List Char → Option (List Char × List Char)
  | [] => none
  | '"' :: rest => some ([], rest)
  | '\\' :: c :: rest => before ['\\', c] (scanQuoted rest)
  | c :: rest => before [c] (scanQuoted rest)

/-- The text up to the first three quotes that are not escaped, and what is behind them. A backslash
escapes three quotes and nothing else. -/
def scanBlock : List Char → Option (List Char × List Char)
  | [] => none
  | '"' :: '"' :: '"' :: rest => some ([], rest)
  | '\\' :: '"' :: '"' :: '"' :: rest => before ('\\' :: quotes) (scanBlock rest)
  | c :: rest => before [c] (scanBlock rest)

/-- A text without its escapes, if there are no others than those of quotes and backslashes. -/
def unescapeQuoted : List Char → Option (List Char)
  | [] => some []
  | '\\' :: '\\' :: rest => (unescapeQuoted rest).map ('\\' :: ·)
  | '\\' :: '"' :: rest => (unescapeQuoted rest).map ('"' :: ·)
  | '\\' :: _ => none
  | c :: rest => (unescapeQuoted rest).map (c :: ·)

def unescapeBlock : List Char → List Char
  | '\\' :: '"' :: '"' :: '"' :: rest => quotes ++ unescapeBlock rest
  | c :: rest => c :: unescapeBlock rest
  | [] => []

/-! ## Reading and scanning -/

/-- A reader finds the text that a scan finds, without its escapes and in one line. -/
theorem scanQuoted_of_readQuoted {cs text rest : List Char}
    (h : readQuoted cs = some (text, rest)) :
    ∃ body, cs = body ++ '"' :: rest ∧ scanQuoted cs = some (body, rest) ∧
      unescapeQuoted body = some text ∧ '\n' ∉ body := by
  fun_induction readQuoted cs generalizing text with
  | case1 | case3 | case6 => cases h
  | case2 =>
    cases h
    exact ⟨[], rfl, rfl, rfl, List.not_mem_nil⟩
  | case4 cs ih =>
    obtain ⟨text', hread, rfl⟩ := before_eq_some h
    obtain ⟨body, rfl, hscan, hunescape, hline⟩ := ih hread
    refine ⟨'\\' :: '\\' :: body, rfl, ?_, ?_, by simpa using hline⟩
    · rw [scanQuoted, hscan]
      rfl
    · rw [unescapeQuoted, hunescape]
      rfl
  | case5 cs ih =>
    obtain ⟨text', hread, rfl⟩ := before_eq_some h
    obtain ⟨body, rfl, hscan, hunescape, hline⟩ := ih hread
    refine ⟨'\\' :: '"' :: body, rfl, ?_, ?_, by simpa using hline⟩
    · rw [scanQuoted, hscan]
      rfl
    · rw [unescapeQuoted, hunescape]
      rfl
  | case7 c cs hquote hfeed _ _ hescape ih =>
    obtain ⟨text', hread, rfl⟩ := before_eq_some h
    obtain ⟨body, rfl, hscan, hunescape, hline⟩ := ih hread
    refine ⟨c :: body, rfl, ?_, ?_, ?_⟩
    · rw [scanQuoted, hscan]
      · rfl
      all_goals grind
    · rw [unescapeQuoted, hunescape]
      · rfl
      all_goals grind
    · grind

/-- A reader finds the end of a block where a scan finds it. -/
theorem scanBlock_of_readBlock {cs text rest : List Char} (h : readBlock cs = some (text, rest)) :
    ∃ body, cs = body ++ quotes ++ rest ∧ scanBlock cs = some (body, rest) := by
  fun_induction readBlock cs generalizing text with
  | case1 => cases h
  | case2 =>
    cases h
    exact ⟨[], rfl, rfl⟩
  | case3 cs ih =>
    obtain ⟨text', hread, -⟩ := before_eq_some h
    obtain ⟨body, rfl, hscan⟩ := ih hread
    refine ⟨'\\' :: quotes ++ body, rfl, ?_⟩
    rw [scanBlock, hscan]
    rfl
  | case4 c cs hquotes hescape ih =>
    obtain ⟨text', hread, -⟩ := before_eq_some h
    obtain ⟨body, rfl, hscan⟩ := ih hread
    refine ⟨c :: body, rfl, ?_⟩
    rw [scanBlock, hscan]
    · rfl
    · exact hquotes
    · exact hescape

/-- Three quotes stand behind the backslash that escapes them, so no backslash of the text is taken
for an escape. -/
theorem unescapeBlock_escapeBlock (text : List Char) : unescapeBlock (escapeBlock text) = text := by
  fun_induction escapeBlock text with
  | case1 rest ih =>
    rw [unescapeBlock, ih]
    rfl
  | case2 c rest hquotes ih =>
    rw [unescapeBlock, ih]
    rintro rest' rfl heq
    refine escapeBlock_ne_quotes rest [] (rest' ++ ['\n']) ?_
    rw [heq]
    rfl
  | case3 => rfl

theorem feed_notMem_escapeBlock {text : List Char} (h : '\n' ∉ text) : '\n' ∉ escapeBlock text := by
  fun_induction escapeBlock text with
  | case1 rest ih => simp_all
  | case2 c rest hquotes ih => simp_all
  | case3 => exact h

/-! ## Printed descriptions -/

/-- A line of a printed text. -/
def line (indent text : List Char) : List Char := indent ++ text ++ ['\n']

/-- Between quotes, the body is the text, and a scan from the opening quote does not leave it. -/
structure InQuotes (text body : List Char) : Prop where
  oneLine : '\n' ∉ body
  /-- The opening quote does not open a block. -/
  quoted : ¬ quotes <+: '"' :: (body ++ ['"', '\n'])
  ends : ∀ rest, scanQuoted (body ++ '"' :: rest) = some (body, rest)
  unescaped : unescapeQuoted body = some text

/-- Between lines of three quotes, the contents are the lines, and a scan from the opening quotes
ends with the last one. -/
structure InBlock (indent : List Char) (lines contents : List (List Char)) : Prop where
  oneLine : ∀ c ∈ contents, '\n' ∉ c
  ends : ∀ rest, scanBlock ('\n' :: contents.flatMap (line indent) ++ indent ++ quotes ++ rest) =
    some ('\n' :: contents.flatMap (line indent) ++ indent, rest)
  unescaped : contents.map unescapeBlock = lines

/-- A quote at the beginning would have been escaped. -/
theorem not_quotes_prefix (text : List Char) :
    ¬ quotes <+: '"' :: (escapeQuoted text ++ ['"', '\n']) := by
  rintro ⟨rest, h⟩
  have h : escapeQuoted text ++ ['"', '\n'] = '"' :: '"' :: rest := (List.cons.inj h).2.symm
  rcases List.append_eq_cons_iff.1 h with ⟨-, h⟩ | ⟨rest', h, -⟩
  · simp at h
  · exact escapeQuoted_ne_quote text rest' h

theorem inQuotes {text : List Char} (h : '\n' ∉ text) : InQuotes text (escapeQuoted text) := by
  have hbody (rest : List Char) : scanQuoted (escapeQuoted text ++ '"' :: rest) =
      some (escapeQuoted text, rest) ∧ unescapeQuoted (escapeQuoted text) = some text ∧
      '\n' ∉ escapeQuoted text := by
    obtain ⟨body, hcs, hscan, hunescape, hline⟩ :=
      scanQuoted_of_readQuoted (readQuoted_escapeQuoted h rest)
    -- what is left behind the quote tells what the scan has passed
    obtain rfl := List.append_cancel_right hcs
    exact ⟨hscan, hunescape, hline⟩
  obtain ⟨-, hunescape, hline⟩ := hbody []
  exact ⟨hline, not_quotes_prefix text, fun rest => (hbody rest).1, hunescape⟩

theorem scanBlock_lines {indent : List Char} (h : ∀ c ∈ indent, c = ' ') (ls : List (List Char))
    (rest : List Char) :
    scanBlock ('\n' :: (ls.map escapeBlock).flatMap (line indent) ++ indent ++ quotes ++ rest) =
      some ('\n' :: (ls.map escapeBlock).flatMap (line indent) ++ indent, rest) := by
  obtain ⟨body, hcs, hscan⟩ := scanBlock_of_readBlock (readBlock_lines h ls rest)
  have hlines : ls.flatMap (fun l => indent ++ escapeBlock l ++ ['\n']) =
      (ls.map escapeBlock).flatMap (line indent) := by
    rw [List.flatMap_map]
    rfl
  rw [hlines] at hcs hscan
  have happend : '\n' :: (ls.map escapeBlock).flatMap (line indent) ++ indent ++ (quotes ++ rest) =
      body ++ (quotes ++ rest) := by
    simpa using hcs
  have hbody := List.append_cancel_right happend
  rw [← hbody] at hscan
  simpa using hscan

theorem inBlock {indent : List Char} (h : ∀ c ∈ indent, c = ' ') (text : List Char) :
    InBlock indent (lines [] text) ((lines [] text).map escapeBlock) where
  oneLine := by
    intro c hc
    obtain ⟨l, hl, rfl⟩ := List.mem_map.1 hc
    exact feed_notMem_escapeBlock (feed_notMem_of_mem_lines List.not_mem_nil l hl)
  ends := scanBlock_lines h _
  unescaped := by
    rw [List.map_map]
    exact List.map_id'' unescapeBlock_escapeBlock _

/-- A description with any indentation is printed as one literal, whatever it contains: on one line
between quotes, or line by line between lines of three quotes. -/
theorem print_selfContained (n : Nat) (d : String) :
    let indent := List.replicate n ' '
    let printed := (print (String.ofList indent) (some d)).toList
    ('\n' ∉ d.toList → ∃ body, InQuotes d.toList body ∧
      printed = line indent ('"' :: body ++ ['"'])) ∧
    ('\n' ∈ d.toList → ∃ contents, InBlock indent (lines [] d.toList) contents ∧
      printed = (quotes :: contents ++ [quotes]).flatMap (line indent)) := by
  intro indent printed
  have hprinted : printed = write indent d.toList := by
    simp [printed, print]
  rw [hprinted]
  refine ⟨fun hline => ⟨_, inQuotes hline, ?_⟩, fun hlines => ⟨_, inBlock ?_ d.toList, ?_⟩⟩
  · simp [write, hline, line]
  · exact fun c hc => List.eq_of_mem_replicate hc
  · simp [write, hlines, line, List.flatMap_map]

end GraphAssembly.Description
