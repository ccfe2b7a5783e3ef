import GraphAssembly.Text.Case
import GraphAssembly.Text.Letters

/-!
# Words of an identifier

An identifier is cut into words at every character that is no letter or digit, between a small
letter and a capital, and before the last of several capitals when a small letter follows it.
-/

namespace GraphAssembly.Text

/-- The case of the last letter of the word being read; digits keep the case before them. -/
inductive WordCase where
  | none
  | lower
  | upper
deriving DecidableEq

/-- The words of a run of letters and digits, the current one in reverse. -/
def caseWords (reversed : List Char) (case : WordCase) : List Char → List (List Char)
  | [] => if reversed.isEmpty then [] else [reversed.reverse]
  | [c] => [(c :: reversed).reverse]
  | c :: d :: rest =>
    let after := if isLower c then .lower else if isUpper c then .upper else case
    if after = .lower ∧ isUpper d then
      (c :: reversed).reverse :: caseWords [] .none (d :: rest)
    else if case = .upper ∧ isUpper c ∧ isLower d then
      reversed.reverse :: caseWords [c] .none (d :: rest)
    else caseWords (c :: reversed) after (d :: rest)

/-- The maximal runs of letters and digits, the current one in reverse. -/
def wordRuns (reversed : List Char) : List Char → List (List Char)
  | [] => [reversed.reverse]
  | c :: rest =>
    if isWordChar c then wordRuns (c :: reversed) rest
    else reversed.reverse :: wordRuns [] rest

def words (s : String) : List (List Char) :=
  (wordRuns [] s.toList).flatMap (caseWords [] .none)

/-- The words in capitals with underscores between them. -/
def shout (s : String) : String :=
  "_".intercalate ((words s).map fun w => String.ofList (w.flatMap capital))

/-- What follows the last `::`, all of the text when there is none. -/
def afterLastColons (cs : List Char) : List Char :=
  let rec go : List Char → List Char → List Char
    | acc, ':' :: ':' :: _ => acc
    | acc, c :: rest => go (c :: acc) rest
    | acc, [] => acc
  go [] cs.reverse

end GraphAssembly.Text
