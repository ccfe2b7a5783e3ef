import GraphAssembly.Selection

/-!
# Collected fields

The fields selected on an object, grouped by response key in the order in which the keys first
occur. The selections of an inline fragment count in its place if it applies to the object.

The fields of one group are selected further down together; what they select is less than what was
selected here (`sizeAll_lt_of_mem_collect`), so an execution that follows the groups ends.
-/

namespace GraphAssembly

/-- Fields under their response key. -/
abbrev Groups := Dict (List SelectedField)

namespace Selection

mutual

/-- Adds one selection; `applies` says which type conditions the object meets. -/
def collectInto (applies : String → Bool) (groups : Groups) : Selection → Groups
  | .field name alias? arguments selections =>
    let f : SelectedField := { name, alias?, arguments, selections }
    Dict.push groups f.responseKey f
  | .fragment condition selections =>
    if applies condition then collectAllInto applies groups selections else groups

def collectAllInto (applies : String → Bool) (groups : Groups) : List Selection → Groups
  | [] => groups
  | s :: rest => collectAllInto applies (collectInto applies groups s) rest

end

def collect (applies : String → Bool) (selections : List Selection) : Groups :=
  collectAllInto applies [] selections

/-- What the fields of a group select further down, in order. -/
def nested (fields : List SelectedField) : List Selection := fields.flatMap (·.selections)

/-! ## Size -/

/-- The size of fields, each counted with what it selects. -/
def weight : List SelectedField → Nat
  | [] => 0
  | f :: rest => sizeAll f.selections + 1 + weight rest

def totalWeight : Groups → Nat
  | [] => 0
  | (_, fields) :: rest => weight fields + totalWeight rest

theorem weight_append (xs ys : List SelectedField) : weight (xs ++ ys) = weight xs + weight ys := by
  induction xs with
  | nil => simp [weight]
  | cons f rest ih => simp [weight, ih]; omega

theorem sizeAll_append (xs ys : List Selection) : sizeAll (xs ++ ys) = sizeAll xs + sizeAll ys := by
  induction xs with
  | nil => simp [sizeAll]
  | cons s rest ih => simp [sizeAll, ih]; omega

theorem sizeAll_nested_le (fields : List SelectedField) :
    sizeAll (nested fields) ≤ weight fields := by
  induction fields with
  | nil => simp [nested, sizeAll]
  | cons f rest ih =>
    simp only [nested, List.flatMap_cons, sizeAll_append, weight] at ih ⊢
    omega

theorem sizeAll_nested_cons_lt (f : SelectedField) (rest : List SelectedField) :
    sizeAll (nested (f :: rest)) < weight (f :: rest) := by
  have := sizeAll_nested_le rest
  simp only [nested, List.flatMap_cons, sizeAll_append, weight] at this ⊢
  omega

theorem totalWeight_push (groups : Groups) (key : String) (f : SelectedField) :
    totalWeight (Dict.push groups key f) = totalWeight groups + (sizeAll f.selections + 1) := by
  unfold Dict.push
  induction groups with
  | nil => simp [Dict.insert, Dict.get?, totalWeight, weight]
  | cons pair rest ih =>
    obtain ⟨k, fields⟩ := pair
    by_cases hk : k = key
    · simp [Dict.insert, Dict.get?, hk, totalWeight, weight_append, weight]
      omega
    · simp only [Dict.insert, Dict.get?, hk, if_false, totalWeight] at ih ⊢
      rw [ih]
      omega

mutual

theorem totalWeight_collectInto_le (applies : String → Bool) (groups : Groups) (s : Selection) :
    totalWeight (collectInto applies groups s) ≤ totalWeight groups + size s := by
  cases s with
  | field name alias? arguments selections =>
    simp only [collectInto, totalWeight_push, size]
    omega
  | fragment condition selections =>
    simp only [collectInto, size]
    split
    · have := totalWeight_collectAllInto_le applies groups selections
      omega
    · omega

theorem totalWeight_collectAllInto_le (applies : String → Bool) (groups : Groups)
    (selections : List Selection) :
    totalWeight (collectAllInto applies groups selections)
      ≤ totalWeight groups + sizeAll selections := by
  cases selections with
  | nil => simp [collectAllInto, sizeAll]
  | cons s rest =>
    have h₁ := totalWeight_collectInto_le applies groups s
    have h₂ := totalWeight_collectAllInto_le applies (collectInto applies groups s) rest
    simp only [collectAllInto, sizeAll]
    omega

end

theorem weight_le_totalWeight {groups : Groups} {group : String × List SelectedField}
    (h : group ∈ groups) : weight group.2 ≤ totalWeight groups := by
  induction groups with
  | nil => simp at h
  | cons pair rest ih =>
    obtain ⟨k, fields⟩ := pair
    rcases List.mem_cons.1 h with h | h
    · subst h
      simp [totalWeight]
    · have := ih h
      simp only [totalWeight]
      omega

/-- The fields of a group select less than what they were collected from. -/
theorem sizeAll_lt_of_mem_collect {applies : String → Bool} {selections : List Selection}
    {key : String} {f : SelectedField} {rest : List SelectedField}
    (h : (key, f :: rest) ∈ collect applies selections) :
    sizeAll (nested (f :: rest)) < sizeAll selections := by
  have h₁ := sizeAll_nested_cons_lt f rest
  have h₂ := weight_le_totalWeight h
  have h₃ := totalWeight_collectAllInto_le applies [] selections
  simp only [totalWeight, Nat.zero_add] at h₃
  exact Nat.lt_of_lt_of_le h₁ (Nat.le_trans h₂ h₃)

end Selection

end GraphAssembly
