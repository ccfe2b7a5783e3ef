/-!
# Dictionaries in insertion order

A dictionary is a list of pairs. Its order is the order in which keys were first inserted, so two
dictionaries that answer the same look-ups can still differ in what a reader sees.
-/

namespace GraphAssembly

/-- Pairs of a key and a value, the earliest key first. -/
abbrev Dict (α : Type) := List (String × α)

namespace Dict

variable {α β : Type}

/-- The value of the first pair with this key. -/
def get? : Dict α → String → Option α
  | [], _ => none
  | (k, v) :: rest, key => if k = key then some v else get? rest key

/-- Whether some pair has this key. -/
def contains (d : Dict α) (key : String) : Bool := (get? d key).isSome

def keys (d : Dict α) : List String := d.map Prod.fst

def values (d : Dict α) : List α := d.map Prod.snd

/-- No key occurs twice. -/
def Distinct (d : Dict α) : Prop := (keys d).Nodup

theorem distinct_nil : Distinct ([] : Dict α) := List.nodup_nil

/-- A key already present keeps its place and takes the new value; a new key goes last. -/
def insert : Dict α → String → α → Dict α
  | [], key, value => [(key, value)]
  | (k, v) :: rest, key, value =>
    if k = key then (k, value) :: rest else (k, v) :: insert rest key value

/-- The dictionary that results from inserting the pairs one after the other. -/
def ofList (pairs : List (String × α)) : Dict α :=
  pairs.foldl (fun d pair => insert d pair.1 pair.2) []

def mapValues (f : α → β) (d : Dict α) : Dict β := d.map fun pair => (pair.1, f pair.2)

/-- Adds `value` to the list kept under `key`. -/
def push (d : Dict (List α)) (key : String) (value : α) : Dict (List α) :=
  insert d key ((get? d key).getD [] ++ [value])

/-! ## Look-up -/

theorem contains_eq_true_iff {d : Dict α} {key : String} :
    contains d key = true ↔ key ∈ keys d := by
  induction d with
  | nil => simp [contains, get?, keys]
  | cons pair rest ih =>
    obtain ⟨k, v⟩ := pair
    by_cases hk : k = key
    · simp [contains, get?, keys, hk]
    · have hk' : ¬ key = k := fun h => hk h.symm
      simpa [contains, get?, keys, hk, hk'] using ih

@[simp] theorem contains_eq_false_iff {d : Dict α} {key : String} :
    contains d key = false ↔ key ∉ keys d := by
  rw [← contains_eq_true_iff, Bool.not_eq_true]

theorem get?_eq_none_iff {d : Dict α} {key : String} : get? d key = none ↔ key ∉ keys d := by
  rw [← contains_eq_false_iff, contains, Option.isSome_eq_false_iff, Option.isNone_iff_eq_none]

theorem exists_get?_of_mem_keys {d : Dict α} {key : String} (h : key ∈ keys d) :
    ∃ value, get? d key = some value := by
  rw [← contains_eq_true_iff] at h
  exact Option.isSome_iff_exists.1 h

theorem mem_keys_of_mem {d : Dict α} {key : String} {value : α} (h : (key, value) ∈ d) :
    key ∈ keys d :=
  List.mem_map_of_mem (f := Prod.fst) h

theorem mem_of_get? {d : Dict α} {key : String} {value : α} (h : get? d key = some value) :
    (key, value) ∈ d := by
  induction d with
  | nil => simp [get?] at h
  | cons pair rest ih =>
    obtain ⟨k, v⟩ := pair
    by_cases hk : k = key
    · simp only [get?, hk, if_true, Option.some.injEq] at h
      simp [hk, h]
    · simp only [get?, hk, if_false] at h
      exact List.mem_cons_of_mem _ (ih h)

theorem get?_of_mem {d : Dict α} (hd : Distinct d) {key : String} {value : α}
    (h : (key, value) ∈ d) : get? d key = some value := by
  induction d with
  | nil => simp at h
  | cons pair rest ih =>
    obtain ⟨k, v⟩ := pair
    obtain ⟨hk, hrest⟩ := List.nodup_cons.1 hd
    rcases List.mem_cons.1 h with h | h
    · simp only [Prod.mk.injEq] at h
      simp [get?, h.1, h.2]
    · have hne : k ≠ key := fun e => hk (List.mem_map.2 ⟨(key, value), h, e.symm⟩)
      simpa [get?, hne] using ih hrest h

/-- Dictionaries with the same keys are the same if they have the same values. -/
theorem eq_of_keys {d d' : Dict α} (hkeys : keys d = keys d') (hd : Distinct d)
    (h : ∀ key v v', (key, v) ∈ d → (key, v') ∈ d' → v = v') : d = d' := by
  induction d generalizing d' with
  | nil => exact (List.map_eq_nil_iff.1 hkeys.symm).symm
  | cons entry d ih =>
    cases d' with
    | nil => cases hkeys
    | cons entry' d' =>
      obtain ⟨key, v⟩ := entry
      obtain ⟨key', v'⟩ := entry'
      obtain ⟨rfl, hrest⟩ := List.cons.inj hkeys
      obtain rfl := h key v v' List.mem_cons_self List.mem_cons_self
      congr 1
      refine ih hrest (List.nodup_cons.1 hd).2 fun k w w' hw hw' => ?_
      exact h k w w' (List.mem_cons_of_mem _ hw) (List.mem_cons_of_mem _ hw')

theorem distinct_append_single {d : Dict α} (h : Distinct d) {key : String} (hk : key ∉ keys d)
    (value : α) : Distinct (d ++ [(key, value)]) := by
  unfold Distinct at h ⊢
  simp only [keys, List.map_append, List.map_cons, List.map_nil] at h hk ⊢
  refine List.nodup_append.2 ⟨h, by simp, fun a ha b hb hab => hk ?_⟩
  rw [List.mem_singleton.1 hb] at hab
  exact hab ▸ ha

theorem get?_mapValues (f : α → β) (d : Dict α) (key : String) :
    get? (mapValues f d) key = (get? d key).map f := by
  induction d with
  | nil => rfl
  | cons pair rest ih =>
    rw [mapValues, List.map_cons, get?, get?]
    split
    · rfl
    · exact ih

/-! ## Look-up after an insertion -/

theorem get?_insert (d : Dict α) (key other : String) (value : α) :
    get? (insert d key value) other = if key = other then some value else get? d other := by
  induction d with
  | nil => simp [insert, get?]
  | cons pair rest ih =>
    obtain ⟨k, v⟩ := pair
    by_cases hk : k = key
    · subst hk
      by_cases ho : k = other <;> simp [insert, get?, ho]
    · by_cases ho : k = other
      · subst ho
        simp [insert, get?, hk, Ne.symm hk]
      · simp [insert, get?, hk, ho, ih]

theorem keys_insert (d : Dict α) (key : String) (value : α) :
    keys (insert d key value) = if key ∈ keys d then keys d else keys d ++ [key] := by
  induction d with
  | nil => simp [insert, keys]
  | cons pair rest ih =>
    obtain ⟨k, v⟩ := pair
    by_cases hk : k = key
    · simp [insert, keys, hk]
    · have hk' : ¬ key = k := fun h => hk h.symm
      simp only [keys, List.map_cons, insert, hk, if_false, List.mem_cons, hk', false_or] at ih ⊢
      rw [ih]
      split <;> rename_i h <;> simp [h]

theorem distinct_insert {d : Dict α} (h : Distinct d) (key : String) (value : α) :
    Distinct (insert d key value) := by
  unfold Distinct
  rw [keys_insert]
  split
  · exact h
  · rename_i hk
    simpa [Distinct, keys] using distinct_append_single h hk value

theorem distinct_ofList (pairs : List (String × α)) : Distinct (ofList pairs) := by
  suffices h : ∀ d : Dict α, Distinct d →
      Distinct (pairs.foldl (fun d pair => insert d pair.1 pair.2) d) from h [] distinct_nil
  induction pairs with
  | nil => exact fun _ h => h
  | cons pair rest ih => exact fun d h => ih _ (distinct_insert h _ _)

/-- A later pair takes the place of an earlier one with the same key. -/
theorem get?_ofList_append (pairs later : List (String × α)) (key : String) :
    get? (ofList (pairs ++ later)) key =
      (get? (ofList later) key).or (get? (ofList pairs) key) := by
  suffices h : ∀ d : Dict α, get? (later.foldl (fun d pair => insert d pair.1 pair.2) d) key =
      (get? (ofList later) key).or (get? d key) by
    rw [ofList, List.foldl_append]
    exact h _
  induction later with
  | nil => exact fun _ => rfl
  | cons pair later ih =>
    intro d
    rw [ofList, List.foldl_cons, List.foldl_cons, ih, ih (insert [] pair.1 pair.2), get?_insert,
      get?_insert, Option.or_assoc]
    split <;> rfl

theorem get?_ofList_cons (pair : String × α) (rest : List (String × α)) (key : String) :
    get? (ofList (pair :: rest)) key =
      (get? (ofList rest) key).or (if pair.1 = key then some pair.2 else none) :=
  get?_ofList_append [pair] rest key

theorem get?_ofList_eq_none_iff {pairs : List (String × α)} {key : String} :
    get? (ofList pairs) key = none ↔ key ∉ keys pairs := by
  induction pairs with
  | nil => simp [ofList, get?, keys]
  | cons pair rest ih =>
    rw [get?_ofList_cons, Option.or_eq_none_iff, ih]
    by_cases h : pair.1 = key
    · simp [keys, h]
    · simp [keys, h, Ne.symm h]

/-- The value of a key is that of the last pair which has it. -/
theorem get?_ofList_eq_some_iff {pairs : List (String × α)} {key : String} {value : α} :
    get? (ofList pairs) key = some value ↔
      ∃ before after, pairs = before ++ (key, value) :: after ∧ key ∉ keys after := by
  constructor
  · intro h
    induction pairs with
    | nil => cases h
    | cons pair rest ih =>
      rw [get?_ofList_cons] at h
      cases hrest : get? (ofList rest) key with
      | some v =>
        rw [hrest] at h
        obtain ⟨before, after, rfl, hafter⟩ := ih (hrest.trans h)
        exact ⟨pair :: before, after, rfl, hafter⟩
      | none =>
        rw [hrest, Option.none_or] at h
        obtain ⟨rfl, hv⟩ := Option.ite_none_right_eq_some.1 h
        obtain rfl := Option.some.inj hv
        exact ⟨[], rest, rfl, get?_ofList_eq_none_iff.1 hrest⟩
  · rintro ⟨before, after, rfl, hafter⟩
    rw [get?_ofList_append, get?_ofList_cons, get?_ofList_eq_none_iff.2 hafter, if_pos rfl]
    rfl

end Dict

end GraphAssembly
