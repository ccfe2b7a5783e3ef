import GraphAssembly.Blueprint
import GraphAssembly.Execution.Collection

/-!
# The collected fields in order

Collecting fields amounts to listing all fields that are selected, those of applicable fragments in
the place of the fragment, and sorting them by response key. The keys stand in the order in which
they first occur, and under each key stand the fields of that key.
-/

namespace GraphAssembly

namespace Selection

mutual

/-- The fields of a selection in the order in which they are selected. -/
def fieldsOf (applies : String → Bool) : Selection → List SelectedField
  | .field name alias? arguments selections => [{ name, alias?, arguments, selections }]
  | .fragment condition selections =>
    if applies condition then fieldsOfAll applies selections else []

def fieldsOfAll (applies : String → Bool) : List Selection → List SelectedField
  | [] => []
  | s :: rest => fieldsOf applies s ++ fieldsOfAll applies rest

end

/-- Adds fields under their response keys. -/
def pushAll (groups : Groups) (fields : List SelectedField) : Groups :=
  fields.foldl (fun groups f => Dict.push groups f.responseKey f) groups

mutual

theorem collectInto_eq_pushAll (applies : String → Bool) (groups : Groups) (s : Selection) :
    collectInto applies groups s = pushAll groups (fieldsOf applies s) := by
  cases s with
  | field name alias? arguments selections => rfl
  | fragment condition selections =>
    simp only [collectInto, fieldsOf]
    split
    · exact collectAllInto_eq_pushAll applies groups selections
    · rfl

theorem collectAllInto_eq_pushAll (applies : String → Bool) (groups : Groups)
    (selections : List Selection) :
    collectAllInto applies groups selections = pushAll groups (fieldsOfAll applies selections) := by
  cases selections with
  | nil => rfl
  | cons s rest =>
    rw [collectAllInto, collectInto_eq_pushAll, collectAllInto_eq_pushAll, fieldsOfAll, pushAll,
      pushAll, pushAll, List.foldl_append]

end

theorem distinct_pushAll {groups : Groups} (h : Dict.Distinct groups)
    (fields : List SelectedField) : Dict.Distinct (pushAll groups fields) := by
  induction fields generalizing groups with
  | nil => exact h
  | cons f rest ih => exact ih (Dict.distinct_insert h _ _)

theorem get?_pushAll (groups : Groups) (fields : List SelectedField) (key : String) :
    (Dict.get? (pushAll groups fields) key).getD [] =
      (Dict.get? groups key).getD [] ++ fields.filter (·.responseKey = key) := by
  induction fields generalizing groups with
  | nil => simp [pushAll]
  | cons f rest ih =>
    rw [pushAll, List.foldl_cons, ← pushAll, ih, Dict.push, Dict.get?_insert]
    by_cases hf : f.responseKey = key
    · simp [hf]
    · simp [hf]

theorem keys_pushAll (groups : Groups) (fields : List SelectedField) :
    Dict.keys (pushAll groups fields) = (fields.map (·.responseKey)).foldl
      (fun kept n => if n ∈ kept then kept else kept ++ [n]) (Dict.keys groups) := by
  induction fields generalizing groups with
  | nil => rfl
  | cons f rest ih =>
    rw [pushAll, List.foldl_cons, ← pushAll, ih, Dict.push, Dict.keys_insert]
    rfl

variable (applies : String → Bool) (selections : List Selection)

theorem distinct_collect : Dict.Distinct (collect applies selections) := by
  rw [collect, collectAllInto_eq_pushAll]
  exact distinct_pushAll Dict.distinct_nil _

/-- The response keys, each where it first occurs. -/
theorem keys_collect : Dict.keys (collect applies selections) =
    firstOccurrences ((fieldsOfAll applies selections).map (·.responseKey)) := by
  rw [collect, collectAllInto_eq_pushAll, keys_pushAll]
  rfl

variable {applies selections}

/-- The fields under a key, in the order in which they are selected. -/
theorem fields_of_mem_collect {key : String} {fields : List SelectedField}
    (h : (key, fields) ∈ collect applies selections) :
    fields = (fieldsOfAll applies selections).filter (·.responseKey = key) := by
  have hget := Dict.get?_of_mem (distinct_collect applies selections) h
  have := get?_pushAll [] (fieldsOfAll applies selections) key
  rw [← collectAllInto_eq_pushAll, ← collect, hget] at this
  simpa [Dict.get?] using this

/-- There is no key without a field. -/
theorem ne_nil_of_mem_collect {key : String} {fields : List SelectedField}
    (h : (key, fields) ∈ collect applies selections) : fields ≠ [] := by
  have hkey : key ∈ Dict.keys (collect applies selections) := List.mem_map_of_mem (f := Prod.fst) h
  rw [keys_collect, mem_firstOccurrences] at hkey
  obtain ⟨f, hf, hk⟩ := List.mem_map.1 hkey
  rw [fields_of_mem_collect h]
  exact List.ne_nil_of_mem (List.mem_filter.2 ⟨hf, by simpa using hk⟩)

/-- Each key has a group, of which one field is the first. -/
theorem exists_group {key : String}
    (h : key ∈ firstOccurrences ((fieldsOfAll applies selections).map (·.responseKey))) :
    ∃ f rest, (key, f :: rest) ∈ collect applies selections ∧
      (fieldsOfAll applies selections).filter (·.responseKey = key) = f :: rest := by
  rw [← keys_collect] at h
  obtain ⟨⟨_, fields⟩, hmem, rfl⟩ := List.mem_map.1 h
  obtain ⟨f, rest, rfl⟩ := List.exists_cons_of_ne_nil (ne_nil_of_mem_collect hmem)
  exact ⟨f, rest, hmem, (fields_of_mem_collect hmem).symm⟩

end Selection

end GraphAssembly
