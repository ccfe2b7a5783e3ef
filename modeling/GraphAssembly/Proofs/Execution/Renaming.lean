import GraphAssembly.Proofs.Execution.Conformance

/-!
# Renamed response keys

A map on strings renames the response keys of a request: each selected field gets the image of its
key as its alias. In a response it renames the keys of the objects that were completed, and the keys
in the paths of errors; what the codec of a custom scalar has given stays as it is.

1. Renamed selections, and the fields that they select on an object.
2. Renamed paths, errors, events and runs.
3. Renamed values, as they stand at the positions of a layout.
-/

namespace GraphAssembly

variable {ω : Type} {r : String → String}

/-! ## Selections -/

mutual

/-- The same selection, with the image of each response key as an alias. -/
def Selection.rename (r : String → String) : Selection → Selection
  | .field name alias? arguments selections =>
    .field name (some (r (alias?.getD name))) arguments (renameAll r selections)
  | .fragment condition selections => .fragment condition (renameAll r selections)

def Selection.renameAll (r : String → String) : List Selection → List Selection
  | [] => []
  | s :: rest => s.rename r :: renameAll r rest

end

def SelectedField.rename (r : String → String) (f : SelectedField) : SelectedField :=
  { f with alias? := some (r f.responseKey), selections := Selection.renameAll r f.selections }

@[simp] theorem SelectedField.responseKey_rename (f : SelectedField) :
    (f.rename r).responseKey = r f.responseKey := rfl

namespace Selection

mutual

theorem fieldsOf_rename (applies : String → Bool) (s : Selection) :
    fieldsOf applies (s.rename r) = (fieldsOf applies s).map (SelectedField.rename r) := by
  cases s with
  | field name alias? arguments selections => rfl
  | fragment condition selections =>
    simp only [rename, fieldsOf]
    split
    · exact fieldsOfAll_renameAll applies selections
    · rfl

theorem fieldsOfAll_renameAll (applies : String → Bool) (selections : List Selection) :
    fieldsOfAll applies (renameAll r selections) =
      (fieldsOfAll applies selections).map (SelectedField.rename r) := by
  cases selections with
  | nil => rfl
  | cons s rest =>
    rw [renameAll, fieldsOfAll, fieldsOfAll, List.map_append, fieldsOf_rename,
      fieldsOfAll_renameAll]

end

theorem renameAll_append (xs ys : List Selection) :
    renameAll r (xs ++ ys) = renameAll r xs ++ renameAll r ys := by
  induction xs with
  | nil => rfl
  | cons s xs ih => rw [List.cons_append, renameAll, renameAll, ih, List.cons_append]

theorem nested_map_rename (fields : List SelectedField) :
    nested (fields.map (SelectedField.rename r)) = renameAll r (nested fields) := by
  induction fields with
  | nil => rfl
  | cons f fields ih =>
    rw [nested] at ih ⊢
    rw [List.map_cons, List.flatMap_cons, ih, nested, nested, List.flatMap_cons, renameAll_append]
    rfl

end Selection

theorem Graph.selectedOn_renameAll (g : Graph ω) (o : ObjectNode ω) (selections : List Selection) :
    g.selectedOn o (Selection.renameAll r selections) =
      (g.selectedOn o selections).map (SelectedField.rename r) :=
  Selection.fieldsOfAll_renameAll _ selections

section Injective

variable (hr : Function.Injective r)

include hr

theorem firstOccurrences_map (names : List String) :
    firstOccurrences (names.map r) = (firstOccurrences names).map r := by
  suffices h : ∀ kept : List String,
      (names.map r).foldl (fun kept n => if n ∈ kept then kept else kept ++ [n]) (kept.map r) =
        (names.foldl (fun kept n => if n ∈ kept then kept else kept ++ [n]) kept).map r from h []
  induction names with
  | nil => exact fun _ => rfl
  | cons n names ih =>
    intro kept
    rw [List.map_cons, List.foldl_cons, List.foldl_cons]
    by_cases hn : n ∈ kept
    · rw [if_pos hn, if_pos (List.mem_map_of_mem hn)]
      exact ih kept
    · rw [if_neg hn, if_neg fun h => hn ((List.mem_map_of_injective hr).1 h)]
      simpa using ih (kept ++ [n])

/-- The fields under the image of a key are the images of the fields under the key. -/
theorem filter_map_rename (fields : List SelectedField) (key : String) :
    (fields.map (SelectedField.rename r)).filter (·.responseKey = r key) =
      (fields.filter (·.responseKey = key)).map (SelectedField.rename r) := by
  rw [List.filter_map]
  refine congrArg _ (List.filter_congr fun f _ => ?_)
  simp [hr.eq_iff]

/-- The response keys of the renamed selections. -/
theorem Graph.keys_renameAll (g : Graph ω) (o : ObjectNode ω) (selections : List Selection) :
    firstOccurrences ((g.selectedOn o (Selection.renameAll r selections)).map (·.responseKey)) =
      (firstOccurrences ((g.selectedOn o selections).map (·.responseKey))).map r := by
  rw [selectedOn_renameAll, ← firstOccurrences_map hr, List.map_map, List.map_map]
  rfl

end Injective

/-! ## Paths, errors and events -/

def PathElement.rename (r : String → String) : PathElement → PathElement
  | .index i => .index i
  | .key k => .key (r k)

/-- The path with its keys renamed. -/
def Path.rename (r : String → String) (p : Path) : Path := p.map (PathElement.rename r)

theorem Path.rename_join (p : Path) (e : PathElement) :
    (p.join e).rename r = (p.rename r).join (e.rename r) := List.map_append

def Located.rename (r : String → String) (l : Located) : Located :=
  { l with path := l.path.rename r }

def Event.rename (r : String → String) : Event → Event
  | .resolved p outcome => .resolved (p.rename r) outcome
  | .completed p value => .completed (p.rename r) value
  | .typed p objectType => .typed (p.rename r) objectType
  | .serialized p value => .serialized (p.rename r) value

def Report.rename (r : String → String) (e : Report) : Report :=
  { e with path := e.path.map (Path.rename r) }

/-- The run of a request whose response keys are renamed. -/
def Run.rename (r : String → String) (s : Run ω) : Run ω where
  world := s.world
  errors := s.errors.map (Located.rename r)
  journal := s.journal.map (Event.rename r)

/-! ## Values -/

namespace Layout

variable (L : Layout ω)

/-- The object at a position, if one is completed there. -/
def object? (p : Path) : Option (ObjectNode ω) :=
  match L.slot? p with
  | some (.typed t _) =>
    match t.bare with
    | .named name => L.objectAt? p name
    | _ => none
  | _ => none

mutual

/-- The value at a position, with the keys of all completed objects in it renamed. -/
def rename (r : String → String) (p : Path) : Json → Json
  | .arr items => .arr (renameItems r p 0 items)
  | .obj entries =>
    if (L.object? p).isSome then .obj (renameEntries r p entries) else .obj entries
  | v => v

/-- The items of a list, the first of which is at the index. -/
def renameItems (r : String → String) (p : Path) (i : Nat) : List Json → List Json
  | [] => []
  | v :: rest => rename r (p.join (.index i)) v :: renameItems r p (i + 1) rest

def renameEntries (r : String → String) (p : Path) : List (String × Json) → List (String × Json)
  | [] => []
  | (key, v) :: rest => (r key, rename r (p.join (.key key)) v) :: renameEntries r p rest

end

variable {L} {p : Path}

theorem isNull_rename (v : Json) : (L.rename r p v).isNull = v.isNull := by
  cases v with
  | obj entries =>
    rw [rename]
    split <;> rfl
  | _ => rfl

theorem renameItems_eq (i : Nat) (items : List Json) :
    L.renameItems r p i items = items.mapIdx fun j v => L.rename r (p.join (.index (i + j))) v := by
  induction items generalizing i with
  | nil => rfl
  | cons v items ih =>
    rw [renameItems, ih, List.mapIdx_cons]
    simp only [Nat.add_zero, Nat.add_assoc, Nat.add_comm 1]

theorem rename_arr (items : List Json) :
    L.rename r p (.arr items) =
      .arr (items.mapIdx fun i v => L.rename r (p.join (.index i)) v) := by
  rw [rename, renameItems_eq]
  simp only [Nat.zero_add]

theorem rename_obj (h : (L.object? p).isSome = true) (entries : Dict Json) :
    L.rename r p (.obj entries) =
      .obj (entries.map fun x => (r x.1, L.rename r (p.join (.key x.1)) x.2)) := by
  rw [rename, if_pos h]
  refine congrArg Json.obj ?_
  induction entries with
  | nil => rfl
  | cons x entries ih => rw [renameEntries, ih, List.map_cons]

mutual

/-- Where no object is completed, nothing is renamed. -/
theorem rename_eq_self {p : Path} (h : ∀ q, L.object? (p ++ q) = none) (v : Json) :
    L.rename r p v = v := by
  cases v with
  | arr items => rw [rename, renameItems_eq_self h 0 items]
  | obj entries =>
    have hp := h []
    rw [List.append_nil] at hp
    rw [rename, hp]
    rfl
  | _ => rfl

theorem renameItems_eq_self {p : Path} (h : ∀ q, L.object? (p ++ q) = none) (i : Nat)
    (items : List Json) : L.renameItems r p i items = items := by
  cases items with
  | nil => rfl
  | cons v items =>
    have hitem : ∀ q, L.object? (p.join (.index i) ++ q) = none := fun q => by
      have := h (.index i :: q)
      rwa [List.append_cons] at this
    rw [renameItems, rename_eq_self hitem v, renameItems_eq_self h (i + 1) items]

end

section Typed

variable {t : TypeRef} {selections : List Selection}

theorem object?_of_slot (h : L.slot? p = some (.typed t selections)) {name : String}
    (ht : t.bare = .named name) : L.object? p = L.objectAt? p name := by
  simp only [object?, h, ht]

/-- A value that is no list and no object is a leaf, whatever a codec has put into it. -/
theorem rename_leaf (h : L.slot? p = some (.typed t selections)) (ht : t.bare.isSingle = true)
    (hobject : ∀ name, t.bare = .named name → L.objectAt? p name = none) (v : Json) :
    L.rename r p v = v := by
  refine rename_eq_self (fun q => ?_) v
  by_cases hq : q = []
  · rw [hq, List.append_nil]
    unfold object?
    rw [h]
    dsimp only
    split
    · rename_i name hname
      exact hobject name hname
    · rfl
  · rw [object?, slot?_below_leaf (slot?_join_leaf h ht hobject) hq]

end Typed

/-- A response with the keys of its objects and of the paths of its errors renamed. -/
def renameResponse (L : Layout ω) (r : String → String) (response : Response) : Response where
  data := response.data.map (L.rename r [])
  errors := response.errors.map (Report.rename r)

end Layout

end GraphAssembly
