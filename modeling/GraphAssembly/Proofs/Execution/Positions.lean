import GraphAssembly.Proofs.Execution.Branches

/-!
# The positions of a response

A path leads to a position of a response if the schema and the selections of the request have
something there. Which fields there are below a value of an abstract type depends on the object
type that was found for it, so the positions of a response are those of a run.

1. `Json.at?`: the value met when walking along a path.
2. `Assembled`: values put together from those at positions next to each other.
3. `Slot` and `Layout`: what a position is.
4. Nullable positions, and the nearest one above or at a position (`IsAnchor`).
-/

namespace GraphAssembly

/-! ## Values at a path -/

namespace Json

def step? : Json → PathElement → Option Json
  | .obj entries, .key k => Dict.get? entries k
  | .arr items, .index i => items[i]?
  | _, _ => none

/-- The value met at the end of the path. -/
def at? (v : Json) (p : Path) : Option Json := p.foldlM step? v

@[simp] theorem at?_nil (v : Json) : v.at? [] = some v := rfl

theorem at?_cons (v : Json) (e : PathElement) (p : Path) :
    v.at? (e :: p) = (v.step? e).bind (·.at? p) := rfl

end Json

/-! ## Values put together -/

/-- One step from the value leads to the values of the branches and nowhere else. -/
def Assembled (bs : List Branch) (v : Json) : Prop :=
  ∀ e w, v.step? e = some w ↔ ∃ b ∈ bs, b.element = e ∧ b.outcome = some w

@[simp] theorem gather_nil : Executor.gather [] = some [] := rfl

@[simp] theorem gather_none_cons (outs : List Outcome) :
    Executor.gather (none :: outs) = none := by
  simp [Executor.gather, List.mapM_cons]

@[simp] theorem gather_some_cons (v : Json) (outs : List Outcome) :
    Executor.gather (some v :: outs) = (Executor.gather outs).map (v :: ·) := by
  rw [Executor.gather, Executor.gather, List.mapM_cons]
  cases outs.mapM id <;> rfl

theorem gather_eq_some_iff {outs : List Outcome} {vs : List Json} :
    Executor.gather outs = some vs ↔ outs = vs.map some := by
  induction outs generalizing vs with
  | nil => cases vs <;> simp
  | cons out outs ih =>
    cases out with
    | none => cases vs <;> simp
    | some v =>
      rw [gather_some_cons, Option.map_eq_some_iff]
      simp only [ih]
      cases vs with
      | nil => simp
      | cons w vs =>
        simp only [List.cons.injEq, List.map_cons, Option.some.injEq]
        exact ⟨fun ⟨_, h, hv, hvs⟩ => ⟨hv, hvs ▸ h⟩, fun ⟨hv, h⟩ => ⟨vs, h, hv, rfl⟩⟩

theorem gather_eq_none_iff {outs : List Outcome} : Executor.gather outs = none ↔ none ∈ outs := by
  induction outs with
  | nil => simp
  | cons out outs ih => cases out <;> simp [ih]

theorem assembled_arr {bs : List Branch} {vs : List Json}
    (hel : bs.map Branch.element = (List.range vs.length).map .index)
    (hout : bs.map Branch.outcome = vs.map some) : Assembled bs (.arr vs) := by
  have hat : ∀ (i : Nat) b, bs[i]? = some b → b.element = .index i ∧ vs[i]? = b.outcome := by
    intro i b hb
    have hi := congrArg (·[i]?) hel
    have hv := congrArg (·[i]?) hout
    simp only [List.getElem?_map, hb, Option.map_some] at hi hv
    obtain ⟨j, hj, hel⟩ := Option.map_eq_some_iff.1 hi.symm
    obtain ⟨w, hw, hout⟩ := Option.map_eq_some_iff.1 hv.symm
    obtain ⟨_, rfl⟩ := List.getElem?_eq_some_iff.1 hj
    rw [List.getElem_range] at hel
    exact ⟨hel.symm, hw.trans hout⟩
  intro e w
  constructor
  · intro h
    cases e with
    | key k => cases h
    | index i =>
      have hlen : bs.length = vs.length := by simpa using congrArg List.length hout
      obtain ⟨hi, _⟩ := List.getElem?_eq_some_iff.1 (show vs[i]? = some w from h)
      obtain ⟨hel, hw⟩ := hat i bs[i] (List.getElem?_eq_getElem (hlen ▸ hi))
      exact ⟨bs[i], List.getElem_mem _, hel, hw.symm.trans h⟩
  · rintro ⟨b, hb, he, hw⟩
    obtain ⟨i, hi⟩ := List.getElem?_of_mem hb
    obtain ⟨hel, hv⟩ := hat i b hi
    obtain rfl : e = .index i := he.symm.trans hel
    exact hv.trans hw

theorem assembled_items {bs : List Branch} {n : Nat} {vs : List Json}
    (hel : bs.map Branch.element = (List.range n).map .index)
    (hout : bs.map Branch.outcome = vs.map some) : Assembled bs (.arr vs) := by
  refine assembled_arr (hel.trans ?_) hout
  have hn := congrArg List.length hel
  have hvs := congrArg List.length hout
  simp only [List.length_map, List.length_range] at hn hvs
  rw [← hn, hvs]

theorem get?_zip_iff {bs : List Branch} {keys : List String} {vs : List Json}
    (hkeys : keys.Nodup) (hel : bs.map Branch.element = keys.map .key)
    (hout : bs.map Branch.outcome = vs.map some) (k : String) (w : Json) :
    Dict.get? (keys.zip vs) k = some w ↔ ∃ b ∈ bs, b.element = .key k ∧ b.outcome = some w := by
  induction bs generalizing keys vs with
  | nil =>
    obtain rfl : keys = [] := by simpa using hel.symm
    simp [Dict.get?]
  | cons b bs ih =>
    obtain ⟨key, keys, rfl⟩ : ∃ key rest, keys = key :: rest :=
      List.exists_cons_of_ne_nil (by rintro rfl; simp at hel)
    obtain ⟨v, vs, rfl⟩ : ∃ v rest, vs = v :: rest :=
      List.exists_cons_of_ne_nil (by rintro rfl; simp at hout)
    simp only [List.map_cons, List.cons.injEq] at hel hout
    obtain ⟨hkey, hrest⟩ := List.nodup_cons.1 hkeys
    rw [List.zip_cons_cons, Dict.get?, List.exists_mem_cons_iff]
    by_cases hk : key = k
    · have absent : ¬ ∃ b ∈ bs, b.element = .key k ∧ b.outcome = some w := by
        rintro ⟨b', hb', he, _⟩
        have : PathElement.key k ∈ keys.map .key := by
          rw [← hel.2, ← he]
          exact List.mem_map_of_mem hb'
        refine hkey ?_
        rw [hk]
        simpa using this
      simp [hk, hel.1, hout.1, absent]
    · simp [hk, hel.1, ih hrest hel.2 hout.2]

theorem assembled_obj {bs : List Branch} {keys : List String} {vs : List Json}
    (hkeys : keys.Nodup) (hel : bs.map Branch.element = keys.map .key)
    (hout : bs.map Branch.outcome = vs.map some) : Assembled bs (.obj (keys.zip vs)) := by
  intro e w
  cases e with
  | key k => exact get?_zip_iff hkeys hel hout k w
  | index i =>
    constructor
    · intro h
      cases h
    · rintro ⟨b, hb, he, _⟩
      have : PathElement.index i ∈ keys.map .key := by
        rw [← hel, ← he]
        exact List.mem_map_of_mem hb
      simp at this

/-! ## Slots -/

/-- The type under all marks that it may not be null. -/
def TypeRef.bare : TypeRef → TypeRef
  | .nonNull inner => inner.bare
  | t => t

theorem TypeRef.bare_of_isSingle {t : TypeRef} (ht : t.isSingle = true) : t.bare = t := by
  cases t with
  | nonNull => cases ht
  | _ => rfl

theorem TypeRef.bare_unmarked (t : TypeRef) : t.unmarked.bare = t.bare := by
  cases t <;> rfl

theorem TypeRef.isNonNull_of_unmarked (t : TypeRef) (h : t.unmarked.isNonNull = true) :
    t.isNonNull = true := by
  cases t with
  | nonNull inner => rfl
  | _ => exact h

/-- What stands at a position. -/
inductive Slot where
  /-- A value of some type, on which something is selected. -/
  | typed (type : TypeRef) (selections : List Selection)
  /-- The name of an object type. -/
  | typename
  /-- A selected field that the object does not have. -/
  | unknown

namespace Slot

variable {ω : Type}

def isNullable : Slot → Bool
  | .typed t _ => !t.isNonNull
  | .typename => false
  | .unknown => true

/-- The slot of the fields selected on an object under one key. -/
def ofGroup (o : ObjectNode ω) : List SelectedField → Option Slot
  | [] => none
  | f :: rest =>
    if f.name = Executor.typenameField then some .typename
    else match Dict.get? o.fields f.name with
      | none => some .unknown
      | some node => some (.typed node.type (Selection.nested (f :: rest)))

end Slot

/-- What the slots of a response go by: the graph, the slot of the root, and the object types found
for the values of abstract types. -/
structure Layout (ω : Type) where
  graph : Graph ω
  root? : Option Slot
  runtimeType? : Path → Option String

namespace Layout

variable {ω : Type} (L : Layout ω)

/-- The object at a position of some named type. -/
def objectAt? (p : Path) (name : String) : Option (ObjectNode ω) :=
  match L.graph.node? name with
  | some (.object o) => some o
  | some (.interface _) | some (.union _) => (L.runtimeType? p).bind L.graph.object?
  | _ => none

variable {L} in
theorem objectAt?_of_typing {p : Path} {name : String} {n : Node ω} {y : Typing ω}
    (hn : L.graph.node? name = some n) (hy : n.typing? = some y) :
    L.objectAt? p name = (L.runtimeType? p).bind L.graph.object? := by
  cases n with
  | interface n | union n => simp only [objectAt?, hn]
  | scalar n | object n | input n => cases hy

/-- One step further from a position: to an item of a list, or to a field of an object. -/
def child? (p : Path) : Slot → PathElement → Option Slot
  | .typed t selections, e =>
    match t.bare, e with
    | .list item, .index _ => some (.typed item selections)
    | .named name, .key k =>
      (L.objectAt? p name).bind fun o =>
        (Dict.get? (L.graph.groupsOn o selections) k).bind (Slot.ofGroup o)
    | _, _ => none
  | _, _ => none

/-- A path and its slot, one step further. -/
def step (x : Path × Option Slot) (e : PathElement) : Path × Option Slot :=
  (x.1.join e, x.2.bind fun slot => L.child? x.1 slot e)

/-- The slot at the end of the path, if there is a position. -/
def slot? (p : Path) : Option Slot := (p.foldl L.step ([], L.root?)).2

theorem slot?_nil : L.slot? [] = L.root? := rfl

theorem foldl_step_fst (p : Path) (x : Path × Option Slot) : (p.foldl L.step x).1 = x.1 ++ p := by
  induction p generalizing x with
  | nil => simp
  | cons e p ih => rw [List.foldl_cons, ih, step, Path.join, List.append_assoc]; rfl

theorem slot?_join (p : Path) (e : PathElement) :
    L.slot? (p.join e) = (L.slot? p).bind fun slot => L.child? p slot e := by
  rw [slot?, Path.join, List.foldl_append, List.foldl_cons, List.foldl_nil, step, foldl_step_fst]
  rfl

/-- Fields of an object are selected at a position. -/
def HasObject (p : Path) (o : ObjectNode ω) (selections : List Selection) : Prop :=
  ∀ k, L.slot? (p.join (.key k)) =
    (Dict.get? (L.graph.groupsOn o selections) k).bind (Slot.ofGroup o)

section Typed

variable {L} {p : Path} {t : TypeRef} {selections : List Selection}

theorem slot?_item (h : L.slot? p = some (.typed t selections)) {item : TypeRef}
    (ht : t.bare = .list item) (i : Nat) :
    L.slot? (p.join (.index i)) = some (.typed item selections) := by
  simp only [slot?_join, h, Option.bind_some, child?, ht]

theorem hasObject_of_slot (h : L.slot? p = some (.typed t selections)) {name : String}
    (ht : t.bare = .named name) {o : ObjectNode ω} (ho : L.objectAt? p name = some o) :
    L.HasObject p o selections := by
  intro k
  simp only [slot?_join, h, Option.bind_some, child?, ht, ho]

/-- Nothing stands below a value that is no object and no list. -/
theorem slot?_join_leaf (h : L.slot? p = some (.typed t selections)) (ht : t.bare.isSingle = true)
    (hobject : ∀ name, t.bare = .named name → L.objectAt? p name = none) (e : PathElement) :
    L.slot? (p.join e) = none := by
  rw [slot?_join, h, Option.bind_some]
  cases hb : t.bare with
  | list item => simp [hb, TypeRef.isSingle] at ht
  | named name =>
    cases e with
    | index i => simp only [child?, hb]
    | key k => simp only [child?, hb, hobject name hb, Option.bind_none]
  | _ => simp only [child?, hb]

theorem slot?_append_eq_none (h : L.slot? p = none) (q : Path) : L.slot? (p ++ q) = none := by
  induction q using List.reverseRecOn with
  | nil => rwa [List.append_nil]
  | append_singleton q e ih =>
    rw [← List.append_assoc]
    exact (slot?_join L (p ++ q) e).trans (by rw [ih]; rfl)

theorem slot?_below_leaf (h : ∀ e, L.slot? (p.join e) = none) {q : Path} (hq : q ≠ []) :
    L.slot? (p ++ q) = none := by
  obtain ⟨e, q, rfl⟩ := List.exists_cons_of_ne_nil hq
  have := slot?_append_eq_none (h e) q
  rwa [Path.join, List.append_assoc] at this

end Typed

/-! ## Nullable positions -/

def Nullable (p : Path) : Prop := ∃ x, L.slot? p = some x ∧ x.isNullable = true

/-- No position on the way from `p` down to `q` is nullable, except perhaps `p` itself. -/
def Clear (p q : Path) : Prop := ∀ b, b <+: q → L.Nullable b → b <+: p

/-- The longest nullable prefix of a path. -/
structure IsAnchor (a p : Path) : Prop where
  above : a <+: p
  nullable : L.Nullable a
  longest : L.Clear a p

variable {L}

theorem nullable_iff_of_slot {p : Path} {x : Slot} (h : L.slot? p = some x) :
    L.Nullable p ↔ x.isNullable = true := by
  simp [Nullable, h]

theorem nullable_iff_of_slot_typed {p : Path} {t : TypeRef} {selections : List Selection}
    (h : L.slot? p = some (.typed t selections)) : L.Nullable p ↔ t.isNonNull = false := by
  rw [nullable_iff_of_slot h, Slot.isNullable, Bool.not_eq_true']

theorem clear_self (p : Path) : L.Clear p p := fun _ h _ => h

theorem Clear.parent {p q : Path} {e : PathElement} (h : L.Clear (p.join e) q)
    (hn : ¬ L.Nullable (p.join e)) : L.Clear p q := by
  intro b hb hnb
  rcases List.prefix_concat_iff.1 (h b hb hnb) with rfl | h
  · exact absurd hnb hn
  · exact h

/-- A path with a nullable prefix has a longest one. -/
theorem exists_isAnchor {b p : Path} (hb : b <+: p) (hn : L.Nullable b) :
    ∃ a, L.IsAnchor a p ∧ b <+: a := by
  induction p using List.reverseRecOn with
  | nil =>
    obtain rfl := List.prefix_nil.1 hb
    exact ⟨[], ⟨List.prefix_rfl, hn, clear_self []⟩, hb⟩
  | append_singleton p e ih =>
    by_cases hp : L.Nullable (p ++ [e])
    · exact ⟨p ++ [e], ⟨List.prefix_rfl, hp, clear_self _⟩, hb⟩
    · rcases List.prefix_concat_iff.1 hb with rfl | hb
      · exact absurd hn hp
      · obtain ⟨a, ha, hba⟩ := ih hb
        refine ⟨a, ⟨ha.above.trans (List.prefix_append p [e]), ha.nullable, ?_⟩, hba⟩
        intro c hc hnc
        rcases List.prefix_concat_iff.1 hc with rfl | hc
        · exact absurd hnc hp
        · exact ha.longest c hc hnc

end Layout

end GraphAssembly
