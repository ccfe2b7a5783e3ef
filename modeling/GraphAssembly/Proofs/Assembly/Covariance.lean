import GraphAssembly.Proofs.Assembly.References

/-!
# Covariance

A field may stand in for another one if its type is null less often, is a list just where the other
is one, and leads to the same type or to a possible one of it.

1. `Fits`: covariance, one rule for each of its cases. It is an order on types, because no type is
   both an object type and one that has possible types.
2. The possible types of a graph.
3. The fields of an interface and of the object types that implement it.
-/

namespace GraphAssembly

variable {ω : Type}

/-! ## Types that fit -/

/-- A value of the first type may be where one of the second is expected. -/
inductive Declarations.Fits (t : Declarations ω) : (actual expected : TypeRef) → Prop
  | nonNull {a e : TypeRef} (h : Fits t a e) : Fits t (.nonNull a) (.nonNull e)
  | marked {a e : TypeRef} (he : e.isNonNull = false) (h : Fits t a e) : Fits t (.nonNull a) e
  | list {a e : TypeRef} (h : Fits t a e) : Fits t (.list a) (.list e)
  | single {a e : TypeRef} (ha : a.isSingle = true) (he : e.isSingle = true)
    (h : a.baseName = e.baseName ∨ t.isPossibleType e.baseName a.baseName = true) : Fits t a e

namespace Declarations

variable {t : Declarations ω} {a e e' : TypeRef}

theorem fits_iff : t.isCovariant a e = true ↔ t.Fits a e := by
  constructor
  · intro h
    induction a generalizing e with
    | nonNull a ih =>
      cases e with
      | nonNull e => exact .nonNull (ih h)
      | _ => exact .marked rfl (ih h)
    | list a ih =>
      cases e with
      | list e => exact .list (ih h)
      | _ => cases h
    | _ =>
      cases e with
      | nonNull e | list e => cases h
      | _ =>
        rw [Blueprint.isCovariant_single rfl rfl, Bool.or_eq_true, decide_eq_true_iff] at h
        exact .single rfl rfl h
  · intro h
    induction h with
    | nonNull _ ih | list _ ih => exact ih
    | marked he _ ih => rwa [Blueprint.isCovariant_nonNull_left he]
    | single ha he h =>
      rwa [Blueprint.isCovariant_single ha he, Bool.or_eq_true, decide_eq_true_iff]

theorem fits_refl (t : Declarations ω) (a : TypeRef) : t.Fits a a := by
  induction a with
  | nonNull a ih => exact .nonNull ih
  | list a ih => exact .list ih
  | _ => exact .single rfl rfl (.inl rfl)

/-- What fits a type without mark has none at its place either. -/
theorem Fits.isNonNull_eq (h : t.Fits a e) (ha : a.isNonNull = false) : e.isNonNull = false := by
  cases h with
  | nonNull | marked => cases ha
  | list => rfl
  | single _ he =>
    cases e with
    | nonNull e => cases he
    | _ => rfl

theorem Fits.trans (hpossible : ∀ x y z, t.isPossibleType x y = true →
    t.isPossibleType y z = true → False) (h : t.Fits a e) (h' : t.Fits e e') : t.Fits a e' := by
  induction h generalizing e' with
  | nonNull _ ih =>
    cases h' with
    | nonNull h' => exact .nonNull (ih h')
    | marked he' h' => exact .marked he' (ih h')
    | single he => cases he
  | marked he _ ih => exact .marked (h'.isNonNull_eq he) (ih h')
  | list _ ih =>
    cases h' with
    | list h' => exact .list (ih h')
    | single he => cases he
  | single ha he h =>
    cases h' with
    | nonNull | marked | list => cases he
    | single _ he' h' =>
      refine .single ha he' ?_
      rcases h with h | h
      · rwa [h]
      · rcases h' with h' | h'
        · exact .inr (h' ▸ h)
        · exact (hpossible _ _ _ h' h).elim

end Declarations

/-! ## Possible types -/

theorem Graph.possibleTypes_of_object {g : Graph ω} {name : String} {o : ObjectNode ω}
    (ho : g.object? name = some o) : g.possibleTypes name = [] := by
  rw [Graph.possibleTypes, Graph.typing?, Graph.object?_eq_some_iff.1 ho]
  rfl

theorem Declarations.mem_implementers {t : Declarations ω} {interface object : String} :
    object ∈ t.implementers interface ↔
      ∃ o ∈ t.objects, o.name = object ∧ interface ∈ o.implements := by
  simp only [implementers, List.mem_map, List.mem_filter, List.contains_iff_mem]
  exact ⟨fun ⟨o, ⟨ho, hi⟩, hname⟩ => ⟨o, ho, hname, hi⟩,
    fun ⟨o, ho, hname, hi⟩ => ⟨o, ⟨ho, hi⟩, hname⟩⟩

namespace Blueprint

variable {b : Blueprint ω} {c : Configuration} {g : Graph ω} {t : Declarations ω}

theorem Table.mem_objects (ht : b.Table b.declaredTypes t) {o : ObjectNode ω} :
    o ∈ t.objects ↔ Dict.get? t o.name = some (.object o) := by
  rw [Declarations.objects, List.mem_filterMap]
  constructor
  · rintro ⟨d, hd, hsome⟩
    obtain ⟨name, hd⟩ := mem_values.1 hd
    obtain ⟨hname, -⟩ := ht.entries name d hd
    cases d with
    | object o' =>
      obtain rfl := Option.some.inj hsome
      obtain rfl : o'.name = name := hname
      exact Dict.get?_of_mem ht.distinct hd
    | _ => cases hsome
  · intro h
    exact ⟨_, mem_values.2 ⟨_, Dict.mem_of_get? h⟩, rfl⟩

namespace Assembled

variable (h : b.Assembled c g t)

include h

theorem object?_iff {name : String} {o : ObjectNode ω} :
    g.object? name = some o ↔ Dict.get? t name = some (.object o) := by
  rw [Graph.object?_eq_some_iff, h.node?_eq, Option.map_eq_some_iff]
  constructor
  · rintro ⟨d, hget, hd⟩
    cases d with
    | object => cases hd; exact hget
    | _ => cases hd
  · exact fun hget => ⟨_, hget, rfl⟩

theorem name_of_object? {name : String} {o : ObjectNode ω} (ho : g.object? name = some o) :
    o.name = name := h.name_of_node? (Graph.object?_eq_some_iff.1 ho)

/-- An object type is put together from its fragments. -/
theorem eq_node_of_object? {name : String} {o : ObjectNode ω} (ho : g.object? name = some o) :
    name ∈ b.objectNames ∧ o = (b.fragments name).node name :=
  h.table.object?_eq_some (by rw [Declarations.object?, h.object?_iff.1 ho])

/-- The possible types of an interface are the object types that implement it. -/
theorem mem_possibleTypes_iff {name object : String} {i : InterfaceNode ω} {o : ObjectNode ω}
    (hi : g.node? name = some (.interface i)) (ho : g.object? object = some o) :
    object ∈ i.typing.possibleTypes ↔ name ∈ o.implements := by
  obtain ⟨d, hget, hd⟩ := h.exists_of_node? hi
  obtain ⟨hname, -⟩ := h.table.of_get? hget
  cases d with
  | interface name' =>
    cases hd
    obtain rfl : name' = name := hname
    change object ∈ t.implementers name' ↔ _
    rw [Declarations.mem_implementers]
    constructor
    · rintro ⟨o', ho', rfl, himplements⟩
      rw [h.table.mem_objects, ← h.object?_iff, ho] at ho'
      exact Option.some.inj ho' ▸ himplements
    · intro himplements
      obtain rfl := h.name_of_object? ho
      exact ⟨o, h.table.mem_objects.2 (h.object?_iff.1 ho), rfl, himplements⟩
  | _ => cases hd

/-- The types that are possible by the declarations are object types, and so in the graph. -/
theorem of_isPossibleType {abstractType object : String}
    (hp : t.isPossibleType abstractType object = true) :
    (∃ o, g.object? object = some o) ∧ object ∈ g.possibleTypes abstractType := by
  cases h.table.isPossibleType_iff.1 hp with
  | @interface i _ hi ho hn =>
    have hobject := h.object?_eq ho
    have hnode := (h.node?_eq i.name).trans (congrArg _ (h.table.get?_interface hi))
    refine ⟨⟨_, hobject⟩, ?_⟩
    rw [Graph.possibleTypes, Graph.typing?, hnode]
    exact (h.mem_possibleTypes_iff hnode hobject).2 hn
  | @union u _ hu hm =>
    have hobject := h.object?_eq (h.linked_of_get? (h.table.get?_union hu) object hm)
    refine ⟨⟨_, hobject⟩, ?_⟩
    rw [Graph.possibleTypes, Graph.typing?, h.node?_eq, h.table.get?_union hu]
    exact hm

theorem fits_trans {x y z : TypeRef} (hxy : t.Fits x y) (hyz : t.Fits y z) : t.Fits x z := by
  refine hxy.trans (fun x y z hxy hyz => ?_) hyz
  -- a possible type is an object type, and has no possible types itself
  obtain ⟨⟨o, ho⟩, -⟩ := h.of_isPossibleType hxy
  obtain ⟨-, hz⟩ := h.of_isPossibleType hyz
  rw [Graph.possibleTypes_of_object ho] at hz
  cases hz

/-! ## Interfaces -/

/-- An object type has the fields of its interfaces, of types that fit. -/
theorem exists_field {name object field : String} {i : InterfaceNode ω} {o : ObjectNode ω}
    {n : FieldNode ω} (hi : g.node? name = some (.interface i)) (ho : g.object? object = some o)
    (hn : name ∈ o.implements) (hf : Dict.get? i.fields field = some n) :
    ∃ m, Dict.get? o.fields field = some m ∧ t.Fits m.type n.type := by
  obtain ⟨hobject, rfl⟩ := h.eq_node_of_object? ho
  obtain ⟨d, hd, rfl, himplements⟩ :=
    (h.linked_of_get? (h.table.get?_object hobject)).1 name hn
  rw [h.node?_eq, h.table.get?_interface hd] at hi
  cases hi
  obtain ⟨⟨_, spec⟩, hspec, hpair⟩ := List.mem_map.1 (Dict.mem_of_get? hf)
  obtain ⟨rfl, rfl⟩ := Prod.mk.inj hpair
  obtain ⟨x, hx, rfl, hcovariant⟩ := himplements _ spec hspec
  obtain ⟨m, hm, hnode⟩ := Fragments.exists_node_of_field hx
  refine ⟨m, Dict.get?_of_mem ?_ hm, ?_⟩
  · exact (b.fragments object).distinct_nodes (h.objectFields _ hobject)
  · rw [hnode.type]
    exact Declarations.fits_iff.1 (h.table.isCovariant_iff.2 hcovariant)

end Assembled

end Blueprint

end GraphAssembly
