import GraphAssembly.Proofs.Assembly.Likeness
import GraphAssembly.Proofs.Execution.Hints
import GraphAssembly.Proofs.Execution.Merged

/-!
# Possible types at run time

Which object types are possible for an abstract type is asked three times: of the declarations, when
fields are compared with those of an interface, of the finished graph, when a value is completed,
and again when a fragment meets an object. The answers are the same.

1. The object types of a graph in their order, and the members of a union.
2. `PossibleTypesAgree`: the declarations and the graph.
3. Fragments on an object, and the statement.
-/

namespace GraphAssembly

open Routine

variable {ω : Type}

/-! ## Object types and members -/

/-- The object types, in the order of the graph. -/
def Graph.objects (g : Graph ω) : List (ObjectNode ω) :=
  (Dict.values g.nodes).filterMap fun
    | .object o => some o
    | _ => none

theorem Blueprint.Assembled.objects_eq {b : Blueprint ω} {c : Configuration} {g : Graph ω}
    {t : Declarations ω} (h : b.Assembled c g t) : g.objects = t.objects := by
  rw [Graph.objects, Declarations.objects, h.nodes_eq, Declarations.linkAll, Dict.values,
    Dict.values, Dict.mapValues, List.map_map, List.filterMap_map, List.filterMap_map]
  refine List.filterMap_congr fun e _ => ?_
  obtain ⟨name, d⟩ := e
  cases d <;> rfl

/-- Members that are added one by one are listed where they are added first. -/
theorem UnionDefinition.members_foldl_addMember {u : UnionDefinition ω} (hu : u.members = [])
    (names : List String) : (names.foldl addMember u).members = firstOccurrences names := by
  have hall : ∀ u : UnionDefinition ω, (names.foldl addMember u).members =
      names.foldl (fun kept n => if n ∈ kept then kept else kept ++ [n]) u.members := by
    induction names with
    | nil => exact fun _ => rfl
    | cons name names ih =>
      intro u
      have hadd : (u.addMember name).members =
          if name ∈ u.members then u.members else u.members ++ [name] := by
        unfold addMember
        split <;> rfl
      rw [List.foldl_cons, List.foldl_cons, ih, hadd]
  rw [hall, hu, firstOccurrences]

/-! ## Declarations and graph -/

/-- The possible types of a graph are those that its declarations have: for an interface the object
types that implement it, for a union its members. -/
structure PossibleTypesAgree (b : Blueprint ω) (t : Declarations ω) (g : Graph ω) : Prop where
  interface : ∀ name i, g.node? name = some (.interface i) →
    i.typing.possibleTypes = (g.objects.filter fun o => name ∈ o.implements).map (·.name) ∧
      i.typing.possibleTypes.Nodup
  union : ∀ name n, g.node? name = some (.union n) →
    ∃ u, .union u ∈ b.components ∧ u.name = name ∧ n.typing.possibleTypes = u.members ∧
      ∀ names (start : UnionDefinition ω), start.members = [] →
        u = names.foldl UnionDefinition.addMember start →
          n.typing.possibleTypes = firstOccurrences names ∧ n.typing.possibleTypes.Nodup
  object : ∀ abstractType object, object ∈ g.possibleTypes abstractType →
    ∃ o, g.object? object = some o ∧ o.name = object
  subtype : ∀ abstractType object, g.isSubtype abstractType object = true ↔
    abstractType = object ∨ object ∈ g.possibleTypes abstractType
  covariance : ∀ abstractType object, t.isPossibleType abstractType object = true ↔
    object ∈ g.possibleTypes abstractType
  declared : ∀ abstractType object, object ∈ g.possibleTypes abstractType ↔
    b.Possible abstractType object

namespace Blueprint.Assembled

variable {b : Blueprint ω} {c : Configuration} {g : Graph ω} {t : Declarations ω}
  (h : b.Assembled c g t)

include h

theorem possibleTypes_interface {name : String} {i : InterfaceNode ω}
    (hi : g.node? name = some (.interface i)) : i.typing.possibleTypes = t.implementers name := by
  obtain ⟨d, hget, hd⟩ := h.exists_of_node? hi
  obtain ⟨hname, -⟩ := h.table.of_get? hget
  cases d with
  | interface name' =>
    cases hd
    obtain rfl : name' = name := hname
    rfl
  | _ => cases hd

theorem exists_union {name : String} {n : UnionNode ω} (hn : g.node? name = some (.union n)) :
    ∃ u ∈ b.parts.unions, u.name = name ∧ n.typing.possibleTypes = u.members := by
  obtain ⟨d, hget, hd⟩ := h.exists_of_node? hn
  obtain ⟨hname, hdeclares, -⟩ := h.table.of_get? hget
  cases hdeclares with
  | union hu =>
    cases hd
    exact ⟨_, hu, hname, rfl⟩
  | _ => cases hd

/-- What is possible in the graph is possible by the declarations. -/
theorem isPossibleType_of_mem {abstractType object : String}
    (hmem : object ∈ g.possibleTypes abstractType) :
    t.isPossibleType abstractType object = true := by
  obtain ⟨y, hy, hpossible⟩ : ∃ y, g.typing? abstractType = some y ∧ object ∈ y.possibleTypes := by
    unfold Graph.possibleTypes at hmem
    split at hmem
    · exact ⟨_, ‹_›, hmem⟩
    · cases hmem
  obtain ⟨n, hn, htyping⟩ := Option.bind_eq_some_iff.1 hy
  obtain ⟨o, ho⟩ := h.sound.possible hn htyping object hpossible
  cases n with
  | interface i =>
    cases htyping
    have himplements := (h.mem_possibleTypes_iff hn ho).1 hpossible
    obtain ⟨d, hget, hd⟩ := h.exists_of_node? hn
    cases d with
    | interface =>
      rw [Declarations.isPossibleType, hget, Declarations.object?, h.object?_iff.1 ho]
      simpa using himplements
    | _ => cases hd
  | union n =>
    cases htyping
    obtain ⟨u, hu, rfl, hmembers⟩ := h.exists_union hn
    rw [Declarations.isPossibleType, h.table.get?_union hu]
    exact List.contains_iff_mem.2 (hmembers ▸ hpossible)
  | _ => cases htyping

theorem possibleTypesAgree : PossibleTypesAgree b t g where
  interface name i hi := by
    have hpossible := h.possibleTypes_interface hi
    refine ⟨?_, hpossible ▸ Blueprint.nodup_implementers h name⟩
    rw [hpossible, Declarations.implementers, h.objects_eq]
    simp only [List.contains_eq_mem]
  union name n hn := by
    obtain ⟨u, hu, hname, hmembers⟩ := h.exists_union hn
    refine ⟨u, ?_, hname, hmembers, ?_⟩
    · obtain ⟨component, hmem, hsome⟩ := List.mem_filterMap.1 hu
      cases component with
      | union => exact Option.some.inj hsome ▸ hmem
      | _ => cases hsome
    · rintro names start hstart rfl
      rw [hmembers, UnionDefinition.members_foldl_addMember hstart]
      exact ⟨rfl, nodup_firstOccurrences names⟩
  object abstractType object hmem := by
    obtain ⟨⟨o, ho⟩, -⟩ := h.of_isPossibleType (h.isPossibleType_of_mem hmem)
    exact ⟨o, ho, h.name_of_object? ho⟩
  subtype abstractType object := by simp [Graph.isSubtype]
  covariance abstractType object :=
    ⟨fun hpossible => (h.of_isPossibleType hpossible).2, h.isPossibleType_of_mem⟩
  declared abstractType object := by
    rw [← h.table.isPossibleType_iff]
    exact ⟨h.isPossibleType_of_mem, fun hpossible => (h.of_isPossibleType hpossible).2⟩

end Blueprint.Assembled

/-! ## Fragments -/

namespace Executor

variable (e : Executor ω) (o : ObjectNode ω) (condition : String)

/-- A fragment with the condition counts on the object type: its selections are executed in its
place. -/
def FragmentApplies : Prop := ∀ before selections after source p,
  e.execute (before ++ .fragment condition selections :: after) o source p =
    e.execute (before ++ selections ++ after) o source p

/-- A fragment with the condition is left out on the object type. -/
def FragmentSkipped : Prop := ∀ before selections after source p,
  e.execute (before ++ .fragment condition selections :: after) o source p =
    e.execute (before ++ after) o source p

end Executor

theorem Selection.fieldsOfAll_append (applies : String → Bool) (xs ys : List Selection) :
    fieldsOfAll applies (xs ++ ys) = fieldsOfAll applies xs ++ fieldsOfAll applies ys := by
  induction xs with
  | nil => rfl
  | cons x xs ih => rw [List.cons_append, fieldsOfAll, ih, fieldsOfAll, List.append_assoc]

namespace Executor

variable {e : Executor ω} {o : ObjectNode ω} {condition : String}

theorem fragmentApplies_of_isSubtype (h : e.graph.isSubtype condition o.name = true) :
    e.FragmentApplies o condition := by
  intro before selections after source p
  refine e.execute_congr o source ?_ p
  simp only [Graph.selectedOn, Selection.fieldsOfAll_append, Selection.fieldsOfAll,
    Selection.fieldsOf, h, if_true, List.append_assoc]

theorem fragmentSkipped_of_not_isSubtype (h : ¬ e.graph.isSubtype condition o.name = true) :
    e.FragmentSkipped o condition := by
  intro before selections after source p
  refine e.execute_congr o source ?_ p
  rw [Bool.not_eq_true] at h
  simp only [Graph.selectedOn, Selection.fieldsOfAll_append, Selection.fieldsOfAll,
    Selection.fieldsOf, h, Bool.false_eq_true, if_false, List.nil_append]

/-- A value for which an object type is found is completed as an object of that type. -/
theorem run_completeAbstract (onObject : OnObject ω) (type : TypeRef) {y : Typing ω}
    {static : Option String} {v : Json} {p : Path} {s : Run ω} {name : String}
    (hname : (y.resolve static v s.world.scope).1 = .ok name)
    (ho : e.graph.object? name = some o) :
    ∃ s' : Run ω, .typed p name ∈ s'.journal ∧
      (e.completeAbstract onObject type y static v p).run s =
        (completeObject onObject o v p).run s' := by
  rw [completeAbstract, run_bind]
  have hfound : ((Run.inScope (y.resolve static v)).run s).1 = .ok name := hname
  rw [hfound]
  dsimp only
  rw [run_bind, ho]
  exact ⟨_, List.mem_cons_self, rfl⟩

end Executor

namespace Blueprint

variable {b : Blueprint ω} {r : Registry ω} {w : Workshop ω} {c : Configuration} {g : Graph ω}

/-- The possible types of an assembled graph are those of the declarations. A value of an abstract
type is completed as an object of one of them, and there the fragments on that object type and on
all abstract types for which it is possible apply, and no others. -/
theorem assemble_possibleTypes (h : ((b.assemble r c) w).1 = .ok g) :
    ∃ t, ((Declarations.ofParts r b.parts) w).1 = .ok t ∧ b.link t c = .ok g ∧
      PossibleTypesAgree b t g ∧
      ∀ (e : Executor ω), e.graph = g → ∀ name y, g.typing? name = some y →
        ∀ (onObject : OnObject ω) static v p (s : Run ω) object,
          (y.resolve static v s.world.scope).1 = .ok object →
          ∃ o s', g.object? object = some o ∧ object ∈ g.possibleTypes name ∧
            .typed p object ∈ s'.journal ∧
            (e.completeNamed onObject (.named name) static v p).run s =
              (Executor.completeObject onObject o v p).run s' ∧
            e.FragmentApplies o name ∧ e.FragmentApplies o object ∧
            (∀ other, object ∈ g.possibleTypes other → e.FragmentApplies o other) ∧
            ∀ other, other ≠ object → object ∉ g.possibleTypes other →
              e.FragmentSkipped o other := by
  obtain ⟨t, ht, hlink⟩ := exists_linked h
  have hassembled : b.Assembled c g t := .of_link ht hlink
  have hagree := hassembled.possibleTypesAgree
  refine ⟨t, ht, hlink, hagree, fun e he name y hy onObject static v p s object hobject => ?_⟩
  subst he
  obtain ⟨n, hn, htyping⟩ := Option.bind_eq_some_iff.1 hy
  have hmem : object ∈ e.graph.possibleTypes name := by
    rw [Graph.possibleTypes, hy]
    exact Typing.mem_possibleTypes_of_accept hobject
  obtain ⟨o, ho, hname⟩ := hagree.object name object hmem
  obtain ⟨s', hjournal, hrun⟩ :=
    Executor.run_completeAbstract (p := p) onObject (.named name) hobject ho
  rw [← completeNamed_typing hn htyping] at hrun
  have happlies {other : String} (hother : other = object ∨ object ∈ e.graph.possibleTypes other) :
      e.FragmentApplies o other :=
    Executor.fragmentApplies_of_isSubtype (hname ▸ (hagree.subtype other object).2 hother)
  refine ⟨o, s', ho, hmem, hjournal, hrun, happlies (.inr hmem), happlies (.inl rfl),
    fun other hother => happlies (.inr hother), fun other hne hother => ?_⟩
  refine Executor.fragmentSkipped_of_not_isSubtype fun hsubtype => ?_
  exact ((hagree.subtype other object).1 (hname ▸ hsubtype)).elim hne hother

/-- A hero among the named: fragments on the hero, on what has a name and on anyone count, one on
the root does not. -/
theorem named_possibleTypes : ∃ g y o, ((named.assemble clockwork {}) ⟨[], ()⟩).1 = .ok g ∧
    g.typing? "Named" = some y ∧ y.possibleTypes = ["Hero"] ∧ g.object? "Hero" = some o ∧
    (y.resolve none (.obj [("__typename", .str "Hero")]) ⟨{}, ()⟩).1 = .ok "Hero" ∧
    let e := Executor.forOperation ⟨g, clockwork, {}⟩ .query
    (∀ condition ∈ ["Hero", "Named", "Anyone"], e.FragmentApplies o condition) ∧
      e.FragmentSkipped o "Query" := by
  obtain ⟨g, y, hg, hy, hpossible, hanyone, hquery, hresolve⟩ : ∃ g y,
      ((named.assemble clockwork {}) ⟨[], ()⟩).1 = .ok g ∧ g.typing? "Named" = some y ∧
      y.possibleTypes = ["Hero"] ∧ g.possibleTypes "Anyone" = ["Hero"] ∧
      g.possibleTypes "Query" = [] ∧
      (y.resolve none (.obj [("__typename", .str "Hero")]) ⟨{}, ()⟩).1 = .ok "Hero" :=
    ⟨_, _, rfl, rfl, rfl, rfl, rfl, rfl⟩
  obtain ⟨-, -, -, -, hcompleted⟩ := assemble_possibleTypes hg
  obtain ⟨o, -, ho, -, -, -, hnamed, hhero, hothers, hskipped⟩ :=
    hcompleted (.forOperation ⟨g, clockwork, {}⟩ .query) rfl "Named" y hy
      (fun _ _ _ => .done none) none (.obj [("__typename", .str "Hero")]) []
      { world := ⟨{}, ⟨[], ()⟩⟩ } "Hero" hresolve
  refine ⟨g, y, o, hg, hy, hpossible, ho, hresolve, fun condition hcondition => ?_,
    hskipped "Query" (by decide) (by simp [hquery])⟩
  rcases List.mem_cons.1 hcondition with rfl | hcondition
  · exact hhero
  · rcases List.mem_pair.1 hcondition with rfl | rfl
    · exact hnamed
    · exact hothers "Anyone" (by simp [hanyone])

end Blueprint

end GraphAssembly
