import GraphAssembly.Proofs.Assembly.Linked

/-!
# Assembled graphs

What a graph is made of that an assembly gives, whatever the registry answers.

1. `Assembled`: a graph that is linked from a checked table.
2. The nodes of such a graph.
-/

namespace GraphAssembly

variable {ω : Type}

theorem Fragments.keys_nodes (f : Fragments ω) : Dict.keys f.nodes = f.fields.map (·.name) := by
  simp [Dict.keys, nodes, fields, List.map_flatMap, Function.comp_def]

theorem Fragments.distinct_nodes (f : Fragments ω) (h : f.declared.Nodup) :
    Dict.Distinct f.nodes := by
  rw [Dict.Distinct, keys_nodes]
  exact h.sublist f.map_name_fields_sublist

theorem Declarations.name_link (t : Declarations ω) (c : TypeResolution) (d : Declaration ω) :
    (t.link c d).name = d.name := by
  cases d <;> rfl

namespace Blueprint

variable {b : Blueprint ω} {r : Registry ω} {w : Workshop ω} {c : Configuration}
  {g : Graph ω} {t : Declarations ω}

/-! ## Tables of a graph -/

/-- The graph is linked from the table of the blueprint, of which all checks hold. -/
structure Assembled (b : Blueprint ω) (c : Configuration) (g : Graph ω) (t : Declarations ω) :
    Prop where
  table : b.Table b.declaredTypes t
  interfaceFields : ∀ i ∈ b.parts.interfaces, i.fields.declared.Nodup
  inputFields : ∀ i ∈ b.parts.inputs, i.fields.declared.Nodup
  objectFields : ∀ name ∈ b.objectNames, (b.fragments name).declared.Nodup
  linked : ∀ d ∈ Dict.values t, b.Linked d
  nodes_eq : g.nodes = t.linkAll c.typeResolution
  query_eq : g.query = b.rootQuery
  mutation_eq : g.mutation = b.rootMutation

/-- An assembly is a declaration of all parts, which are then linked. -/
theorem exists_linked (h : ((b.assemble r c) w).1 = .ok g) :
    ∃ t, ((Declarations.ofParts r b.parts) w).1 = .ok t ∧ b.link t c = .ok g := by
  have h : ((Declarations.ofParts r b.parts >>= fun t => ExceptT.mk (pure (b.link t c))) w).1 =
      .ok g := h
  rw [bind_apply] at h
  generalize (Declarations.ofParts r b.parts) w = x at h ⊢
  obtain ⟨e | t, w'⟩ := x
  · cases h
  · exact ⟨t, rfl, h⟩

theorem Assembled.of_link (ht : ((Declarations.ofParts r b.parts) w).1 = .ok t)
    (hg : b.link t c = .ok g) : b.Assembled c g t := by
  have hparts : Verdict _ _ ((Declarations.ofParts r b.parts) w).1 :=
    ofParts_verdict_of (b := b) (r := r) (w := w) (Q := fun _ => True)
      (fun _ _ => trivial) (fun _ hs => scalar_any hs) trivial
  rw [ht] at hparts
  cases hparts with
  | ok h =>
    obtain ⟨htable, hinterfaces, hinputs, -, hobjects⟩ := h
    have hlink : Verdict (b.Assembled c · t) (b.Violation r w) (b.link t c) :=
      htable.checkAll.bind fun _ hlinked => htable.checkRoots.bind fun _ _ =>
        .ok ⟨htable, hinterfaces, hinputs, hobjects, hlinked, rfl, rfl, rfl⟩
    rw [hg] at hlink
    cases hlink with
    | ok h => exact h

theorem exists_assembled (h : ((b.assemble r c) w).1 = .ok g) : ∃ t, b.Assembled c g t := by
  obtain ⟨t, ht, hg⟩ := exists_linked h
  exact ⟨t, .of_link ht hg⟩

namespace Assembled

variable (h : b.Assembled c g t)

include h

/-- Each node is linked from the declaration of its name. -/
theorem node?_eq (name : String) :
    g.node? name = (Dict.get? t name).map (t.link c.typeResolution) := by
  rw [Graph.node?, h.nodes_eq, Declarations.linkAll, Dict.get?_mapValues]

theorem exists_of_node? {name : String} {n : Node ω} (hn : g.node? name = some n) :
    ∃ d, Dict.get? t name = some d ∧ t.link c.typeResolution d = n := by
  rwa [h.node?_eq, Option.map_eq_some_iff] at hn

theorem exists_of_mem {n : Node ω} (hn : n ∈ Dict.values g.nodes) :
    ∃ d, Dict.get? t d.name = some d ∧ t.link c.typeResolution d = n := by
  rw [h.nodes_eq] at hn
  obtain ⟨name, hn⟩ := mem_values.1 hn
  obtain ⟨⟨name', d⟩, hd, heq⟩ := List.mem_map.1 hn
  obtain ⟨rfl, rfl⟩ := Prod.mk.inj heq
  obtain ⟨rfl, -⟩ := h.table.entries _ d hd
  exact ⟨d, Dict.get?_of_mem h.table.distinct hd, rfl⟩

theorem node?_of_mem {n : Node ω} (hn : n ∈ Dict.values g.nodes) : g.node? n.name = some n := by
  obtain ⟨d, hget, rfl⟩ := h.exists_of_mem hn
  rw [Declarations.name_link, h.node?_eq, hget]
  rfl

theorem name_of_node? {name : String} {n : Node ω} (hn : g.node? name = some n) :
    n.name = name := by
  obtain ⟨d, hget, rfl⟩ := h.exists_of_node? hn
  rw [Declarations.name_link]
  exact (h.table.of_get? hget).1

theorem object?_eq {name : String} (hname : name ∈ b.objectNames) :
    g.object? name = some ((b.fragments name).node name) := by
  rw [Graph.object?_eq_some_iff, h.node?_eq, h.table.get?_object hname]
  rfl

/-- A resolver of an implementation is behind the field of its name. -/
theorem get?_resolved {i : ObjectImplementation ω} (hi : i ∈ b.parts.implementations)
    {name : String} {r : Resolver ω} (hr : (name, r) ∈ i.resolvers.entries) :
    ∃ o, g.object? i.name = some o ∧
      Dict.get? o.fields name = some (.resolved name r i.bindings) := by
  have hname : i.name ∈ b.objectNames :=
    mem_firstOccurrences.2 (List.mem_append_right _ (List.mem_map_of_mem hi))
  refine ⟨_, h.object?_eq hname, Dict.get?_of_mem ?_ ?_⟩
  · exact (b.fragments i.name).distinct_nodes (h.objectFields _ hname)
  · refine List.mem_append_right _ (List.mem_flatMap.2 ⟨i, ?_, ?_⟩)
    · exact List.mem_filter.2 ⟨hi, by simp⟩
    · exact List.mem_map.2 ⟨_, hr, rfl⟩

end Assembled

end Blueprint

end GraphAssembly
