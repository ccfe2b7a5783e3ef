import GraphAssembly.Proofs.Assembly.Exactness
import GraphAssembly.Proofs.Assembly.References
import GraphAssembly.Proofs.Printing.Spelling

/-!
# Names of a graph

If the types, fields and arguments of an assembled graph have names as the schema definition
language has them, then the graph is legible: all that is printed of it consists of such names.

1. The names of a graph.
2. Assembled graphs are legible.
-/

namespace GraphAssembly

open Sdl

variable {ω : Type}

/-! ## Names -/

namespace Node

/-- The fields of an object type or an interface. -/
def fields : Node ω → List (FieldNode ω)
  | .object n => Dict.values n.fields
  | .interface n => Dict.values n.fields
  | _ => []

/-- The fields of an input. -/
def inputs : Node ω → List InputValue
  | .input n => Dict.values n.fields
  | _ => []

end Node

def FieldNode.names (f : FieldNode ω) : List String :=
  f.name :: (Dict.values f.arguments).map (·.name)

/-- The names of the type, of its fields and of their arguments. -/
def Node.names (n : Node ω) : List String :=
  n.name :: (n.fields.flatMap FieldNode.names ++ n.inputs.map (·.name))

def Graph.names (g : Graph ω) : List String := (Dict.values g.nodes).flatMap Node.names

def Graph.WellNamed (g : Graph ω) : Prop := ∀ name ∈ g.names, isName name = true

instance (g : Graph ω) : Decidable g.WellNamed :=
  inferInstanceAs (Decidable (∀ name ∈ g.names, isName name = true))

theorem Sdl.legible_ofSpec {spec : FieldSpec} (h : isName spec.typeName = true) :
    Legible (.ofSpec spec) := by
  have hname : Legible (.ofName spec.typeName) := by
    by_cases hbuiltin : spec.typeName ∈ TypeRef.builtinNames
    · simp only [TypeRef.builtinNames, List.mem_cons, List.not_mem_nil, or_false] at hbuiltin
      rcases hbuiltin with hb | hb | hb | hb | hb <;> rw [hb] <;> trivial
    · have hself : TypeRef.ofName spec.typeName = .named spec.typeName := by
        unfold TypeRef.ofName
        split <;> simp_all [TypeRef.builtinNames]
      rw [hself]
      exact ⟨h, hself⟩
  unfold TypeRef.ofSpec
  dsimp only
  split <;> split <;> exact hname

/-! ## Assembled graphs -/

namespace Blueprint.Assembled

variable {b : Blueprint ω} {c : Configuration} {g : Graph ω} {t : Declarations ω}
  (h : b.Assembled c g t)

include h

section Legible

variable (hnames : g.WellNamed)

include hnames

theorem isName_of_node? {name : String} {n : Node ω} (hn : g.node? name = some n) :
    isName name = true := by
  refine hnames name (List.mem_flatMap.2 ⟨n, ?_, ?_⟩)
  · exact mem_values.2 ⟨name, Dict.mem_of_get? hn⟩
  · rw [← h.name_of_node? hn]
    exact List.mem_cons_self

theorem isName_of_get? {name : String} {d : Declaration ω} (hd : Dict.get? t name = some d) :
    isName name = true :=
  h.isName_of_node? hnames ((h.node?_eq name).trans (congrArg _ hd))

theorem isName_of_objectName {name : String} (hname : name ∈ b.objectNames) :
    isName name = true :=
  h.isName_of_get? hnames (h.table.get?_object hname)

theorem legible_of_writes {type : TypeRef} {usage : Usage} (htype : b.Writes usage type) :
    Legible type := by
  obtain ⟨spec, rfl, kind, hkind, -⟩ := htype
  obtain ⟨d, hget, -⟩ := h.table.exists_get? hkind
  exact legible_ofSpec (h.isName_of_get? hnames hget)

theorem legible_field {f : FieldNode ω} (hf : ∀ name ∈ f.names, isName name = true)
    (hwrites : b.NodeWrites f) : f.toField.Legible := by
  obtain ⟨hname, harguments⟩ := List.forall_mem_cons.1 hf
  refine ⟨hname, fun a ha => ?_, h.legible_of_writes hnames hwrites.1⟩
  obtain ⟨v, hv, rfl⟩ := List.mem_map.1 ha
  exact ⟨harguments _ (List.mem_map_of_mem hv), h.legible_of_writes hnames (hwrites.2 v hv)⟩

theorem legible_fields {fields : Dict (FieldNode ω)}
    (hf : ∀ name ∈ (Dict.values fields).flatMap FieldNode.names, isName name = true)
    (hwrites : ∀ f ∈ Dict.values fields, b.NodeWrites f) :
    ∀ f ∈ (Dict.values fields).map FieldNode.toField, f.Legible := by
  intro _ hfield
  obtain ⟨f, hmem, rfl⟩ := List.mem_map.1 hfield
  exact h.legible_field hnames (fun name hname => hf name (List.mem_flatMap.2 ⟨f, hmem, hname⟩))
    (hwrites f hmem)

theorem legible_node {n : Node ω} (hn : n ∈ Dict.values g.nodes) : n.toDefinition.Legible := by
  have hnames' : ∀ name ∈ n.names, isName name = true :=
    fun name hname => hnames name (List.mem_flatMap.2 ⟨n, hn, hname⟩)
  obtain ⟨hname, hrest⟩ := List.forall_mem_cons.1 hnames'
  obtain ⟨hfields, hinputs⟩ := List.forall_mem_append.1 hrest
  obtain ⟨d, hget, rfl⟩ := h.exists_of_mem hn
  have hlinked := h.linked_of_get? hget
  obtain ⟨-, hdeclares, -⟩ := h.table.of_get? hget
  cases hdeclares with
  | builtin | scalar => exact hname
  | interface hi => exact ⟨hname, h.legible_fields hnames hfields (h.interface_writes hi)⟩
  | union => exact ⟨hname, fun m hm => h.isName_of_objectName hnames (hlinked m hm)⟩
  | input hi =>
    refine ⟨hname, fun _ hfield => ?_⟩
    obtain ⟨v, hv, rfl⟩ := List.mem_map.1 hfield
    exact ⟨hinputs _ (List.mem_map_of_mem hv), h.legible_of_writes hnames (h.input_writes hi v hv)⟩
  | object ho =>
    refine ⟨hname, fun name hmem => ?_, h.legible_fields hnames hfields (h.object_writes ho)⟩
    obtain ⟨i, hi, rfl, -⟩ := hlinked.1 name hmem
    exact h.isName_of_get? hnames (h.table.get?_interface hi)

end Legible

end Blueprint.Assembled

namespace Blueprint

variable {b : Blueprint ω} {r : Registry ω} {w : Workshop ω} {c : Configuration} {g : Graph ω}

/-- The roots of an assembled graph are object types. -/
theorem object?_roots (h : ((b.assemble r c) w).1 = .ok g) :
    (∃ o, g.object? g.query = some o) ∧
      ∀ name, g.mutation = some name → ∃ o, g.object? name = some o := by
  obtain ⟨t, ht, hlink⟩ := exists_linked h
  have hassembled : b.Assembled c g t := .of_link ht hlink
  obtain ⟨-, hquery, hmutation⟩ := (hassembled.table.link (r := r) (w := w) c).of_eq_ok hlink
  rw [hassembled.query_eq, hassembled.mutation_eq]
  exact ⟨⟨_, hassembled.object?_eq hquery⟩,
    fun name hname => ⟨_, hassembled.object?_eq (hmutation name hname)⟩⟩

theorem isName_roots (h : ((b.assemble r c) w).1 = .ok g) (hnames : g.WellNamed) :
    isName g.query = true ∧ ∀ name, g.mutation = some name → isName name = true := by
  obtain ⟨t, ht⟩ := exists_assembled h
  obtain ⟨⟨o, ho⟩, hmutation⟩ := object?_roots h
  refine ⟨ht.isName_of_node? hnames (Graph.object?_eq_some_iff.1 ho), fun name hname => ?_⟩
  obtain ⟨o, ho⟩ := hmutation name hname
  exact ht.isName_of_node? hnames (Graph.object?_eq_some_iff.1 ho)

/-- The document of a graph is read from its text. -/
theorem read_toSdl_of_assemble (h : ((b.assemble r c) w).1 = .ok g) (hnames : g.WellNamed) :
    read g.toSdl = some g.document := by
  obtain ⟨t, ht⟩ := exists_assembled h
  obtain ⟨hquery, hmutation⟩ := isName_roots h hnames
  refine Graph.read_toSdl (List.forall_mem_append.2 ⟨fun d hd => ?_, fun d hd => ?_⟩)
  · obtain ⟨operations, hroots, rfl⟩ : ∃ os, g.listedRoots = some os ∧ .schema os = d := by
      simpa using hd
    obtain ⟨-, hroots⟩ := Option.ite_none_left_eq_some.1 hroots
    cases hroots
    have hkeywords : isName "query" = true ∧ isName "mutation" = true := ⟨rfl, rfl⟩
    refine List.forall_mem_cons.2 ⟨⟨hkeywords.1, hquery⟩, fun operation ho => ?_⟩
    obtain ⟨name, hname, rfl⟩ :
        ∃ name, g.mutation = some name ∧ ("mutation", name) = operation := by
      simpa using ho
    exact ⟨hkeywords.2, hmutation name hname⟩
  · obtain ⟨n, hn, rfl⟩ := List.mem_map.1 hd
    exact ht.legible_node hnames (List.mem_filter.1 hn).1

end Blueprint

end GraphAssembly
