import GraphAssembly.Proofs.Assembly.Assembled
import GraphAssembly.Proofs.Execution.Rules

/-!
# References of an assembled graph

Every reference of an assembled graph leads to a node of a kind that may be used there, whatever the
registry answers.

1. `TypeRef.MarkedOnce` and `Graph.Admits`: how a type is marked, and where it leads.
2. `Graph.Sound`.
3. Assembled graphs are sound.
-/

namespace GraphAssembly

variable {ω : Type}

/-! ## Types -/

/-- No mark stands directly under another one. -/
def TypeRef.MarkedOnce : TypeRef → Prop
  | .nonNull inner => inner.isNonNull = false ∧ inner.MarkedOnce
  | .list item => item.MarkedOnce
  | _ => True

/-- Whether literals may be coerced at the node. -/
def Node.isCoercible : Node ω → Bool
  | .scalar n => n.codec.isSome
  | .input _ => true
  | _ => false

/-- The nodes that a type may lead to. -/
def Usage.admits : Usage → Node ω → Bool
  | .output => Node.isCompletable
  | .input => Node.isCoercible

/-- The type is built in or leads to a node that may be used in this way. -/
def Graph.Admits (g : Graph ω) (usage : Usage) : TypeRef → Prop
  | .nonNull t | .list t => g.Admits usage t
  | .named name => ∃ n, g.node? name = some n ∧ usage.admits n = true
  | _ => True

theorem TypeRef.markedOnce_ofSpec (spec : FieldSpec) : (TypeRef.ofSpec spec).MarkedOnce := by
  have hname : (TypeRef.ofName spec.typeName).isNonNull = false ∧
      (TypeRef.ofName spec.typeName).MarkedOnce := by
    unfold TypeRef.ofName
    split <;> exact ⟨rfl, trivial⟩
  unfold TypeRef.ofSpec
  dsimp only
  split <;> split
  · exact hname.2
  · exact hname.2
  · exact ⟨rfl, hname.2⟩
  · exact hname

theorem Graph.admits_ofSpec {g : Graph ω} {usage : Usage} {spec : FieldSpec}
    (h : spec.typeName ∉ TypeRef.builtinNames →
      ∃ n, g.node? spec.typeName = some n ∧ usage.admits n = true) :
    g.Admits usage (.ofSpec spec) := by
  have hname : g.Admits usage (.ofName spec.typeName) := by
    unfold TypeRef.ofName
    split
    · trivial
    · trivial
    · trivial
    · trivial
    · trivial
    · refine h fun hb => ?_
      simp only [TypeRef.builtinNames, List.mem_cons, List.not_mem_nil, or_false] at hb
      tauto
  unfold TypeRef.ofSpec
  dsimp only
  split <;> split <;> exact hname

/-! ## Graphs -/

def InputValue.Sound (g : Graph ω) (v : InputValue) : Prop :=
  g.Admits .input v.type ∧ v.type.MarkedOnce

structure FieldNode.Sound (g : Graph ω) (n : FieldNode ω) : Prop where
  type : g.Admits .output n.type
  marked : n.type.MarkedOnce
  arguments : ∀ v ∈ Dict.values n.arguments, v.Sound g

def ObjectNode.Sound (g : Graph ω) (o : ObjectNode ω) : Prop :=
  ∀ n ∈ Dict.values o.fields, n.Sound g

structure Graph.Sound (g : Graph ω) : Prop where
  object : ∀ {name o}, g.object? name = some o → o.Sound g
  interface : ∀ {name} {i : InterfaceNode ω}, g.node? name = some (.interface i) →
    ∀ n ∈ Dict.values i.fields, n.Sound g
  input : ∀ {name} {i : InputNode}, g.node? name = some (.input i) →
    ∀ v ∈ Dict.values i.fields, v.Sound g
  possible : ∀ {name n y}, g.node? name = some n → n.typing? = some y →
    ∀ type ∈ y.possibleTypes, ∃ o, g.object? type = some o

/-! ## Assembled graphs -/

namespace Blueprint

variable {b : Blueprint ω} {c : Configuration} {g : Graph ω} {t : Declarations ω}

/-- The type is written as one that may be used in this way. -/
def Writes (b : Blueprint ω) (usage : Usage) (t : TypeRef) : Prop :=
  ∃ spec, t = .ofSpec spec ∧ b.Suits spec.typeName usage

/-- The type of the field is written so, and those of its arguments are. -/
def NodeWrites (b : Blueprint ω) (n : FieldNode ω) : Prop :=
  b.Writes .output n.type ∧ ∀ v ∈ Dict.values n.arguments, b.Writes .input v.type

theorem writes_ofSpec {spec : FieldSpec} {usage : Usage}
    (h : b.Suits (TypeRef.ofSpec spec).baseName usage) : b.Writes usage (.ofSpec spec) :=
  ⟨spec, rfl, TypeRef.baseName_ofSpec spec ▸ h⟩

namespace Assembled

variable (h : b.Assembled c g t)

include h

theorem linked_of_get? {name : String} {d : Declaration ω} (hd : Dict.get? t name = some d) :
    b.Linked d :=
  h.linked d (mem_values.2 ⟨_, Dict.mem_of_get? hd⟩)

theorem admits {spec : FieldSpec} {usage : Usage} (hsuits : b.Suits spec.typeName usage) :
    g.Admits usage (.ofSpec spec) := by
  refine Graph.admits_ofSpec fun hbuiltin => ?_
  obtain ⟨kind, hkind, hallows⟩ := hsuits
  obtain ⟨d, hget, rfl, hname, hd⟩ := h.table.exists_get? hkind
  refine ⟨_, (h.node?_eq _).trans (congrArg _ hget), ?_⟩
  cases hd with
  | builtin hb => exact absurd (hname ▸ hb) hbuiltin
  | interface | union | object =>
    cases usage with
    | output => rfl
    | input => simp [Usage.Allows, Declaration.kind] at hallows
  | input =>
    cases usage with
    | output => simp [Usage.Allows, Declaration.kind] at hallows
    | input => rfl
  | scalar => cases usage <;> rfl

theorem sound_of_writes {t : TypeRef} {usage : Usage} (ht : b.Writes usage t) :
    g.Admits usage t ∧ t.MarkedOnce := by
  obtain ⟨spec, rfl, hsuits⟩ := ht
  exact ⟨h.admits hsuits, TypeRef.markedOnce_ofSpec spec⟩

theorem sound_of_nodeWrites {n : FieldNode ω} (hn : b.NodeWrites n) : n.Sound g :=
  have htype := h.sound_of_writes hn.1
  ⟨htype.1, htype.2, fun v hv => h.sound_of_writes (hn.2 v hv)⟩

theorem object_writes {name : String} (hname : name ∈ b.objectNames) :
    ∀ n ∈ Dict.values ((b.fragments name).node name).fields, b.NodeWrites n := by
  intro n hn
  obtain ⟨hout, hin⟩ := (h.linked_of_get? (h.table.get?_object hname)).2 n hn
  obtain ⟨k, hn⟩ := mem_values.1 hn
  obtain ⟨f, -, -, hnode⟩ := Fragments.exists_field_of_node hn
  refine ⟨?_, fun v hv => ?_⟩
  · rw [hnode.type] at hout ⊢
    exact writes_ofSpec hout
  · have hv' := hnode.arguments ▸ hv
    obtain ⟨a, -, rfl⟩ := mem_values_inputValues.1 hv'
    exact writes_ofSpec (hin _ hv)

theorem interface_writes {i : InterfaceDefinition ω} (hi : i ∈ b.parts.interfaces) :
    ∀ n ∈ Dict.values (i.fields.entries.map fun (n, type) => (n, FieldNode.plain n type)),
      b.NodeWrites n := by
  intro n hn
  have hout := (h.linked_of_get? (h.table.get?_interface hi) n hn).1
  obtain ⟨k, hn⟩ := mem_values.1 hn
  obtain ⟨⟨field, spec⟩, -, hpair⟩ := List.mem_map.1 hn
  obtain ⟨rfl, rfl⟩ := Prod.mk.inj hpair
  exact ⟨writes_ofSpec hout, nofun⟩

theorem input_writes {i : InputDefinition} (hi : i ∈ b.parts.inputs) :
    ∀ v ∈ Dict.values (i.fields.entries.map fun (n, type) => (n, InputValue.make n type)),
      b.Writes .input v.type := by
  intro v hv
  have hin := h.linked_of_get? (h.table.get?_input hi) v hv
  obtain ⟨k, hv⟩ := mem_values.1 hv
  obtain ⟨⟨field, spec⟩, -, hpair⟩ := List.mem_map.1 hv
  obtain ⟨rfl, rfl⟩ := Prod.mk.inj hpair
  exact writes_ofSpec hin

theorem exists_object_of_implementer {interface type : String}
    (htype : type ∈ t.implementers interface) : ∃ o, g.object? type = some o := by
  obtain ⟨o, ho, rfl⟩ := List.mem_map.1 htype
  obtain ⟨d, hd, hsome⟩ := List.mem_filterMap.1 (List.mem_filter.1 ho).1
  obtain ⟨name, hd⟩ := mem_values.1 hd
  obtain ⟨hname, -⟩ := h.table.entries name d hd
  cases d with
  | object n =>
    obtain rfl := Option.some.inj hsome
    refine ⟨n, Graph.object?_eq_some_iff.2 ?_⟩
    rw [h.node?_eq, Dict.get?_of_mem h.table.distinct (hname ▸ hd)]
    rfl
  | _ => cases hsome

/-- The graph of an assembly is sound. -/
theorem sound : g.Sound := by
  have declared {name : String} {n : Node ω} (hn : g.node? name = some n) :
      ∃ d, b.Declares d ∧ n = t.link c.typeResolution d := by
    obtain ⟨d, hget, rfl⟩ := h.exists_of_node? hn
    exact ⟨d, (h.table.of_get? hget).2.1, rfl⟩
  constructor
  · intro name o ho
    obtain ⟨d, hd, heq⟩ := declared (Graph.object?_eq_some_iff.1 ho)
    cases hd with
    | object hname =>
      cases heq
      exact fun n hn => h.sound_of_nodeWrites (h.object_writes hname n hn)
    | _ => cases heq
  · intro name i hn
    obtain ⟨d, hd, heq⟩ := declared hn
    cases hd with
    | interface hi =>
      cases heq
      exact fun n hn => h.sound_of_nodeWrites (h.interface_writes hi n hn)
    | _ => cases heq
  · intro name i hn
    obtain ⟨d, hd, heq⟩ := declared hn
    cases hd with
    | input hi =>
      cases heq
      exact fun v hv => h.sound_of_writes (h.input_writes hi v hv)
    | _ => cases heq
  · intro name n y hn hy type htype
    obtain ⟨d, hd, rfl⟩ := declared hn
    cases hd with
    | interface hi =>
      cases hy
      exact h.exists_object_of_implementer htype
    | @union u hu =>
      cases hy
      exact ⟨_, h.object?_eq (h.linked_of_get? (h.table.get?_union hu) type htype)⟩
    | _ => cases hy

end Assembled

end Blueprint

end GraphAssembly
