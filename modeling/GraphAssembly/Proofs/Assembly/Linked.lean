import GraphAssembly.Proofs.Assembly.Declared

/-!
# Linked declarations

What the checks on a table of declarations say about the blueprint that it comes from.

1. Look-ups in the table.
2. Possible types and covariance.
3. The fields of an object type and their arguments.
4. The verdict of each check.
-/

namespace GraphAssembly

variable {ω : Type}

namespace Blueprint

variable {b : Blueprint ω} {r : Registry ω} {w : Workshop ω} {t : Declarations ω}

/-! ## Look-ups -/

section Lookups

theorem mem_declaredTypes_object {name : String} (h : name ∈ b.objectNames) :
    (name, NodeKind.object) ∈ b.declaredTypes :=
  List.mem_append_right _ (List.mem_map_of_mem (f := fun name => (name, NodeKind.object)) h)

theorem mem_declaredTypes_interface {i : InterfaceDefinition ω} (hi : i ∈ b.parts.interfaces) :
    (i.name, NodeKind.interface) ∈ b.declaredTypes := by
  simp only [declaredTypes, List.mem_append, List.mem_map]
  exact .inl (.inl (.inl (.inl (.inr ⟨i, hi, rfl⟩))))

theorem mem_declaredTypes_union {u : UnionDefinition ω} (hu : u ∈ b.parts.unions) :
    (u.name, NodeKind.union) ∈ b.declaredTypes := by
  simp only [declaredTypes, List.mem_append, List.mem_map]
  exact .inl (.inl (.inl (.inr ⟨u, hu, rfl⟩)))

theorem mem_declaredTypes_input {i : InputDefinition} (hi : i ∈ b.parts.inputs) :
    (i.name, NodeKind.input) ∈ b.declaredTypes := by
  simp only [declaredTypes, List.mem_append, List.mem_map]
  exact .inl (.inl (.inr ⟨i, hi, rfl⟩))

variable (ht : b.Table b.declaredTypes t)

include ht

theorem Table.nodup : (b.declaredTypes.map Prod.fst).Nodup := ht.keys ▸ ht.distinct

theorem Table.notMem_of_get? {name : String} (h : Dict.get? t name = none) :
    name ∉ b.declaredTypes.map Prod.fst := by
  rw [← ht.keys]
  exact Dict.get?_eq_none_iff.1 h

theorem Table.of_get? {name : String} {d : Declaration ω} (h : Dict.get? t name = some d) :
    d.name = name ∧ b.Declares d ∧ (name, d.kind) ∈ b.declaredTypes := by
  have hmem := Dict.mem_of_get? h
  obtain ⟨hname, hd⟩ := ht.entries name d hmem
  refine ⟨hname, hd, ?_⟩
  rw [← ht.types_eq]
  exact List.mem_map_of_mem (f := fun e : String × Declaration ω => (e.1, e.2.kind)) hmem

theorem Table.exists_get? {name : String} {kind : NodeKind} (h : (name, kind) ∈ b.declaredTypes) :
    ∃ d, Dict.get? t name = some d ∧ d.kind = kind ∧ d.name = name ∧ b.Declares d := by
  rw [← ht.types_eq] at h
  obtain ⟨⟨name', d⟩, hmem, h⟩ := List.mem_map.1 h
  obtain ⟨rfl, rfl⟩ := Prod.mk.inj h
  obtain ⟨hname, hd⟩ := ht.entries name' d hmem
  exact ⟨d, Dict.get?_of_mem ht.distinct hmem, rfl, hname, hd⟩

theorem Table.get?_object {name : String} (h : name ∈ b.objectNames) :
    Dict.get? t name = some (.object ((b.fragments name).node name)) := by
  obtain ⟨d, hget, hkind, rfl, hd⟩ := ht.exists_get? (mem_declaredTypes_object h)
  cases hd with
  | object => exact hget
  | _ => cases hkind

theorem Table.object?_eq_some {name : String} {o : ObjectNode ω} (h : t.object? name = some o) :
    name ∈ b.objectNames ∧ o = (b.fragments name).node name := by
  unfold Declarations.object? at h
  split at h
  · rename_i o' hget
    obtain rfl := Option.some.inj h
    obtain ⟨rfl, hd, _⟩ := ht.of_get? hget
    cases hd with
    | object hname => exact ⟨hname, rfl⟩
  · cases h

theorem Table.object?_isSome_iff {name : String} :
    (t.object? name).isSome = true ↔ name ∈ b.objectNames := by
  constructor
  · intro h
    obtain ⟨o, ho⟩ := Option.isSome_iff_exists.1 h
    exact (ht.object?_eq_some ho).1
  · intro h
    rw [Declarations.object?, ht.get?_object h]
    rfl

theorem Table.get?_interface {i : InterfaceDefinition ω} (hi : i ∈ b.parts.interfaces) :
    Dict.get? t i.name = some (.interface i.name i.description
      (i.fields.entries.map fun (n, type) => (n, .plain n type)) i.chooser) := by
  obtain ⟨d, hget, hkind, hname, hd⟩ := ht.exists_get? (mem_declaredTypes_interface hi)
  cases hd with
  | interface hj =>
    obtain rfl := eq_of_interface_name ht.nodup hj hi hname
    exact hget
  | _ => cases hkind

theorem Table.get?_union {u : UnionDefinition ω} (hu : u ∈ b.parts.unions) :
    Dict.get? t u.name = some (.union u) := by
  obtain ⟨d, hget, hkind, hname, hd⟩ := ht.exists_get? (mem_declaredTypes_union hu)
  cases hd with
  | union hv =>
    obtain rfl := eq_of_union_name ht.nodup hv hu hname
    exact hget
  | _ => cases hkind

theorem Table.get?_input {i : InputDefinition} (hi : i ∈ b.parts.inputs) :
    Dict.get? t i.name = some (.input ⟨i.name, i.description,
      i.fields.entries.map fun (n, type) => (n, .make n type)⟩) := by
  obtain ⟨d, hget, hkind, hname, hd⟩ := ht.exists_get? (mem_declaredTypes_input hi)
  cases hd with
  | input hj =>
    obtain rfl := eq_of_input_name ht.nodup hj hi hname
    exact hget
  | _ => cases hkind

theorem Table.isPossibleType_iff {abstractType object : String} :
    t.isPossibleType abstractType object = true ↔ b.Possible abstractType object := by
  constructor
  · intro h
    unfold Declarations.isPossibleType at h
    split at h
    · rename_i hget
      obtain ⟨rfl, hd, _⟩ := ht.of_get? hget
      cases hd with
      | interface hi =>
        split at h
        · rename_i o ho
          obtain ⟨hname, rfl⟩ := ht.object?_eq_some ho
          exact .interface hi hname (List.contains_iff_mem.1 h)
        · cases h
    · rename_i hget
      obtain ⟨rfl, hd, _⟩ := ht.of_get? hget
      cases hd with
      | union hu => exact .union hu (by simpa using h)
    · cases h
  · intro h
    cases h with
    | interface hi ho h =>
      simp only [Declarations.isPossibleType, ht.get?_interface hi, Declarations.object?,
        ht.get?_object ho]
      exact List.contains_iff_mem.2 h
    | union hu h =>
      simp only [Declarations.isPossibleType, ht.get?_union hu]
      simpa using h

end Lookups

/-! ## Covariance -/

section Covariance

variable {actual expected : TypeRef}

theorem isCovariant_nonNull_left (he : expected.isNonNull = false) :
    t.isCovariant (.nonNull actual) expected = t.isCovariant actual expected := by
  cases expected with
  | nonNull _ => cases he
  | _ => rfl

theorem isCovariant_nonNull_right (ha : actual.isNonNull = false) :
    t.isCovariant actual (.nonNull expected) = false := by
  cases actual with
  | nonNull _ => cases ha
  | _ => rfl

theorem isCovariant_list_left (he : expected.isSingle = true) :
    t.isCovariant (.list actual) expected = false := by
  cases expected with
  | nonNull _ | list _ => cases he
  | _ => rfl

theorem isCovariant_list_right (ha : actual.isSingle = true) :
    t.isCovariant actual (.list expected) = false := by
  cases actual with
  | nonNull _ | list _ => cases ha
  | _ => rfl

theorem isCovariant_single (ha : actual.isSingle = true) (he : expected.isSingle = true) :
    t.isCovariant actual expected = (actual.baseName = expected.baseName ||
      t.isPossibleType expected.baseName actual.baseName) := by
  cases actual with
  | nonNull _ | list _ => cases ha
  | _ =>
    cases expected with
    | nonNull _ | list _ => cases he
    | _ => rfl

/-- The declared type but for its mark. -/
def unmarkedOf (spec : FieldSpec) : TypeRef :=
  if spec.list then .list (.ofName spec.typeName) else .ofName spec.typeName

theorem isNonNull_unmarkedOf (spec : FieldSpec) : (unmarkedOf spec).isNonNull = false := by
  have := TypeRef.isSingle_ofName spec.typeName
  unfold unmarkedOf
  split
  · rfl
  · cases h : TypeRef.ofName spec.typeName with
    | nonNull _ =>
      rw [h] at this
      cases this
    | _ => rfl

theorem Table.isCovariant_unmarkedOf (ht : b.Table b.declaredTypes t)
    (actual expected : FieldSpec) :
    t.isCovariant (unmarkedOf actual) (unmarkedOf expected) = true ↔
      actual.list = expected.list ∧
        (actual.typeName = expected.typeName ∨ b.Possible expected.typeName actual.typeName) := by
  have ha := TypeRef.isSingle_ofName actual.typeName
  have he := TypeRef.isSingle_ofName expected.typeName
  have hbase : t.isCovariant (.ofName actual.typeName) (.ofName expected.typeName) = true ↔
      actual.typeName = expected.typeName ∨ b.Possible expected.typeName actual.typeName := by
    rw [isCovariant_single ha he, Bool.or_eq_true, TypeRef.baseName_ofName,
      TypeRef.baseName_ofName, ht.isPossibleType_iff, decide_eq_true_iff]
  unfold unmarkedOf
  cases actual.list <;> cases expected.list
  · simpa using hbase
  · simp [isCovariant_list_right ha]
  · simp [isCovariant_list_left he]
  · simpa [Declarations.isCovariant] using hbase

theorem Table.isCovariant_iff (ht : b.Table b.declaredTypes t) {actual expected : FieldSpec} :
    t.isCovariant (.ofSpec actual) (.ofSpec expected) = true ↔ b.Covariant actual expected := by
  have hspec : ∀ spec, TypeRef.ofSpec spec =
      if spec.nullable then unmarkedOf spec else .nonNull (unmarkedOf spec) := fun _ => rfl
  have hinner := ht.isCovariant_unmarkedOf actual expected
  have hcovariant : b.Covariant actual expected ↔
      (actual.nullable = true → expected.nullable = true) ∧
      t.isCovariant (unmarkedOf actual) (unmarkedOf expected) = true := by
    rw [hinner]
    exact ⟨fun ⟨h₁, h₂, h₃⟩ => ⟨h₂, h₁, h₃⟩, fun ⟨h₂, h₁, h₃⟩ => ⟨h₁, h₂, h₃⟩⟩
  rw [hcovariant, hspec, hspec]
  -- only a mark that is expected and missing is refused
  cases actual.nullable <;> cases expected.nullable
  · simp [Declarations.isCovariant]
  · simp [isCovariant_nonNull_left (isNonNull_unmarkedOf expected)]
  · simp [isCovariant_nonNull_right (isNonNull_unmarkedOf actual)]
  · simp

end Covariance

end Blueprint

/-! ## Fields -/

/-- The node of a declared field. -/
structure FieldDeclaration.IsNode (f : FieldDeclaration) (n : FieldNode ω) : Prop where
  name : n.name = f.name
  type : n.type = .ofSpec f.type
  arguments : n.arguments = Parameter.inputValues f.parameters

namespace Fragments

variable {f : Fragments ω}

theorem exists_field_of_node {name : String} {n : FieldNode ω} (h : (name, n) ∈ f.nodes) :
    ∃ x ∈ f.fields, x.name = name ∧ x.IsNode n := by
  simp only [nodes, List.mem_append, List.mem_flatMap, List.mem_map] at h
  rcases h with ⟨d, hd, ⟨_, type⟩, hmem, h⟩ | ⟨i, hi, ⟨_, r⟩, hmem, h⟩
  · obtain ⟨rfl, rfl⟩ := Prod.mk.inj h
    refine ⟨⟨_, type, []⟩, List.mem_append_left _ ?_, rfl, rfl, rfl, rfl⟩
    exact List.mem_flatMap.2 ⟨d, hd, List.mem_map.2 ⟨_, hmem, rfl⟩⟩
  · obtain ⟨rfl, rfl⟩ := Prod.mk.inj h
    refine ⟨⟨_, r.field, r.parameters⟩, List.mem_append_right _ ?_, rfl, rfl, rfl, rfl⟩
    exact List.mem_flatMap.2 ⟨i, hi, List.mem_map.2 ⟨_, hmem, rfl⟩⟩

theorem exists_node_of_field {x : FieldDeclaration} (h : x ∈ f.fields) :
    ∃ n, (x.name, n) ∈ f.nodes ∧ x.IsNode n := by
  simp only [fields, List.mem_append, List.mem_flatMap, List.mem_map] at h
  rcases h with ⟨d, hd, ⟨name, type⟩, hmem, rfl⟩ | ⟨i, hi, ⟨name, r⟩, hmem, rfl⟩
  · refine ⟨.plain name type, List.mem_append_left _ ?_, rfl, rfl, rfl⟩
    exact List.mem_flatMap.2 ⟨d, hd, List.mem_map.2 ⟨_, hmem, rfl⟩⟩
  · refine ⟨.resolved name r i.bindings, List.mem_append_right _ ?_, rfl, rfl, rfl⟩
    exact List.mem_flatMap.2 ⟨i, hi, List.mem_map.2 ⟨_, hmem, rfl⟩⟩

end Fragments

theorem mem_values {α : Type} {d : Dict α} {v : α} : v ∈ Dict.values d ↔ ∃ k, (k, v) ∈ d := by
  simp [Dict.values]

/-- The arguments of a field are those it takes. -/
theorem mem_values_inputValues {f : FieldDeclaration} {v : InputValue} :
    v ∈ Dict.values (Parameter.inputValues f.parameters) ↔
      ∃ a, f.Takes a ∧ v = .make a.name a.type := by
  have hkeys : ∀ ps : List Parameter,
      Dict.keys (ps.map fun a => (a.name, InputValue.make a.name a.type)) = ps.map (·.name) :=
    fun ps => by simp [Dict.keys, Function.comp_def]
  rw [mem_values, Parameter.inputValues]
  constructor
  · rintro ⟨k, h⟩
    obtain ⟨before, after, heq, hk⟩ :=
      Dict.get?_ofList_eq_some_iff.1 (Dict.get?_of_mem (Dict.distinct_ofList _) h)
    obtain ⟨ps, rest, hps, -, hrest⟩ := List.map_eq_append_iff.1 heq
    obtain ⟨a, later, rfl, ha, rfl⟩ := List.map_eq_cons_iff.1 hrest
    obtain ⟨rfl, rfl⟩ := Prod.mk.inj ha
    exact ⟨a, ⟨ps, later, hps, hkeys later ▸ hk⟩, rfl⟩
  · rintro ⟨a, ⟨ps, later, hps, hlater⟩, rfl⟩
    have hsplit := congrArg (List.map fun a => (a.name, InputValue.make a.name a.type)) hps
    rw [List.map_append, List.map_cons] at hsplit
    refine ⟨a.name, Dict.mem_of_get? (Dict.get?_ofList_eq_some_iff.2 ⟨_, _, hsplit, ?_⟩)⟩
    rwa [hkeys]

/-! ## Verdicts -/

namespace Blueprint

/-- The types that a field and its arguments refer to suit them. -/
def NodeSuits (b : Blueprint ω) (n : FieldNode ω) : Prop :=
  b.Suits n.type.baseName .output ∧ ∀ v ∈ Dict.values n.arguments, b.Suits v.type.baseName .input

variable {b : Blueprint ω} {r : Registry ω} {w : Workshop ω} {t : Declarations ω}
  (ht : b.Table b.declaredTypes t)

theorem suits_iff {d : Declaration ω} {usage : Usage} :
    d.suits usage = true ↔ usage.Allows d.kind := by
  cases usage <;> simp [Declaration.suits, Usage.Allows]

include ht

theorem Table.checkReference {parent field : String} {type : TypeRef} {usage : Usage}
    (h : b.Refers parent field type.baseName usage) :
    Verdict (fun _ => b.Suits type.baseName usage) (b.Violation r w)
      (t.checkReference parent field type usage) := by
  unfold Declarations.checkReference
  split
  · rename_i hget
    exact .error (.unknownType h (ht.notMem_of_get? hget))
  · rename_i d hget
    obtain ⟨-, -, hmem⟩ := ht.of_get? hget
    split
    · rename_i hsuits
      exact .ok ⟨d.kind, hmem, suits_iff.1 hsuits⟩
    · rename_i hsuits
      exact .error (.invalidFieldType h hmem fun hallows => hsuits (suits_iff.2 hallows))

/-- A field and its arguments refer to types that they may refer to. -/
theorem Table.checkField {parent : String} {n : FieldNode ω}
    (hout : b.Refers parent n.name n.type.baseName .output)
    (hin : ∀ v ∈ Dict.values n.arguments, b.Refers parent n.name v.type.baseName .input) :
    Verdict (fun _ => b.NodeSuits n) (b.Violation r w) (t.checkField parent n) :=
  (ht.checkReference hout).bind fun _ hout =>
    (Verdict.forM fun v hv => ht.checkReference (hin v hv)).mono fun _ hin => ⟨hout, hin⟩

theorem Table.checkObjectFields {object : String} (ho : object ∈ b.objectNames) :
    Verdict (fun _ => ∀ n ∈ Dict.values (b.fragments object).nodes, b.NodeSuits n)
      (b.Violation r w) (t.checkFields object (b.fragments object).nodes) := by
  refine Verdict.forM fun n hn => ?_
  obtain ⟨name, hn⟩ := mem_values.1 hn
  obtain ⟨f, hf, -, hnode⟩ := Fragments.exists_field_of_node hn
  have hbase := TypeRef.baseName_ofSpec
  refine ht.checkField ?_ fun v hv => ?_
  · rw [hnode.name, hnode.type, hbase]
    exact .object ho hf
  · rw [hnode.arguments] at hv
    obtain ⟨a, ha, rfl⟩ := mem_values_inputValues.1 hv
    rw [hnode.name, show (InputValue.make a.name a.type).type = .ofSpec a.type from rfl, hbase]
    exact .argument ho hf ha

theorem Table.checkInterfaceFields {i : InterfaceDefinition ω} (hi : i ∈ b.parts.interfaces) :
    Verdict (fun _ => ∀ n ∈ Dict.values (i.fields.entries.map fun (n, type) =>
        (n, FieldNode.plain (ω := ω) n type)), b.NodeSuits n)
      (b.Violation r w) (t.checkFields i.name
        (i.fields.entries.map fun (n, type) => (n, .plain n type))) := by
  refine Verdict.forM fun n hn => ?_
  obtain ⟨name, hn⟩ := mem_values.1 hn
  obtain ⟨⟨field, spec⟩, hmem, h⟩ := List.mem_map.1 hn
  obtain ⟨rfl, rfl⟩ := Prod.mk.inj h
  refine ht.checkField ?_ nofun
  rw [show (FieldNode.plain field spec).type = .ofSpec spec from rfl, TypeRef.baseName_ofSpec]
  exact .interface hi hmem

theorem Table.checkInputFields {i : InputDefinition} (hi : i ∈ b.parts.inputs) :
    Verdict (fun _ => ∀ v ∈ Dict.values (i.fields.entries.map fun (n, type) =>
        (n, InputValue.make n type)), b.Suits v.type.baseName .input)
      (b.Violation r w) ((Dict.values (i.fields.entries.map fun (n, type) =>
        (n, InputValue.make n type))).forM fun f =>
          t.checkReference i.name f.name f.type .input) := by
  refine Verdict.forM fun v hv => ht.checkReference ?_
  obtain ⟨name, hv⟩ := mem_values.1 hv
  obtain ⟨⟨field, spec⟩, hmem, h⟩ := List.mem_map.1 hv
  obtain ⟨rfl, rfl⟩ := Prod.mk.inj h
  rw [show (InputValue.make field spec).type = .ofSpec spec from rfl, TypeRef.baseName_ofSpec]
  exact .input hi hmem

/-! ### Interfaces -/

section Interfaces

variable {object : String} (ho : object ∈ b.objectNames) {i : InterfaceDefinition ω}
  (hi : i ∈ b.parts.interfaces) (hn : i.name ∈ (b.fragments object).implements)

include ho hi hn

theorem Table.checkInterfaceField {field : String} {spec : FieldSpec}
    (hf : (field, spec) ∈ i.fields.entries) :
    Verdict (fun _ => ∃ f ∈ (b.fragments object).fields, f.name = field ∧ b.Covariant f.type spec)
      (b.Violation r w) ((t.checkInterfaceField ((b.fragments object).node object)
        (.plain field spec)).mapError (.invalidImplementation object i.name field)) := by
  unfold Declarations.checkInterfaceField
  split
  · rename_i hget
    refine .error (.missingField ho hi hn hf fun f hmem hname => ?_)
    obtain ⟨n, hnode, _⟩ := Fragments.exists_node_of_field hmem
    refine Dict.get?_eq_none_iff.1 hget ?_
    exact List.mem_map.2 ⟨_, hnode, hname⟩
  · rename_i n hget
    obtain ⟨f, hmem, hname, hnode⟩ := Fragments.exists_field_of_node (Dict.mem_of_get? hget)
    obtain rfl : f.name = field := hname
    rw [hnode.type, show (FieldNode.plain f.name spec).type = .ofSpec spec from rfl]
    split
    · rename_i hcovariant
      exact .ok ⟨f, hmem, rfl, ht.isCovariant_iff.1 hcovariant⟩
    · rename_i hcovariant
      exact .error (.incompatible ho hi hn hmem hf fun h => hcovariant (ht.isCovariant_iff.2 h))

theorem Table.checkImplementation :
    Verdict (fun _ => b.Implements object i) (b.Violation r w)
      (t.checkImplementation ((b.fragments object).node object) i.name
        (i.fields.entries.map fun (n, type) => (n, .plain n type))) := by
  unfold Declarations.checkImplementation
  rw [Dict.values, List.map_map]
  refine (Verdict.forM_map (P := fun x => ∃ f ∈ (b.fragments object).fields,
    f.name = x.1 ∧ b.Covariant f.type x.2) ?_).mono ?_
  · exact fun x hx => ht.checkInterfaceField ho hi hn hx
  · exact fun _ h field spec hf => h (field, spec) hf

end Interfaces

theorem Table.checkInterface {object name : String} (ho : object ∈ b.objectNames)
    (hn : name ∈ (b.fragments object).implements) :
    Verdict (fun _ => ∃ i ∈ b.parts.interfaces, i.name = name ∧ b.Implements object i)
      (b.Violation r w) (t.checkInterface ((b.fragments object).node object) name) := by
  unfold Declarations.checkInterface
  split
  · rename_i hget
    obtain ⟨rfl, hd, -⟩ := ht.of_get? hget
    cases hd with
    | interface hi =>
      exact (ht.checkImplementation ho hi hn).mono fun _ h => ⟨_, hi, rfl, h⟩
  · rename_i hget
    refine .error (.unknownInterface ho hn ?_)
    rintro i hi rfl
    exact hget _ _ _ _ (ht.get?_interface hi)

/-! ### Tables -/

/-- What the check of a declaration ensures. -/
def Linked (b : Blueprint ω) : Declaration ω → Prop
  | .object o =>
    (∀ name ∈ o.implements, ∃ i ∈ b.parts.interfaces, i.name = name ∧ b.Implements o.name i) ∧
      ∀ n ∈ Dict.values o.fields, b.NodeSuits n
  | .interface _ _ fields _ => ∀ n ∈ Dict.values fields, b.NodeSuits n
  | .input n => ∀ v ∈ Dict.values n.fields, b.Suits v.type.baseName .input
  | .union u => ∀ member ∈ u.members, member ∈ b.objectNames
  | .scalar _ => True

theorem Table.check {d : Declaration ω} (hd : b.Declares d) :
    Verdict (fun _ => b.Linked d) (b.Violation r w) (t.check d) := by
  cases hd with
  | builtin | scalar => exact .ok trivial
  | interface hi => exact ht.checkInterfaceFields hi
  | input hi => exact ht.checkInputFields hi
  | union hu =>
    refine Verdict.forM fun member hm => ?_
    unfold Declarations.checkMember
    split
    · exact .ok (ht.object?_isSome_iff.1 ‹_›)
    · exact .error (.invalidUnionMember hu hm fun h => ‹¬ _› (ht.object?_isSome_iff.2 h))
  | object ho =>
    refine (Verdict.forM fun name hn => ht.checkInterface ho hn).bind fun _ hinterfaces => ?_
    exact (ht.checkObjectFields ho).mono fun _ hfields => ⟨hinterfaces, hfields⟩

theorem Table.checkAll :
    Verdict (fun _ => ∀ d ∈ Dict.values t, b.Linked d) (b.Violation r w) t.checkAll := by
  refine Verdict.forM fun d hd => ?_
  obtain ⟨name, hd⟩ := mem_values.1 hd
  exact ht.check (ht.entries name d hd).2

theorem Table.checkRoots :
    Verdict (fun _ => b.rootQuery ∈ b.objectNames ∧
      ∀ name, b.rootMutation = some name → name ∈ b.objectNames)
      (b.Violation r w) (b.checkRoots t) := by
  have habsent : ∀ {name}, (t.object? name).isNone = true ↔ name ∉ b.objectNames := by
    intro name
    rw [← ht.object?_isSome_iff, ← Option.not_isSome, Bool.not_eq_true']
    simp
  unfold Blueprint.checkRoots
  split
  · exact .error (.missingRootQuery (habsent.1 ‹_›))
  · rename_i hquery
    have hquery : b.rootQuery ∈ b.objectNames := by
      by_contra h
      exact hquery (habsent.2 h)
    split
    · rename_i hm
      exact .ok ⟨hquery, fun name h => by cases hm.symm.trans h⟩
    · rename_i m hm
      split
      · exact .error (.invalidRootMutation hm (habsent.1 ‹_›))
      · rename_i hmutation
        refine .ok ⟨hquery, fun name h => ?_⟩
        obtain rfl := Option.some.inj (hm.symm.trans h)
        by_contra h
        exact hmutation (habsent.2 h)

theorem Table.references (h : ∀ d ∈ Dict.values t, b.Linked d) {parent field type : String}
    {usage : Usage} (hrefers : b.Refers parent field type usage) : b.Suits type usage := by
  have hlinked : ∀ {name d}, Dict.get? t name = some d → b.Linked d :=
    fun hget => h _ (mem_values.2 ⟨_, Dict.mem_of_get? hget⟩)
  have hbase := TypeRef.baseName_ofSpec
  cases hrefers with
  | object ho hf =>
    obtain ⟨n, hn, hnode⟩ := Fragments.exists_node_of_field hf
    have hsuits := ((hlinked (ht.get?_object ho)).2 n (mem_values.2 ⟨_, hn⟩)).1
    rwa [hnode.type, hbase] at hsuits
  | argument ho hf ha =>
    obtain ⟨n, hn, hnode⟩ := Fragments.exists_node_of_field hf
    have hsuits := ((hlinked (ht.get?_object ho)).2 n (mem_values.2 ⟨_, hn⟩)).2 _
      (hnode.arguments ▸ mem_values_inputValues.2 ⟨_, ha, rfl⟩)
    rwa [show (InputValue.make _ _).type = .ofSpec _ from rfl, hbase] at hsuits
  | @interface i field spec hi hf =>
    have hsuits := (hlinked (ht.get?_interface hi) (.plain field spec)
      (mem_values.2 ⟨field, List.mem_map.2 ⟨_, hf, rfl⟩⟩)).1
    rwa [show (FieldNode.plain field spec).type = .ofSpec _ from rfl, hbase] at hsuits
  | @input i field spec hi hf =>
    have hsuits := hlinked (ht.get?_input hi) (.make field spec)
      (mem_values.2 ⟨field, List.mem_map.2 ⟨_, hf, rfl⟩⟩)
    rwa [show (InputValue.make field spec).type = .ofSpec _ from rfl, hbase] at hsuits

end Blueprint

end GraphAssembly
