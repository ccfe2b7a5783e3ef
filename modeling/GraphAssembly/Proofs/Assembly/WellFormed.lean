import GraphAssembly.Schema
import Mathlib.Data.List.Duplicate
import Mathlib.Data.List.Flatten
import Mathlib.Data.List.Nodup

/-!
# Well-formed blueprints

When a blueprint describes a graph, in terms of its components alone: no table of declarations, and
no order in which anything is looked at.

1. What a blueprint declares: types and their kinds, the fields of an object, references to types.
2. `Covariant`: whether a field may stand in for one of an interface.
3. `WellFormed`.
4. `Violation`: what an error of the assembly says about the blueprint.
-/

namespace GraphAssembly

variable {ω : Type}

/-! ## What is declared -/

/-- A field of an object type. One that is read from a property has no parameters. -/
structure FieldDeclaration where
  name : String
  type : FieldSpec
  parameters : List Parameter

/-- The parameter is an argument of the field: the last one of its name. -/
def FieldDeclaration.Takes (f : FieldDeclaration) (a : Parameter) : Prop :=
  ∃ before after, f.parameters = before ++ a :: after ∧ a.name ∉ after.map (·.name)

namespace Fragments

/-- The names of all fields that the fragments declare, as often as they declare them. -/
def declared (f : Fragments ω) : List String :=
  f.definitions.flatMap (·.fields.declared) ++ f.implementations.flatMap (·.resolvers.declared)

def fields (f : Fragments ω) : List FieldDeclaration :=
  (f.definitions.flatMap fun d => d.fields.entries.map fun (name, type) => ⟨name, type, []⟩) ++
    f.implementations.flatMap fun i =>
      i.resolvers.entries.map fun (name, r) => ⟨name, r.field, r.parameters⟩

theorem map_name_fields_sublist (f : Fragments ω) : (f.fields.map (·.name)).Sublist f.declared := by
  have h : ∀ {α β : Type} {xs : List α} (m : α → Members β),
      (xs.flatMap fun x => Dict.keys (m x).entries).Sublist (xs.flatMap fun x => (m x).declared) :=
    fun m => List.Sublist.flatMap_right _ fun x _ => List.sublist_append_left _ _
  simp only [fields, List.map_append, List.map_flatMap, List.map_map]
  exact (h _).append (h _)

theorem eq_of_field_name {f : Fragments ω} (h : f.declared.Nodup) {x y : FieldDeclaration}
    (hx : x ∈ f.fields) (hy : y ∈ f.fields) (hname : x.name = y.name) : x = y :=
  List.inj_on_of_nodup_map (h.sublist f.map_name_fields_sublist) hx hy hname

end Fragments

/-- Where a type of the kind may be used. -/
def Usage.Allows : Usage → NodeKind → Prop
  | .output, kind => kind ≠ .input
  | .input, kind => kind = .scalar ∨ kind = .input

namespace Blueprint

variable (b : Blueprint ω)

def parts : Parts ω := .ofComponents b.components

/-- The object types, each with a definition or an implementation. -/
def objectNames : List String :=
  firstOccurrences (b.parts.definitions.map (·.name) ++ b.parts.implementations.map (·.name))

/-- All fragments of one object type. -/
def fragments (object : String) : Fragments ω where
  definitions := b.parts.definitions.filter (·.name = object)
  implementations := b.parts.implementations.filter (·.name = object)

/-- All types, the built-in scalars included. The fragments of an object type declare it once. -/
def declaredTypes : List (String × NodeKind) :=
  TypeRef.builtinNames.map (fun name => (name, .scalar))
    ++ b.parts.interfaces.map (fun i => (i.name, .interface))
    ++ b.parts.unions.map (fun u => (u.name, .union))
    ++ b.parts.inputs.map (fun i => (i.name, .input))
    ++ b.parts.scalars.map (fun s => (s.name, .scalar))
    ++ b.objectNames.map (fun name => (name, .object))

/-- A field of some type, or one of its arguments, refers to another type. -/
inductive Refers : (parent field type : String) → Usage → Prop
  | object {object : String} {f : FieldDeclaration} (ho : object ∈ b.objectNames)
    (hf : f ∈ (b.fragments object).fields) : Refers object f.name f.type.typeName .output
  | argument {object : String} {f : FieldDeclaration} {a : Parameter} (ho : object ∈ b.objectNames)
    (hf : f ∈ (b.fragments object).fields) (ha : f.Takes a) :
    Refers object f.name a.type.typeName .input
  | interface {i : InterfaceDefinition ω} {field : String} {spec : FieldSpec}
    (hi : i ∈ b.parts.interfaces) (hf : (field, spec) ∈ i.fields.entries) :
    Refers i.name field spec.typeName .output
  | input {i : InputDefinition} {field : String} {spec : FieldSpec} (hi : i ∈ b.parts.inputs)
    (hf : (field, spec) ∈ i.fields.entries) : Refers i.name field spec.typeName .input

/-- A declared type may be used in this way. -/
def Suits (type : String) (usage : Usage) : Prop :=
  ∃ kind, (type, kind) ∈ b.declaredTypes ∧ usage.Allows kind

/-! ## Interfaces of an object type -/

/-- The object type is one of an interface that it implements, or of a union that lists it. -/
inductive Possible : (abstractType object : String) → Prop
  | interface {i : InterfaceDefinition ω} {object : String} (hi : i ∈ b.parts.interfaces)
    (ho : object ∈ b.objectNames) (h : i.name ∈ (b.fragments object).implements) :
    Possible i.name object
  | union {u : UnionDefinition ω} {object : String} (hu : u ∈ b.parts.unions)
    (h : object ∈ u.members) : Possible u.name object

/-- A field may stand in for another if it is a list just if that one is, is null only if that one
may be, and is of the same type or a possible one. -/
structure Covariant (actual expected : FieldSpec) : Prop where
  list : actual.list = expected.list
  nullable : actual.nullable = true → expected.nullable = true
  type : actual.typeName = expected.typeName ∨ b.Possible expected.typeName actual.typeName

/-- The object type has all fields of the interface. -/
def Implements (object : String) (i : InterfaceDefinition ω) : Prop :=
  ∀ field spec, (field, spec) ∈ i.fields.entries →
    ∃ f ∈ (b.fragments object).fields, f.name = field ∧ b.Covariant f.type spec

/-! ## Well-formedness -/

end Blueprint

/-- Asked for the token in this state, the registry answers with a codec. -/
def Registry.HasCodec (r : Registry ω) (w : Workshop ω) (t : Token) : Prop :=
  ∃ i, (r.resolve t w).1 = .ok i ∧ i.asCodec?.isSome = true

namespace Blueprint

structure WellFormed (b : Blueprint ω) (r : Registry ω) (w : Workshop ω) : Prop where
  types : (b.declaredTypes.map Prod.fst).Nodup
  interfaceFields : ∀ i ∈ b.parts.interfaces, i.fields.declared.Nodup
  inputFields : ∀ i ∈ b.parts.inputs, i.fields.declared.Nodup
  objectFields : ∀ object ∈ b.objectNames, (b.fragments object).declared.Nodup
  codecs : ∀ s ∈ b.parts.scalars, r.HasCodec w s.codec
  references : ∀ parent field type usage, b.Refers parent field type usage → b.Suits type usage
  interfaces : ∀ object ∈ b.objectNames, ∀ name ∈ (b.fragments object).implements,
    ∃ i ∈ b.parts.interfaces, i.name = name ∧ b.Implements object i
  members : ∀ u ∈ b.parts.unions, ∀ member ∈ u.members, member ∈ b.objectNames
  query : b.rootQuery ∈ b.objectNames
  mutation : ∀ name, b.rootMutation = some name → name ∈ b.objectNames

/-! ## Violations -/

/-- What is wrong with the blueprint if the assembly ends with the error. -/
inductive Violation (b : Blueprint ω) (r : Registry ω) (w : Workshop ω) : GraphError → Prop
  | duplicateType {name : String} (h : List.Duplicate name (b.declaredTypes.map Prod.fst)) :
    Violation b r w (.duplicateType name)
  | interfaceField {i : InterfaceDefinition ω} {field : String} (hi : i ∈ b.parts.interfaces)
    (h : List.Duplicate field i.fields.declared) : Violation b r w (.duplicateField field i.name)
  | inputField {i : InputDefinition} {field : String} (hi : i ∈ b.parts.inputs)
    (h : List.Duplicate field i.fields.declared) : Violation b r w (.duplicateField field i.name)
  | objectField {object field : String} (ho : object ∈ b.objectNames)
    (h : List.Duplicate field (b.fragments object).declared) :
    Violation b r w (.duplicateField field object)
  | unresolved {s : ScalarDefinition ω} {e : ResolutionError} (hs : s ∈ b.parts.scalars)
    (h : (r.resolve s.codec w).1 = .error e) : Violation b r w (.resolution e)
  | notCodec {s : ScalarDefinition ω} {i : Instance ω} (hs : s ∈ b.parts.scalars)
    (h : (r.resolve s.codec w).1 = .ok i) (hi : i.asCodec? = none) :
    Violation b r w (.resolution (.typeMismatch s.codec "scalar codec"))
  | unknownType {parent field type : String} {usage : Usage}
    (h : b.Refers parent field type usage) (ht : type ∉ b.declaredTypes.map Prod.fst) :
    Violation b r w (.unknownType type field parent)
  | invalidFieldType {parent field type : String} {kind : NodeKind} {usage : Usage}
    (h : b.Refers parent field type usage) (ht : (type, kind) ∈ b.declaredTypes)
    (hk : ¬ usage.Allows kind) : Violation b r w (.invalidFieldType type field parent kind usage)
  | unknownInterface {object name : String} (ho : object ∈ b.objectNames)
    (hn : name ∈ (b.fragments object).implements) (h : ∀ i ∈ b.parts.interfaces, i.name ≠ name) :
    Violation b r w (.unknownInterface name object)
  | missingField {object field : String} {i : InterfaceDefinition ω} {spec : FieldSpec}
    (ho : object ∈ b.objectNames) (hi : i ∈ b.parts.interfaces)
    (hn : i.name ∈ (b.fragments object).implements) (hf : (field, spec) ∈ i.fields.entries)
    (h : ∀ f ∈ (b.fragments object).fields, f.name ≠ field) :
    Violation b r w (.invalidImplementation object i.name field .missingField)
  | incompatible {object : String} {i : InterfaceDefinition ω} {f : FieldDeclaration}
    {spec : FieldSpec} (ho : object ∈ b.objectNames) (hi : i ∈ b.parts.interfaces)
    (hn : i.name ∈ (b.fragments object).implements) (hf : f ∈ (b.fragments object).fields)
    (hs : (f.name, spec) ∈ i.fields.entries) (h : ¬ b.Covariant f.type spec) :
    Violation b r w (.invalidImplementation object i.name f.name
      (.incompatible (.ofSpec f.type) (.ofSpec spec)))
  | invalidUnionMember {u : UnionDefinition ω} {member : String} (hu : u ∈ b.parts.unions)
    (hm : member ∈ u.members) (h : member ∉ b.objectNames) :
    Violation b r w (.invalidUnionMember member u.name)
  | missingRootQuery (h : b.rootQuery ∉ b.objectNames) :
    Violation b r w (.missingRootQuery b.rootQuery)
  | invalidRootMutation {name : String} (hm : b.rootMutation = some name)
    (h : name ∉ b.objectNames) : Violation b r w (.invalidRootMutation name)

section Violations

variable {b : Blueprint ω} {r : Registry ω} {w : Workshop ω}

/-- Two declarations of one type are the same, if no type is declared twice. -/
theorem eq_of_declaredTypes (h : (b.declaredTypes.map Prod.fst).Nodup) {name : String}
    {kind kind' : NodeKind} (hk : (name, kind) ∈ b.declaredTypes)
    (hk' : (name, kind') ∈ b.declaredTypes) : kind = kind' :=
  (Prod.mk.inj (List.inj_on_of_nodup_map h hk hk' rfl)).2

theorem declaredTypes_names (b : Blueprint ω) : b.declaredTypes.map Prod.fst =
    TypeRef.builtinNames ++ b.parts.interfaces.map (·.name) ++ b.parts.unions.map (·.name)
      ++ b.parts.inputs.map (·.name) ++ b.parts.scalars.map (·.name) ++ b.objectNames := by
  simp [declaredTypes, Function.comp_def]

section Names

variable (h : (b.declaredTypes.map Prod.fst).Nodup)

include h

theorem eq_of_interface_name {i j : InterfaceDefinition ω} (hi : i ∈ b.parts.interfaces)
    (hj : j ∈ b.parts.interfaces) (hname : i.name = j.name) : i = j := by
  rw [declaredTypes_names] at h
  have := h.of_append_left.of_append_left.of_append_left.of_append_left.of_append_right
  exact List.inj_on_of_nodup_map this hi hj hname

theorem eq_of_union_name {u v : UnionDefinition ω} (hu : u ∈ b.parts.unions)
    (hv : v ∈ b.parts.unions) (hname : u.name = v.name) : u = v := by
  rw [declaredTypes_names] at h
  have := h.of_append_left.of_append_left.of_append_left.of_append_right
  exact List.inj_on_of_nodup_map this hu hv hname

theorem eq_of_scalar_name {s s' : ScalarDefinition ω} (hs : s ∈ b.parts.scalars)
    (hs' : s' ∈ b.parts.scalars) (hname : s.name = s'.name) : s = s' := by
  rw [declaredTypes_names] at h
  have := h.of_append_left.of_append_right
  exact List.inj_on_of_nodup_map this hs hs' hname

theorem scalar_name_notMem_builtinNames {s : ScalarDefinition ω} (hs : s ∈ b.parts.scalars) :
    s.name ∉ TypeRef.builtinNames := by
  rw [declaredTypes_names] at h
  simp only [List.append_assoc] at h
  refine fun hname => List.disjoint_of_nodup_append h hname ?_
  simp only [List.mem_append]
  exact .inr (.inr (.inr (.inl (List.mem_map_of_mem hs))))

theorem eq_of_input_name {i j : InputDefinition} (hi : i ∈ b.parts.inputs)
    (hj : j ∈ b.parts.inputs) (hname : i.name = j.name) : i = j := by
  rw [declaredTypes_names] at h
  have := h.of_append_left.of_append_left.of_append_right
  exact List.inj_on_of_nodup_map this hi hj hname

end Names

/-- An error says what is wrong with the blueprint. -/
theorem Violation.not_wellFormed {e : GraphError} (h : b.Violation r w e) :
    ¬ b.WellFormed r w := by
  intro hb
  cases h with
  | duplicateType h => exact h.not_nodup hb.types
  | interfaceField hi h => exact h.not_nodup (hb.interfaceFields _ hi)
  | inputField hi h => exact h.not_nodup (hb.inputFields _ hi)
  | objectField ho h => exact h.not_nodup (hb.objectFields _ ho)
  | unresolved hs h =>
    obtain ⟨i, hi, _⟩ := hb.codecs _ hs
    rw [h] at hi
    cases hi
  | notCodec hs h hi =>
    obtain ⟨j, hj, hcodec⟩ := hb.codecs _ hs
    obtain rfl := Except.ok.inj (hj.symm.trans h)
    rw [hi] at hcodec
    cases hcodec
  | unknownType h ht =>
    obtain ⟨kind, hk, _⟩ := hb.references _ _ _ _ h
    exact ht (List.mem_map_of_mem (f := Prod.fst) hk)
  | invalidFieldType h ht hk =>
    obtain ⟨kind, hkind, hallows⟩ := hb.references _ _ _ _ h
    exact hk (eq_of_declaredTypes hb.types ht hkind ▸ hallows)
  | unknownInterface ho hn h =>
    obtain ⟨i, hi, hname, _⟩ := hb.interfaces _ ho _ hn
    exact h i hi hname
  | missingField ho hi hn hf h =>
    obtain ⟨i', hi', hname, himplements⟩ := hb.interfaces _ ho _ hn
    obtain rfl := eq_of_interface_name hb.types hi' hi hname
    obtain ⟨f, hmem, hfield, _⟩ := himplements _ _ hf
    exact h f hmem hfield
  | incompatible ho hi hn hf hs h =>
    obtain ⟨i', hi', hname, himplements⟩ := hb.interfaces _ ho _ hn
    obtain rfl := eq_of_interface_name hb.types hi' hi hname
    obtain ⟨f', hf', hfield, hcovariant⟩ := himplements _ _ hs
    obtain rfl := Fragments.eq_of_field_name (hb.objectFields _ ho) hf' hf hfield
    exact h hcovariant
  | invalidUnionMember hu hm h => exact h (hb.members _ hu _ hm)
  | missingRootQuery h => exact h hb.query
  | invalidRootMutation hm h => exact h (hb.mutation _ hm)

end Violations

end Blueprint

end GraphAssembly
