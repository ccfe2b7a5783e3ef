import GraphAssembly.Proofs.Assembly.Covariance
import GraphAssembly.Proofs.Assembly.Reordered

/-!
# Graphs that are alike

The order in which the components of a blueprint are listed decides the order in which a graph lists
its types, their fields and so on, and nothing else.

1. `Graph.Alike`: graphs that differ in the order of things only, and in which of several fields
   tells a possible type from the others.
2. The codecs of an assembled graph are the answers of the registry.
3. Runtime types.
4. The nodes of one name, and the statement.
-/

namespace GraphAssembly

variable {ω : Type}

/-! ## Likeness -/

/-- Texts one under the other, if there are any. -/
def stacked (texts : List String) : Option String :=
  if texts.isEmpty then none else some ("\n".intercalate texts)

theorem Fragments.description_eq (f : Fragments ω) : f.description = stacked f.descriptions := rfl

/-- The object type has the field. -/
def Graph.HasField (g : Graph ω) (type field : String) : Prop :=
  ∃ o, g.object? type = some o ∧ field ∈ Dict.keys o.fields

/-- The field tells the type from the other possible ones. -/
def Graph.Tells (g : Graph ω) (possible : List String) (type field : String) : Prop :=
  g.HasField type field ∧ ∀ other ∈ possible, g.HasField other field → other = type

structure ObjectNode.Alike (o o' : ObjectNode ω) : Prop where
  name : o.name = o'.name
  fields : o.fields.Perm o'.fields
  implements : o.implements.Perm o'.implements
  description : ∃ texts texts', texts.Perm texts' ∧ o.description = stacked texts ∧
    o'.description = stacked texts'

structure Typing.Alike (g g' : Graph ω) (y y' : Typing ω) : Prop where
  abstractType : y.abstractType = y'.abstractType
  chooser : y.chooser = y'.chooser
  markerField : y.markerField = y'.markerField
  possibleTypes : y.possibleTypes.Perm y'.possibleTypes
  /-- The same types have a discriminant. -/
  discriminated : (Dict.keys y.discriminants).Perm (Dict.keys y'.discriminants)
  /-- A field that is a discriminant in one graph might be one in the other. -/
  discriminants : ∀ type field, (type, field) ∈ y.discriminants ∨ (type, field) ∈ y'.discriminants →
    g.Tells y.possibleTypes type field ∧ g'.Tells y'.possibleTypes type field

theorem Fragments.Reordered.node_alike {f f' : Fragments ω} (h : f.Reordered f') (name : String) :
    (f.node name).Alike (f'.node name) where
  name := rfl
  fields := h.nodes
  implements := h.implements
  description := ⟨_, _, h.descriptions, f.description_eq, f'.description_eq⟩

/-- Two nodes of the same kind. Scalars and inputs are the same, interfaces and unions up to the
object types that are possible for them. -/
inductive Node.Alike (g g' : Graph ω) : Node ω → Node ω → Prop
  | scalar (n : ScalarNode ω) : Alike g g' (.scalar n) (.scalar n)
  | input (n : InputNode) : Alike g g' (.input n) (.input n)
  | object {o o' : ObjectNode ω} (h : o.Alike o') : Alike g g' (.object o) (.object o')
  | interface {name : String} {description : Option String} {fields : Dict (FieldNode ω)}
    {y y' : Typing ω} (h : Typing.Alike g g' y y') :
    Alike g g' (.interface ⟨name, description, fields, y⟩)
      (.interface ⟨name, description, fields, y'⟩)
  | union {name : String} {description : Option String} {y y' : Typing ω}
    (h : Typing.Alike g g' y y') :
    Alike g g' (.union ⟨name, description, y⟩) (.union ⟨name, description, y'⟩)

theorem Dict.keys_mapValues {α β : Type} (f : α → β) (d : Dict α) :
    Dict.keys (Dict.mapValues f d) = Dict.keys d := by
  simp [Dict.keys, Dict.mapValues, Function.comp_def]

structure Graph.Alike (g g' : Graph ω) : Prop where
  names : (Dict.keys g.nodes).Perm (Dict.keys g'.nodes)
  nodes : ∀ name n n', g.node? name = some n → g'.node? name = some n' → Node.Alike g g' n n'
  query : g.query = g'.query
  mutation : g.mutation = g'.mutation

/-! ## Codecs -/

/-- A scalar with a codec is one of the blueprint, and the registry has answered with the codec. -/
def Declaration.Answered (b : Blueprint ω) (r : Registry ω) (d : Declaration ω) : Prop :=
  ∀ n c, d = .scalar n → n.codec = some c →
    ∃ s ∈ b.parts.scalars, n = ⟨s.name, s.description, some c⟩ ∧
      ∃ w i, r.Reached w ∧ (r.resolve s.codec w).1 = .ok i ∧ i.asCodec? = some c

theorem Verdict.foldlM {ε ι β : Type} {I : β → Prop} {Q : ε → Prop} {f : β → ι → Except ε β}
    {xs : List ι} (h : ∀ x ∈ xs, ∀ y, I y → Verdict I Q (f y x)) {y : β} (hy : I y) :
    Verdict I Q (xs.foldlM f y) := by
  induction xs generalizing y with
  | nil => exact .ok hy
  | cons x xs ih =>
    rw [List.foldlM_cons]
    refine (h x List.mem_cons_self y hy).bind fun z hz => ?_
    exact ih (fun x hx => h x (List.mem_cons_of_mem _ hx)) hz

namespace Declarations

variable {b : Blueprint ω} {r : Registry ω} {t : Declarations ω}

/-- All scalars of the table have been answered. -/
def Answered (b : Blueprint ω) (r : Registry ω) (t : Declarations ω) : Prop :=
  ∀ e ∈ t, e.2.Answered b r

theorem declare_answered (ht : t.Answered b r) {d : Declaration ω} (hd : d.Answered b r) :
    Verdict (Answered b r) (fun _ => True) (t.declare d) := by
  unfold declare
  split
  · exact .error trivial
  · refine .ok fun e he => ?_
    rcases List.mem_append.1 he with he | he
    · exact ht e he
    · rw [List.mem_singleton.1 he]
      exact hd

/-- Nothing but a scalar has a codec. -/
theorem make_answered (ht : t.Answered b r) (make : Except GraphError (Declaration ω))
    (hmake : ∀ d, make = .ok d → d.kind ≠ .scalar) :
    Verdict (Answered b r) (fun _ => True) (make >>= t.declare) := by
  cases make with
  | error e => exact .error trivial
  | ok d =>
    refine declare_answered ht ?_
    rintro n c rfl
    exact absurd rfl (hmake _ rfl)

theorem addScalar_answered {s : ScalarDefinition ω} (hs : s ∈ b.parts.scalars) {w : Workshop ω}
    (hw : r.Reached w) (ht : t.Answered b r) :
    Verdict (Answered b r) (fun _ => True) ((addScalar r t s) w).1 ∧
      r.Reached ((addScalar r t s) w).2 := by
  have hreached := hw.asked s.codec
  rw [addScalar, bind_apply, Declaration.ofScalar, bind_apply, adapt_apply]
  rcases hanswer : r.resolve s.codec w with ⟨e | i, w'⟩
  · rw [hanswer] at hreached
    exact ⟨.error trivial, hreached⟩
  · rw [hanswer] at hreached
    dsimp only [Except.mapError]
    cases hcodec : i.asCodec? with
    | none => exact ⟨.error trivial, hreached⟩
    | some c =>
      refine ⟨declare_answered ht ?_, hreached⟩
      rintro n c' ⟨⟩ ⟨⟩
      exact ⟨s, hs, rfl, w, i, hw, congrArg Prod.fst hanswer, hcodec⟩

theorem addScalars_answered {xs : List (ScalarDefinition ω)} (hxs : ∀ s ∈ xs, s ∈ b.parts.scalars)
    {w : Workshop ω} (hw : r.Reached w) (ht : t.Answered b r) :
    Verdict (Answered b r) (fun _ => True) ((xs.foldlM (addScalar r) t) w).1 := by
  induction xs generalizing t w with
  | nil => exact .ok ht
  | cons s xs ih =>
    obtain ⟨hverdict, hreached⟩ := addScalar_answered (hxs s List.mem_cons_self) hw ht
    rw [List.foldlM_cons]
    refine hverdict.bind_apply fun t' ht' => ?_
    exact ih (fun s hs => hxs s (List.mem_cons_of_mem _ hs)) hreached ht'

end Declarations

theorem Declaration.kind_ofInterface {i : InterfaceDefinition ω} {d : Declaration ω}
    (h : ofInterface i = .ok d) : d.kind = .interface := by
  unfold ofInterface at h
  cases hchecked : i.fields.checked i.name <;> rw [hchecked] at h <;> cases h
  rfl

theorem Declaration.kind_ofInput {i : InputDefinition} {d : Declaration ω}
    (h : ofInput i = .ok d) : d.kind = .input := by
  unfold ofInput at h
  cases hchecked : i.fields.checked i.name <;> rw [hchecked] at h <;> cases h
  rfl

namespace Blueprint

variable {b b' : Blueprint ω} {r : Registry ω} {w w' : Workshop ω} {t t' : Declarations ω}

theorem ofParts_answered (hw : r.Reached w) :
    Verdict (Declarations.Answered b r) (fun _ => True)
      ((Declarations.ofParts r b.parts) w).1 := by
  have hbuiltins : Declarations.builtins.Answered b r := by
    intro e he n c hn hc
    obtain ⟨name, -, rfl⟩ := List.mem_map.1 he
    cases hn
    cases hc
  refine Verdict.bind_apply (Verdict.foldlM (I := Declarations.Answered b r)
    (fun i _ t ht => ?_) hbuiltins) fun t₁ ht₁ => ?_
  · exact Declarations.make_answered ht _ fun d hd => by simp [Declaration.kind_ofInterface hd]
  refine Verdict.bind_apply (Verdict.foldlM (I := Declarations.Answered b r)
    (fun u _ t ht => ?_) ht₁) fun t₂ ht₂ => ?_
  · exact Declarations.make_answered ht (.ok (.union u)) fun d hd => by cases hd; nofun
  refine Verdict.bind_apply (Verdict.foldlM (I := Declarations.Answered b r)
    (fun i _ t ht => ?_) ht₂) fun t₃ ht₃ => ?_
  · exact Declarations.make_answered ht _ fun d hd => by simp [Declaration.kind_ofInput hd]
  refine Verdict.bind_apply (Declarations.addScalars_answered (fun _ hs => hs) hw ht₃)
    fun t₄ ht₄ => ?_
  rw [lift_apply]
  refine Verdict.foldlM (fun f _ t ht => ?_) ht₄
  rw [Declarations.addObject]
  cases f.2.merge f.1 with
  | error e => exact .error trivial
  | ok o => exact Declarations.make_answered ht (.ok (.object o)) fun d hd => by cases hd; nofun

end Blueprint

/-! ## Discriminants -/

namespace FieldSets

/-- The fields of a type; one that is not there has none. -/
def fields (sets : FieldSets) (type : String) : List String := (Dict.get? sets type).getD []

variable {sets : FieldSets} {possible : List String} {type field : String}

theorem sharedBeyond_iff : sets.sharedBeyond possible type field = true ↔
    ∃ other ∈ possible, other ≠ type ∧ field ∈ sets.fields other := by
  simp [sharedBeyond, fields]

theorem of_discriminant? (h : sets.discriminant? possible type = some field) :
    field ∈ sets.fields type ∧ ∀ other ∈ possible, field ∈ sets.fields other → other = type := by
  refine ⟨List.mem_of_find?_eq_some h, fun other hother hfield => ?_⟩
  have hunshared := List.find?_some h
  rw [Bool.not_eq_true'] at hunshared
  by_contra hne
  rw [sharedBeyond_iff.2 ⟨other, hother, hne, hfield⟩] at hunshared
  cases hunshared

theorem discriminant?_isSome_iff : (sets.discriminant? possible type).isSome = true ↔
    ∃ field, field ∈ sets.fields type ∧
      ∀ other ∈ possible, field ∈ sets.fields other → other = type := by
  constructor
  · intro h
    obtain ⟨field, hfield⟩ := Option.isSome_iff_exists.1 h
    exact ⟨field, of_discriminant? hfield⟩
  · rintro ⟨field, hfield, honly⟩
    refine List.find?_isSome.2 ⟨field, hfield, ?_⟩
    rw [Bool.not_eq_true', ← Bool.not_eq_true, sharedBeyond_iff]
    rintro ⟨other, hother, hne, hshared⟩
    exact hne (honly other hother hshared)

theorem keys_discriminants (sets : FieldSets) (possible : List String) :
    Dict.keys (sets.discriminants possible) =
      possible.filter fun type => (sets.discriminant? possible type).isSome := by
  suffices h : ∀ types : List String, Dict.keys (types.filterMap fun type =>
      (sets.discriminant? possible type).map fun field => (type, field)) =
        types.filter fun type => (sets.discriminant? possible type).isSome from h possible
  intro types
  induction types with
  | nil => rfl
  | cons type types ih =>
    cases hfield : sets.discriminant? possible type with
    | none => simpa [hfield] using ih
    | some field => simpa [hfield, Dict.keys] using ih

theorem of_mem_discriminants (h : (type, field) ∈ sets.discriminants possible) :
    field ∈ sets.fields type ∧ ∀ other ∈ possible, field ∈ sets.fields other → other = type := by
  obtain ⟨type', -, h⟩ := List.mem_filterMap.1 h
  obtain ⟨field', hfield, hpair⟩ := Option.map_eq_some_iff.1 h
  obtain ⟨rfl, rfl⟩ := Prod.mk.inj hpair
  exact of_discriminant? hfield

end FieldSets

namespace Blueprint

variable {b b' : Blueprint ω} {r : Registry ω} {c : Configuration} {g g' : Graph ω}
  {t t' : Declarations ω}

theorem map_name_objects_sublist {t : Declarations ω} (ht : ∀ e ∈ t, e.2.name = e.1) :
    (t.objects.map (·.name)).Sublist (Dict.keys t) := by
  induction t with
  | nil => exact List.Sublist.slnil
  | cons e t ih =>
    obtain ⟨name, d⟩ := e
    have hrest := ih fun e he => ht e (List.mem_cons_of_mem _ he)
    cases d with
    | object o =>
      obtain rfl : o.name = name := ht _ List.mem_cons_self
      exact hrest.cons_cons _
    | _ => exact hrest.cons _

theorem Table.nodup_objects (ht : b.Table b.declaredTypes t) : (t.objects.map (·.name)).Nodup :=
  ht.distinct.sublist (map_name_objects_sublist fun e he => (ht.entries e.1 e.2 he).1)

theorem Assembled.fields_eq (h : b.Assembled c g t) {type : String} {o : ObjectNode ω}
    (ho : g.object? type = some o) : t.fieldSets.fields type = Dict.keys o.fields := by
  have hdistinct : Dict.Distinct t.fieldSets := by
    rw [Dict.Distinct, Dict.keys, Declarations.fieldSets, List.map_map]
    exact h.table.nodup_objects
  obtain rfl := h.name_of_object? ho
  have hmem : (o.name, Dict.keys o.fields) ∈ t.fieldSets :=
    List.mem_map_of_mem (h.table.mem_objects.2 (h.object?_iff.1 ho))
  rw [FieldSets.fields, Dict.get?_of_mem hdistinct hmem]
  rfl

theorem Assembled.mem_fields_iff (h : b.Assembled c g t) {type field : String} :
    field ∈ t.fieldSets.fields type ↔ g.HasField type field := by
  constructor
  · intro hfield
    obtain ⟨fields, hget, hfield⟩ : ∃ fields, Dict.get? t.fieldSets type = some fields ∧
        field ∈ fields := by
      rw [FieldSets.fields] at hfield
      cases hget : Dict.get? t.fieldSets type with
      | none => simp [hget] at hfield
      | some fields => exact ⟨fields, rfl, by simpa [hget] using hfield⟩
    obtain ⟨o, ho, hpair⟩ := List.mem_map.1 (Dict.mem_of_get? hget)
    obtain ⟨rfl, rfl⟩ := Prod.mk.inj hpair
    exact ⟨o, h.object?_iff.2 (h.table.mem_objects.1 ho), hfield⟩
  · rintro ⟨o, ho, hfield⟩
    rw [h.fields_eq ho]
    exact hfield

/-! ## Nodes -/

section Nodes

variable (h : b.Assembled c g t) (h' : b'.Assembled c g' t') (hb : b.Reordered b')

include h h' hb

theorem exists_object_alike {name : String} {o : ObjectNode ω} (ho : g.object? name = some o) :
    ∃ o', g'.object? name = some o' ∧ o.Alike o' := by
  obtain ⟨hname, rfl⟩ := h.eq_node_of_object? ho
  exact ⟨_, h'.object?_eq (hb.objectNames.subset hname), (hb.fragments name).node_alike name⟩

theorem hasField_of_reordered {type field : String} (hf : g.HasField type field) :
    g'.HasField type field := by
  obtain ⟨o, ho, hfield⟩ := hf
  obtain ⟨o', ho', halike⟩ := exists_object_alike h h' hb ho
  exact ⟨o', ho', (halike.fields.map Prod.fst).subset hfield⟩

theorem implementers_subset {interface : String} :
    t.implementers interface ⊆ t'.implementers interface := by
  intro object hobject
  obtain ⟨o, ho, rfl, himplements⟩ := Declarations.mem_implementers.1 hobject
  have ho := h.object?_iff.2 (h.table.mem_objects.1 ho)
  obtain ⟨o', ho', halike⟩ := exists_object_alike h h' hb ho
  have hname := h'.name_of_object? ho'
  refine Declarations.mem_implementers.2 ⟨o', ?_, hname, halike.implements.subset himplements⟩
  exact h'.table.mem_objects.2 (hname.symm ▸ h'.object?_iff.1 ho')

omit h' hb in
theorem nodup_implementers (interface : String) : (t.implementers interface).Nodup :=
  h.table.nodup_objects.sublist (List.filter_sublist.map _)

theorem implementers_perm (interface : String) :
    (t.implementers interface).Perm (t'.implementers interface) := by
  rw [List.perm_ext_iff_of_nodup (nodup_implementers h _) (nodup_implementers h' _)]
  exact fun object => ⟨fun hobject => implementers_subset h h' hb hobject,
    fun hobject => implementers_subset h' h hb.symm hobject⟩

theorem make_alike (name : String) {possible possible' : List String}
    (hpossible : possible.Perm possible') (chooser : Option (TypeChooser ω)) :
    Typing.Alike g g' (.make name possible t.fieldSets chooser c.typeResolution)
      (.make name possible' t'.fieldSets chooser c.typeResolution) := by
  have hfields {type field : String} :
      field ∈ t.fieldSets.fields type ↔ field ∈ t'.fieldSets.fields type := by
    rw [h.mem_fields_iff, h'.mem_fields_iff]
    exact ⟨hasField_of_reordered h h' hb, hasField_of_reordered h' h hb.symm⟩
  have htells {type field : String} (hfield : field ∈ t.fieldSets.fields type)
      (honly : ∀ other ∈ possible, field ∈ t.fieldSets.fields other → other = type) :
      g.Tells possible type field ∧ g'.Tells possible' type field := by
    refine ⟨⟨h.mem_fields_iff.1 hfield, fun other hother hf => ?_⟩,
      ⟨h'.mem_fields_iff.1 (hfields.1 hfield), fun other hother hf => ?_⟩⟩
    · exact honly other hother (h.mem_fields_iff.2 hf)
    · exact honly other (hpossible.symm.subset hother) (hfields.2 (h'.mem_fields_iff.2 hf))
  have hsome (type : String) : (t.fieldSets.discriminant? possible type).isSome =
      (t'.fieldSets.discriminant? possible' type).isSome := by
    rw [Bool.eq_iff_iff, FieldSets.discriminant?_isSome_iff, FieldSets.discriminant?_isSome_iff]
    simp only [hfields, hpossible.mem_iff]
  refine ⟨rfl, rfl, rfl, hpossible, ?_, fun type field hmem => ?_⟩
  · unfold Typing.make
    cases c.typeResolution.discriminants with
    | false => exact .refl _
    | true =>
      rw [if_pos rfl, if_pos rfl, FieldSets.keys_discriminants, FieldSets.keys_discriminants]
      simp only [hsome]
      exact hpossible.filter _
  · unfold Typing.make at hmem
    cases hc : c.typeResolution.discriminants with
    | false => simp [hc] at hmem
    | true =>
      rw [hc, if_pos rfl, if_pos rfl] at hmem
      rcases hmem with hmem | hmem
      · obtain ⟨hfield, honly⟩ := FieldSets.of_mem_discriminants hmem
        exact htells hfield honly
      · obtain ⟨hfield, honly⟩ := FieldSets.of_mem_discriminants hmem
        refine htells (hfields.2 hfield) fun other hother hf => ?_
        exact honly other (hpossible.subset hother) (hfields.1 hf)

omit h' in
theorem scalar_eq (hr : r.Deterministic) {n n' : ScalarNode ω}
    (hn : (Declaration.scalar n).Answered b r) (hn' : (Declaration.scalar n').Answered b' r)
    {codec codec' : Codec ω} (hcodec : n.codec = some codec) (hcodec' : n'.codec = some codec')
    (hname : n.name = n'.name) : n = n' := by
  obtain ⟨s, hs, rfl, w, i, hw, hi, hci⟩ := hn n codec rfl hcodec
  obtain ⟨s', hs', rfl, w', i', hw', hi', hci'⟩ := hn' n' codec' rfl hcodec'
  obtain rfl := eq_of_scalar_name h.table.nodup hs (hb.scalars.symm.subset hs') hname
  have halike := r.resolve_alike hr hw hw' s.codec
  rw [hi, hi'] at halike
  cases halike with
  | ok hsame =>
    rw [hsame.asCodec?] at hci
    obtain rfl := Option.some.inj (hci.symm.trans hci')
    rfl

theorem node_alike (hr : r.Deterministic) (ht : t.Answered b r) (ht' : t'.Answered b' r)
    {name : String} {n n' : Node ω} (hn : g.node? name = some n) (hn' : g'.node? name = some n') :
    n.Alike g g' n' := by
  obtain ⟨d, hget, rfl⟩ := h.exists_of_node? hn
  obtain ⟨d', hget', rfl⟩ := h'.exists_of_node? hn'
  obtain ⟨hname, hd, hkind⟩ := h.table.of_get? hget
  obtain ⟨hname', hd', hkind'⟩ := h'.table.of_get? hget'
  have hkinds : d.kind = d'.kind :=
    eq_of_declaredTypes h.table.nodup hkind (hb.declaredTypes.symm.subset hkind')
  have hnodup := h.table.nodup
  cases hd with
  | @builtin type hbuiltin =>
    cases hd' with
    | builtin =>
      obtain rfl := hname
      obtain rfl := hname'
      exact .scalar _
    | @scalar s hs =>
      obtain rfl : type = s.name := hname.trans hname'.symm
      exact absurd hbuiltin (scalar_name_notMem_builtinNames h'.table.nodup hs)
    | _ => cases hkinds
  | @scalar s hs codec =>
    cases hd' with
    | @builtin type hbuiltin =>
      obtain rfl : type = s.name := hname'.trans hname.symm
      exact absurd hbuiltin (scalar_name_notMem_builtinNames hnodup hs)
    | scalar hs' codec' =>
      have heq := scalar_eq h hb hr (ht _ (Dict.mem_of_get? hget)) (ht' _ (Dict.mem_of_get? hget'))
        rfl rfl (hname.trans hname'.symm)
      rw [Declarations.link, Declarations.link, heq]
      exact .scalar _
    | _ => cases hkinds
  | interface hi =>
    cases hd' with
    | interface hi' =>
      obtain rfl := eq_of_interface_name hnodup hi (hb.interfaces.symm.subset hi')
        (hname.trans hname'.symm)
      exact .interface (make_alike h h' hb _ (implementers_perm h h' hb _) _)
    | _ => cases hkinds
  | union hu =>
    cases hd' with
    | union hu' =>
      obtain rfl := eq_of_union_name hnodup hu (hb.unions.symm.subset hu')
        (hname.trans hname'.symm)
      exact .union (make_alike h h' hb _ (.refl _) _)
    | _ => cases hkinds
  | input hi =>
    cases hd' with
    | input hi' =>
      obtain rfl := eq_of_input_name hnodup hi (hb.inputs.symm.subset hi')
        (hname.trans hname'.symm)
      exact .input _
    | _ => cases hkinds
  | object ho =>
    cases hd' with
    | object ho' =>
      obtain rfl := hname
      obtain rfl := hname'
      exact .object ((hb.fragments _).node_alike _)
    | _ => cases hkinds

theorem graph_alike (hr : r.Deterministic) (ht : t.Answered b r) (ht' : t'.Answered b' r) :
    g.Alike g' where
  names := by
    rw [h.nodes_eq, h'.nodes_eq, Declarations.linkAll, Declarations.linkAll, Dict.keys_mapValues,
      Dict.keys_mapValues, h.table.keys, h'.table.keys]
    exact hb.declaredTypes.map Prod.fst
  nodes _ _ _ := node_alike h h' hb hr ht ht'
  query := (h.query_eq.trans hb.query).trans h'.query_eq.symm
  mutation := (h.mutation_eq.trans hb.mutation).trans h'.mutation_eq.symm

end Nodes

/-- Listing the components in another order neither makes an assembly fail nor lets it succeed, and
the graphs are alike, also when the registry has been used between the assemblies. -/
theorem assemble_reordered {w w' : Workshop ω} (hr : r.Deterministic) (hw : r.Reached w)
    (hw' : r.Reached w') {components : List (Component ω)}
    (hcomponents : b.components.Perm components) (c : Configuration) :
    let b' : Blueprint ω := { b with components }
    ((∃ g, ((b.assemble r c) w).1 = .ok g) ↔ ∃ g', ((b'.assemble r c) w').1 = .ok g') ∧
      ∀ g g', ((b.assemble r c) w).1 = .ok g → ((b'.assemble r c) w').1 = .ok g' → g.Alike g' := by
  intro b'
  have hb : b.Reordered b' := reordered_of_perm hcomponents
  refine ⟨?_, fun g g' hg hg' => ?_⟩
  · rw [exists_assemble_iff hr hw c, exists_assemble_iff hr hw' c]
    exact ⟨hb.wellFormed hr hw hw', hb.symm.wellFormed hr hw' hw⟩
  · obtain ⟨t, ht, hlink⟩ := exists_linked hg
    obtain ⟨t', ht', hlink'⟩ := exists_linked hg'
    exact graph_alike (.of_link ht hlink) (.of_link ht' hlink') hb hr
      ((ofParts_answered hw).of_eq_ok ht) ((ofParts_answered hw').of_eq_ok ht')

/-- Guests are described in two places, and the types they refer to come later. -/
def guests : Blueprint Unit where
  rootQuery := "Query"
  components := [
    .definition {
      name := "Query"
      fields := .ofList [("party", { typeName := "Named", list := true })] },
    .definition {
      name := "Guest"
      description := some "Somebody who is invited."
      fields := .ofList [("name", { typeName := "String" })]
      implements := ["Named"] },
    .definition {
      name := "Guest"
      description := some "Comes on a certain date."
      fields := .ofList [("arrival", { typeName := "Date" })] },
    .scalar { name := "Date", codec := ⟨"DateCodec"⟩ },
    .interface {
      name := "Named"
      fields := .ofList [("name", { typeName := "String", nullable := true })] }]

/-- The components may be listed backwards, and the clock may have been made before. -/
theorem guests_reordered :
    let w : Workshop Unit := ⟨[], ()⟩
    let w' := (clockwork.resolve ⟨"Clock"⟩ w).2
    let guests' : Blueprint Unit := { guests with components := guests.components.reverse }
    clockwork.Deterministic ∧ clockwork.Reached w ∧ clockwork.Reached w' ∧
      guests.components.Perm guests.components.reverse ∧
      ∃ g g', ((guests.assemble clockwork {}) w).1 = .ok g ∧
        ((guests'.assemble clockwork {}) w').1 = .ok g' ∧ g.Alike g' := by
  intro w w' guests'
  have hw : clockwork.Reached w := .fresh ()
  have hw' : clockwork.Reached w' := hw.asked _
  have hperm : guests.components.Perm guests.components.reverse := (List.reverse_perm _).symm
  obtain ⟨hiff, halike⟩ := assemble_reordered clockwork_deterministic hw hw' hperm {}
  obtain ⟨g, hg⟩ : ∃ g, ((guests.assemble clockwork {}) w).1 = .ok g := by
    have hsome : ((guests.assemble clockwork {}) w).1.toOption.isSome = true := by
      decide +kernel
    cases h : ((guests.assemble clockwork {}) w).1 with
    | ok g => exact ⟨g, rfl⟩
    | error e =>
      rw [h] at hsome
      cases hsome
  obtain ⟨g', hg'⟩ := hiff.1 ⟨g, hg⟩
  exact ⟨clockwork_deterministic, hw, hw', hperm, g, g', hg, hg', halike g g' hg hg'⟩

end Blueprint

end GraphAssembly
