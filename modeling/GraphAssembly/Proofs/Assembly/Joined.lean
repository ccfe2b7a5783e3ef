import GraphAssembly.Proofs.Assembly.Likeness

/-!
# Joined fragments

An object type has the fields of all its fragments, those of the definitions first. A field that two
of them declare, or one of them twice, keeps the graph from being assembled.

1. The fragments of an object type, in terms of the components alone.
2. `Joins`: the object type that some fragments make together.
3. The statement.
-/

namespace GraphAssembly

variable {ω : Type}

/-! ## Fragments -/

namespace ObjectImplementation

/-- Resolvers that are added one by one have the token of the instance. -/
theorem resolvers_foldl_addResolver (rs : List (Resolver ω)) (i : ObjectImplementation ω) :
    (rs.foldl addResolver i).resolvers =
      (rs.map fun r => (r.name, { r with instanceToken := i.instanceToken })).foldl
        (fun m d => m.add d.1 d.2) i.resolvers := by
  induction rs generalizing i with
  | nil => rfl
  | cons r rs ih => exact ih (i.addResolver r)

end ObjectImplementation

namespace Component

/-- The component, if it is a definition of the object type. -/
def definition? (name : String) : Component ω → Option ObjectDefinition
  | .definition d => if d.name = name then some d else none
  | _ => none

/-- The component, if it is an implementation of the object type. -/
def implementation? (name : String) : Component ω → Option (ObjectImplementation ω)
  | .implementation i => if i.name = name then some i else none
  | _ => none

/-- The component declares fields of the object type. -/
def IsFragment (name : String) (c : Component ω) : Prop :=
  c.name = name ∧ (c.kind = .objectDefinition ∨ c.kind = .objectImplementation)

theorem isFragment_of_definition? {name : String} {c : Component ω} {d : ObjectDefinition}
    (h : c.definition? name = some d) : c.IsFragment name := by
  cases c with
  | definition d' =>
    have hname : d'.name = name := by
      by_contra hne
      simp [definition?, hne] at h
    exact ⟨hname, .inl rfl⟩
  | _ => cases h

theorem isFragment_of_implementation? {name : String} {c : Component ω}
    {i : ObjectImplementation ω} (h : c.implementation? name = some i) : c.IsFragment name := by
  cases c with
  | implementation i' =>
    have hname : i'.name = name := by
      by_contra hne
      simp [implementation?, hne] at h
    exact ⟨hname, .inr rfl⟩
  | _ => cases h

end Component

namespace Blueprint

variable (b : Blueprint ω) (name : String)

/-- The definitions of an object type, as they are listed. -/
def definitionsOf : List ObjectDefinition :=
  b.components.filterMap (·.definition? name)

/-- The implementations of an object type, as they are listed. -/
def implementationsOf : List (ObjectImplementation ω) :=
  b.components.filterMap (·.implementation? name)

theorem definitions_fragments : (b.fragments name).definitions = b.definitionsOf name := by
  show List.filter _ (List.filterMap _ _) = List.filterMap _ _
  rw [List.filter_filterMap]
  congr 1
  funext c
  cases c <;> simp [Component.definition?, Option.filter_some]

theorem implementations_fragments :
    (b.fragments name).implementations = b.implementationsOf name := by
  show List.filter _ (List.filterMap _ _) = List.filterMap _ _
  rw [List.filter_filterMap]
  congr 1
  funext c
  cases c <;> simp [Component.implementation?, Option.filter_some]

/-- The names that the fragments of an object type declare, as often as they declare them. -/
def fieldNames : List String :=
  (b.definitionsOf name).flatMap (·.fields.declared) ++
    (b.implementationsOf name).flatMap (·.resolvers.declared)

theorem declared_fragments : (b.fragments name).declared = b.fieldNames name := by
  rw [Fragments.declared, definitions_fragments, implementations_fragments]
  rfl

variable {b name}

theorem mem_objectNames_iff : name ∈ b.objectNames ↔ ∃ c ∈ b.components, c.IsFragment name := by
  rw [objectNames, mem_firstOccurrences, List.mem_append]
  constructor
  · rintro (h | h)
    · obtain ⟨d, hd, rfl⟩ := List.mem_map.1 h
      obtain ⟨c, hc, hcd⟩ := List.mem_filterMap.1 hd
      cases c <;> cases hcd
      exact ⟨_, hc, rfl, .inl rfl⟩
    · obtain ⟨i, hi, rfl⟩ := List.mem_map.1 h
      obtain ⟨c, hc, hci⟩ := List.mem_filterMap.1 hi
      cases c <;> cases hci
      exact ⟨_, hc, rfl, .inr rfl⟩
  · rintro ⟨c, hc, rfl, hkind | hkind⟩
    · cases c with
      | definition d =>
        exact .inl (List.mem_map.2 ⟨d, List.mem_filterMap.2 ⟨_, hc, rfl⟩, rfl⟩)
      | _ => cases hkind
    · cases c with
      | implementation i =>
        exact .inr (List.mem_map.2 ⟨i, List.mem_filterMap.2 ⟨_, hc, rfl⟩, rfl⟩)
      | _ => cases hkind

theorem get?_objects (h : name ∈ b.objectNames) :
    Dict.get? b.parts.objects name = some (b.fragments name) := by
  apply Dict.get?_of_mem
  · have hkeys : Dict.keys (b.objectNames.map fun n => (n, b.fragments n)) = b.objectNames := by
      simp [Dict.keys, Function.comp_def]
    show (Dict.keys (b.objectNames.map fun n => (n, b.fragments n))).Nodup
    rw [hkeys]
    exact nodup_firstOccurrences _
  · exact List.mem_map_of_mem (f := fun n => (n, b.fragments n)) h

end Blueprint

/-! ## Object types -/

theorem foldl_keep_eq (names kept : List String) :
    names.foldl (fun kept n => if n ∈ kept then kept else kept ++ [n]) kept =
      kept ++ (names.filter (· ∉ kept)).eraseDups := by
  induction names generalizing kept with
  | nil => simp
  | cons n rest ih =>
    rw [List.foldl_cons, ih]
    by_cases hn : n ∈ kept
    · simp [hn]
    · have hrest : rest.filter (· ∉ kept ++ [n]) =
          (rest.filter (· ∉ kept)).filter fun m => !m == n := by
        rw [List.filter_filter]
        apply List.filter_congr
        intro m _
        by_cases hm : m = n <;> simp [hm]
      rw [if_neg hn, List.filter_cons_of_pos (by simpa using hn), List.eraseDups_cons, hrest]
      simp

/-- Keeping the first occurrences is leaving out the later ones. -/
theorem firstOccurrences_eq_eraseDups (names : List String) :
    firstOccurrences names = names.eraseDups := by
  rw [firstOccurrences, foldl_keep_eq]
  simp

/-- The field of a definition is read from the property of its name. -/
structure FieldNode.ReadsProperty (declared : String × FieldSpec)
    (entry : String × FieldNode ω) : Prop where
  key : entry.1 = declared.1
  name : entry.2.name = declared.1
  description : entry.2.description = declared.2.description
  type : entry.2.type = .ofSpec declared.2
  arguments : entry.2.arguments = []
  source : entry.2.source = .property

/-- The field of an implementation is what its resolver says, with the method and the token of the
resolver. Only a resolver that has no bindings has those of the implementation, and of no other. -/
structure FieldNode.CallsResolver (declared : ObjectImplementation ω × String × Resolver ω)
    (entry : String × FieldNode ω) : Prop where
  key : entry.1 = declared.2.1
  name : entry.2.name = declared.2.1
  description : entry.2.description = declared.2.2.field.description
  type : entry.2.type = .ofSpec declared.2.2.field
  arguments : entry.2.arguments = Parameter.inputValues declared.2.2.parameters
  source : ∃ bindings, entry.2.source = .method declared.2.2 bindings ∧
    (declared.2.2.bindings ≠ [] → bindings = declared.2.2.bindings) ∧
      (declared.2.2.bindings = [] → bindings = declared.1.bindings)

/-- The object type is put together from the fragments, and from nothing else. -/
structure ObjectNode.Joins (o : ObjectNode ω) (definitions : List ObjectDefinition)
    (implementations : List (ObjectImplementation ω)) : Prop where
  fields : ∃ read called, o.fields = read ++ called ∧
    List.Forall₂ FieldNode.ReadsProperty (definitions.flatMap (·.fields.entries)) read ∧
      List.Forall₂ FieldNode.CallsResolver
        (implementations.flatMap fun i => i.resolvers.entries.map fun r => (i, r)) called
  distinct : Dict.Distinct o.fields
  /-- No field of a definition is lost before the fragments are joined. -/
  specs : ∀ d ∈ definitions, ∀ declared, d.fields = .ofList declared → d.fields.entries = declared
  /-- No resolver is lost either, and each has the token of its own instance. -/
  resolvers : ∀ i ∈ implementations, ∀ rs : List (Resolver ω),
    i = rs.foldl .addResolver { i with resolvers := {} } →
    i.resolvers.entries = rs.map fun r => (r.name, { r with instanceToken := i.instanceToken })
  implements : o.implements =
    (definitions.flatMap (·.implements) ++ implementations.flatMap (·.implements)).eraseDups
  description : o.description =
    stacked (definitions.filterMap (·.description) ++ implementations.filterMap (·.description))

theorem FieldNode.plain_readsProperty (declared : String × FieldSpec) :
    ReadsProperty (ω := ω) declared (declared.1, .plain declared.1 declared.2) :=
  ⟨rfl, rfl, rfl, rfl, rfl, rfl⟩

theorem FieldNode.resolved_callsResolver (i : ObjectImplementation ω) (name : String)
    (r : Resolver ω) : CallsResolver (i, name, r) (name, .resolved name r i.bindings) where
  key := rfl
  name := rfl
  description := rfl
  type := rfl
  arguments := rfl
  source := by
    refine ⟨_, rfl, ?_, ?_⟩
    · intro h
      rw [Resolver.bindingsInForce, if_neg (by simpa using h)]
    · intro h
      rw [Resolver.bindingsInForce, if_pos (by simpa using h)]

theorem Fragments.node_joins {f : Fragments ω} (h : f.declared.Nodup) (name : String) :
    (f.node name).Joins f.definitions f.implementations where
  fields := by
    refine ⟨_, _, rfl, ?_, ?_⟩
    · rw [← List.map_flatMap, List.forall₂_map_right_iff, List.forall₂_same]
      exact fun declared _ => FieldNode.plain_readsProperty declared
    · have hsame : List.Forall₂ Eq f.implementations f.implementations :=
        List.forall₂_same.2 fun _ _ => rfl
      refine List.rel_flatMap hsame ?_
      rintro i _ rfl
      rw [List.forall₂_map_left_iff, List.forall₂_map_right_iff, List.forall₂_same]
      exact fun declared _ => FieldNode.resolved_callsResolver i declared.1 declared.2
  distinct := f.distinct_nodes h
  specs := by
    intro d hd declared hdeclared
    have hnodup := (List.nodup_flatMap.1 (List.nodup_append.1 h).1).1 d hd
    rw [hdeclared] at hnodup ⊢
    exact Members.entries_ofList (Members.nodup_declared_iff.1 hnodup)
  resolvers := by
    intro i hi rs hrs
    have hnodup := (List.nodup_flatMap.1 (List.nodup_append.1 h).2.1).1 i hi
    have hresolvers : i.resolvers = .ofList
        (rs.map fun r => (r.name, { r with instanceToken := i.instanceToken })) := by
      conv_lhs => rw [hrs]
      exact ObjectImplementation.resolvers_foldl_addResolver rs _
    rw [hresolvers] at hnodup ⊢
    exact Members.entries_ofList (Members.nodup_declared_iff.1 hnodup)
  implements := firstOccurrences_eq_eraseDups _
  description := f.description_eq

/-! ## The statement -/

namespace Blueprint

variable {b : Blueprint ω} {r : Registry ω} {w : Workshop ω} {c : Configuration} {g : Graph ω}

/-- Fragments that declare a field twice are not joined. -/
theorem merge_fragments_eq_error {name field : String}
    (h : List.Duplicate field (b.fieldNames name)) : ∃ field',
      (b.fragments name).merge name = .error (.duplicateField field' name) ∧
        List.Duplicate field' (b.fieldNames name) := by
  have hverdict : Verdict _ _ ((b.fragments name).merge name) :=
    Fragments.merge_verdict (fun d hd => by simpa using (List.mem_filter.1 hd).2)
      (fun i hi => by simpa using (List.mem_filter.1 hi).2)
  rw [declared_fragments] at hverdict
  generalize (b.fragments name).merge name = answer at hverdict
  cases hverdict with
  | ok hok => exact absurd hok.2 (List.exists_duplicate_iff_not_nodup.1 ⟨field, h⟩)
  | error herror =>
    obtain ⟨field', rfl, hfield'⟩ := herror
    exact ⟨field', rfl, hfield'⟩

theorem mem_objectNames_of_mem_fieldNames {name field : String} (h : field ∈ b.fieldNames name) :
    name ∈ b.objectNames := by
  rw [mem_objectNames_iff]
  rcases List.mem_append.1 h with h | h
  · obtain ⟨d, hd, -⟩ := List.mem_flatMap.1 h
    obtain ⟨c, hc, hcd⟩ := List.mem_filterMap.1 hd
    exact ⟨c, hc, Component.isFragment_of_definition? hcd⟩
  · obtain ⟨i, hi, -⟩ := List.mem_flatMap.1 h
    obtain ⟨c, hc, hci⟩ := List.mem_filterMap.1 hi
    exact ⟨c, hc, Component.isFragment_of_implementation? hci⟩

/-- A graph has the object types of which there are fragments, each joined from its own. If the
fragments of one declare a field twice, joining them reports such a field, and there is no graph. -/
theorem assemble_joins (b : Blueprint ω) (r : Registry ω) (c : Configuration) (w : Workshop ω)
    (name : String) :
    (∀ g, ((b.assemble r c) w).1 = .ok g →
      ((∃ o, g.object? name = some o) ↔ ∃ k ∈ b.components, k.IsFragment name) ∧
        ∀ o, g.object? name = some o → o.name = name ∧
          o.Joins (b.definitionsOf name) (b.implementationsOf name)) ∧
    ∀ field, List.Duplicate field (b.fieldNames name) →
      (∀ g, ((b.assemble r c) w).1 ≠ .ok g) ∧
        ∃ f field', Dict.get? b.parts.objects name = some f ∧
          f.merge name = .error (.duplicateField field' name) ∧
            List.Duplicate field' (b.fieldNames name) := by
  constructor
  · intro g hg
    obtain ⟨t, ht⟩ := exists_assembled hg
    constructor
    · rw [← mem_objectNames_iff]
      exact ⟨fun ⟨o, ho⟩ => (ht.eq_node_of_object? ho).1, fun h => ⟨_, ht.object?_eq h⟩⟩
    · intro o ho
      obtain ⟨hname, rfl⟩ := ht.eq_node_of_object? ho
      refine ⟨rfl, ?_⟩
      rw [← definitions_fragments, ← implementations_fragments]
      exact Fragments.node_joins (ht.objectFields name hname) name
  · intro field hfield
    have hname : name ∈ b.objectNames := mem_objectNames_of_mem_fieldNames hfield.mem
    constructor
    · intro g hg
      obtain ⟨t, ht⟩ := exists_assembled hg
      have hnodup := ht.objectFields name hname
      rw [declared_fragments] at hnodup
      exact List.exists_duplicate_iff_not_nodup.1 ⟨field, hfield⟩ hnodup
    · obtain ⟨field', hmerge, hfield'⟩ := merge_fragments_eq_error hfield
      exact ⟨_, field', get?_objects hname, hmerge, hfield'⟩

/-- Members of a club are declared in three places, with other types in between. The first
implementation is audited, the second one is not. -/
def club : Blueprint Unit where
  rootQuery := "Query"
  components := [
    .implementation {
      name := "Member"
      instanceToken := ⟨"Fees"⟩
      description := some "Pays a fee."
      implements := ["Named"]
      resolvers := .ofList [("fee", {
        name := "fee"
        field := { typeName := "Int" }
        instanceToken := ⟨"Fees"⟩
        parameters := []
        bindings := []
        method := fun _ _ => pure (.ok (.value (.int 12))) })]
      bindings := [{ token := ⟨"Audit"⟩ }] },
    .definition {
      name := "Query"
      fields := .ofList [("members", { typeName := "Named", list := true })] },
    .definition {
      name := "Member"
      description := some "Has joined."
      fields := .ofList [("name", { typeName := "String" })]
      implements := ["Named"] },
    .interface {
      name := "Named"
      fields := .ofList [("name", { typeName := "String" })] },
    .implementation {
      name := "Member"
      instanceToken := ⟨"Votes"⟩
      resolvers := .ofList [("vote", {
        name := "vote"
        field := { typeName := "String", nullable := true }
        instanceToken := ⟨"Votes"⟩
        parameters := []
        bindings := []
        method := fun _ _ => pure (.ok (.value .null)) })] }]

/-- The same components twice. -/
def doubled : Blueprint Unit :=
  { club with components := club.components ++ club.components }

theorem club_joins :
    (∃ g o, ((club.assemble ⟨[]⟩ {}) ⟨[], ()⟩).1 = .ok g ∧ g.object? "Member" = some o ∧
      o.Joins (club.definitionsOf "Member") (club.implementationsOf "Member") ∧
        Dict.keys o.fields = ["name", "fee", "vote"] ∧ o.implements = ["Named"] ∧
          o.description = some "Has joined.\nPays a fee.") ∧
      List.Duplicate "vote" (doubled.fieldNames "Member") ∧
        ∀ g, ((doubled.assemble ⟨[]⟩ {}) ⟨[], ()⟩).1 ≠ .ok g := by
  constructor
  · obtain ⟨g, o, hg, ho, hkeys⟩ : ∃ g o, ((club.assemble ⟨[]⟩ {}) ⟨[], ()⟩).1 = .ok g ∧
        g.object? "Member" = some o ∧ Dict.keys o.fields = ["name", "fee", "vote"] :=
      ⟨_, _, rfl, rfl, rfl⟩
    have hjoins := (((assemble_joins club ⟨[]⟩ {} ⟨[], ()⟩ "Member").1 g hg).2 o ho).2
    exact ⟨g, o, hg, ho, hjoins, hkeys, hjoins.implements, hjoins.description⟩
  · have htwice : List.Duplicate "vote" (doubled.fieldNames "Member") := by
      decide
    exact ⟨htwice, ((assemble_joins doubled ⟨[]⟩ {} ⟨[], ()⟩ "Member").2 "vote" htwice).1⟩

end Blueprint

end GraphAssembly
