import GraphAssembly.Proofs.Assembly.Likeness

/-!
# Discriminants

A value that says nothing about its type is told by its fields. A discriminant belongs to one
possible type alone, so among the fields of one type there is no discriminant of another.

1. Which field is the discriminant of a type.
2. The fields of a value, and the type that they tell.
3. The statement, for the abstract types of an assembled graph.
-/

namespace GraphAssembly

variable {ω : Type}

/-! ## The discriminant of a type -/

namespace FieldSets

variable {sets : FieldSets} {possible : List String} {type type' field : String}

/-- A field of the type that no other possible type has. -/
def Own (sets : FieldSets) (possible : List String) (type field : String) : Prop :=
  field ∈ sets.fields type ∧ ∀ other ∈ possible, field ∈ sets.fields other → other = type

/-- The discriminant is the first of the fields that are the type's own. -/
theorem discriminant?_eq_some_iff : sets.discriminant? possible type = some field ↔
    sets.Own possible type field ∧ ∃ before after,
      sets.fields type = before ++ field :: after ∧ ∀ f ∈ before, ¬ sets.Own possible type f := by
  have hown {f : String} (hf : f ∈ sets.fields type) :
      (!sets.sharedBeyond possible type f) = true ↔ sets.Own possible type f := by
    rw [Bool.not_eq_true', ← Bool.not_eq_true, sharedBeyond_iff, Own]
    push Not
    constructor
    · exact fun h => ⟨hf, fun other hother hshared =>
        by_contra fun hne => h other hother hne hshared⟩
    · exact fun h other hother hne hshared => hne (h.2 other hother hshared)
  rw [discriminant?, ← fields, List.find?_eq_some_iff_append]
  constructor
  · rintro ⟨hfield, before, after, hsplit, hbefore⟩
    have hmem : field ∈ sets.fields type := hsplit ▸ List.mem_append_right _ List.mem_cons_self
    refine ⟨(hown hmem).1 hfield, before, after, hsplit, fun f hf hfown => ?_⟩
    have := hbefore f hf
    rw [(hown hfown.1).2 hfown] at this
    cases this
  · rintro ⟨hfield, before, after, hsplit, hbefore⟩
    refine ⟨(hown hfield.1).2 hfield, before, after, hsplit, fun f hf => ?_⟩
    have hmem : f ∈ sets.fields type := hsplit ▸ List.mem_append_left _ hf
    simpa using mt (hown hmem).1 (hbefore f hf)

theorem mem_discriminants_iff : (type, field) ∈ sets.discriminants possible ↔
    type ∈ possible ∧ sets.discriminant? possible type = some field := by
  simp only [discriminants, List.mem_filterMap, Option.map_eq_some_iff, Prod.mk.injEq]
  constructor
  · rintro ⟨type, htype, field, hfield, rfl, rfl⟩
    exact ⟨htype, hfield⟩
  · rintro ⟨htype, hfield⟩
    exact ⟨type, htype, field, hfield, rfl, rfl⟩

/-- No two types have the same discriminant. -/
theorem eq_of_mem_discriminants (h : (type, field) ∈ sets.discriminants possible)
    (h' : (type', field) ∈ sets.discriminants possible) : type = type' :=
  (of_mem_discriminants h').2 type (mem_discriminants_iff.1 h).1 (of_mem_discriminants h).1

end FieldSets

/-! ## The type of a value -/

section Values

variable {sets : FieldSets} {possible : List String} {type : String} {v : Json} {y : Typing ω}

/-- Among the fields of a type there is no discriminant but its own. -/
theorem Typing.discriminate_eq_some (hy : y.discriminants = sets.discriminants possible)
    (htype : type ∈ possible) (hv : ∀ key, v.hasKey key = true → key ∈ sets.fields type)
    {found : String} (h : y.discriminate v = some found) :
    found = type ∧ ∃ field, v.hasKey field = true ∧ (type, field) ∈ y.discriminants := by
  obtain ⟨⟨other, field⟩, hfind, rfl⟩ := Option.map_eq_some_iff.1 h
  have hmem := List.mem_of_find?_eq_some hfind
  have hfield : v.hasKey field = true := by simpa using List.find?_some hfind
  rw [hy] at hmem
  obtain rfl := (FieldSets.of_mem_discriminants hmem).2 type htype (hv field hfield)
  exact ⟨rfl, field, hfield, hy ▸ hmem⟩

theorem Typing.discriminate_ne_none {field : String} (hfield : v.hasKey field = true)
    (hmem : (type, field) ∈ y.discriminants) : y.discriminate v ≠ none := by
  intro h
  rw [discriminate, Option.map_eq_none_iff] at h
  exact List.find?_eq_none.1 h _ hmem hfield

/-- Without a static type, a marker or an answer of the chooser the discriminants decide. -/
theorem Typing.resolve_eq_accept {scope : Scope ω} (hmarker : v.stringField? y.markerField = none)
    (hchooser : (y.choose v scope).1 = none) :
    (y.resolve none v scope).1 = y.accept (y.discriminate v) := by
  have hsuggest : (y.suggest none v scope).1 = y.discriminate v := by
    rw [suggest, hmarker]
    change ((y.choose v scope).1).or (y.discriminate v) = _
    rw [hchooser, Option.none_or]
  change y.accept (y.suggest none v scope).1 = _
  rw [hsuggest]

theorem Json.hasKey_obj {entries : Dict Json} {key : String} :
    (Json.obj entries).hasKey key = true ↔ key ∈ Dict.keys entries :=
  Dict.contains_eq_true_iff

end Values

/-! ## Abstract types of an assembled graph -/

namespace Blueprint

variable {b : Blueprint ω} {r : Registry ω} {w : Workshop ω} {c : Configuration} {g : Graph ω}
  {t : Declarations ω}

namespace Assembled

variable (h : b.Assembled c g t)

include h

/-- What an abstract type goes by is made from the table. -/
theorem exists_make {name : String} {y : Typing ω} (hy : g.typing? name = some y) :
    ∃ possible chooser, y = .make name possible t.fieldSets chooser c.typeResolution := by
  obtain ⟨n, hn, htyping⟩ := Option.bind_eq_some_iff.1 hy
  obtain ⟨d, hget, rfl⟩ := h.exists_of_node? hn
  obtain ⟨rfl, hd, -⟩ := h.table.of_get? hget
  cases hd with
  | interface | union => exact ⟨_, _, (Option.some.inj htyping).symm⟩
  | _ => cases htyping

theorem own_iff {possible : List String} {type field : String} :
    t.fieldSets.Own possible type field ↔ g.Tells possible type field := by
  simp only [FieldSets.Own, Graph.Tells, h.mem_fields_iff]

end Assembled

/-- With discriminants enabled, a value whose fields are all of one possible type is of that type
or of none: of that type if it carries the discriminant, which is the first field that the type
has alone. -/
theorem assemble_discriminates (h : ((b.assemble r c) w).1 = .ok g)
    (hc : c.typeResolution.discriminants = true) {name : String} {y : Typing ω}
    (hy : g.typing? name = some y) :
    (∀ type ∈ y.possibleTypes, ∀ entries : Dict Json,
      (∀ key ∈ Dict.keys entries, g.HasField type key) →
      (Json.obj entries).stringField? c.typeResolution.markerField = none →
      ∀ scope, (y.choose (.obj entries) scope).1 = none →
        ((∃ field ∈ Dict.keys entries, (type, field) ∈ y.discriminants) →
          (y.resolve none (.obj entries) scope).1 = .ok type) ∧
        ((∀ field ∈ Dict.keys entries, (type, field) ∉ y.discriminants) →
          (y.resolve none (.obj entries) scope).1 = .error (.unresolvedType name))) ∧
    (∀ type ∈ y.possibleTypes, ∃ o, g.object? type = some o ∧
      ((∃ field, (type, field) ∈ y.discriminants) ↔
        ∃ field ∈ Dict.keys o.fields, ∀ other ∈ y.possibleTypes, other ≠ type →
          ¬ g.HasField other field) ∧
      ∀ field, (type, field) ∈ y.discriminants ↔
        g.Tells y.possibleTypes type field ∧ ∃ before after,
          Dict.keys o.fields = before ++ field :: after ∧
            ∀ f ∈ before, ¬ g.Tells y.possibleTypes type f) ∧
    (∀ type field, (type, field) ∈ y.discriminants → type ∈ y.possibleTypes) ∧
    ∀ type type' field, (type, field) ∈ y.discriminants → (type', field) ∈ y.discriminants →
      type = type' := by
  obtain ⟨t, ht⟩ := exists_assembled h
  obtain ⟨possible, chooser, rfl⟩ := ht.exists_make hy
  have hdiscriminants : (Typing.make name possible t.fieldSets chooser
      c.typeResolution).discriminants = t.fieldSets.discriminants possible := if_pos hc
  refine ⟨fun type htype entries hentries hmarker scope hchooser => ?_, fun type htype => ?_,
    fun type field hmem => ?_, fun type type' field hmem hmem' => ?_⟩
  · have hkeys : ∀ key, (Json.obj entries).hasKey key = true → key ∈ t.fieldSets.fields type :=
      fun key hkey => ht.mem_fields_iff.2 (hentries key (Json.hasKey_obj.1 hkey))
    rw [Typing.resolve_eq_accept hmarker hchooser]
    refine ⟨fun ⟨field, hfield, hmem⟩ => ?_, fun hnone => ?_⟩
    · obtain ⟨found, hfound⟩ := Option.ne_none_iff_exists'.1
        (Typing.discriminate_ne_none (Json.hasKey_obj.2 hfield) hmem)
      obtain ⟨rfl, -⟩ := Typing.discriminate_eq_some hdiscriminants htype hkeys hfound
      rw [hfound, Typing.accept, if_pos htype]
    · cases hfound : (Typing.make name possible t.fieldSets chooser
          c.typeResolution).discriminate (.obj entries) with
      | none => rfl
      | some found =>
        obtain ⟨-, field, hfield, hmem⟩ :=
          Typing.discriminate_eq_some hdiscriminants htype hkeys hfound
        exact absurd hmem (hnone field (Json.hasKey_obj.1 hfield))
  · obtain ⟨n, hn, hn'⟩ := Option.bind_eq_some_iff.1 hy
    obtain ⟨o, ho⟩ := ht.sound.possible hn hn' type htype
    have hiff {field : String} : (type, field) ∈ t.fieldSets.discriminants possible ↔
        t.fieldSets.discriminant? possible type = some field := by
      rw [FieldSets.mem_discriminants_iff]
      exact and_iff_right htype
    rw [hdiscriminants]
    refine ⟨o, ho, ?_, fun field => ?_⟩
    · simp only [hiff, ← Option.isSome_iff_exists, FieldSets.discriminant?_isSome_iff,
        ht.fields_eq ho, ht.mem_fields_iff]
      refine exists_congr fun field => and_congr_right fun _ => forall₂_congr fun other _ => ?_
      exact not_imp_not.symm
    · rw [hiff, FieldSets.discriminant?_eq_some_iff]
      simp only [ht.own_iff, ht.fields_eq ho]
      rfl
  · rw [hdiscriminants] at hmem
    exact (FieldSets.mem_discriminants_iff.1 hmem).1
  · rw [hdiscriminants] at hmem hmem'
    exact FieldSets.eq_of_mem_discriminants hmem hmem'

/-- Letters of two sorts, one of which is described in two places. -/
def letters : Blueprint Unit where
  rootQuery := "Query"
  components := [
    .definition {
      name := "TypeA"
      fields := .ofList [("fieldA", { typeName := "Int" }), ("fieldB", { typeName := "Int" })] },
    .definition { name := "TypeA", fields := .ofList [("fieldC", { typeName := "Int" })] },
    .definition {
      name := "TypeB"
      fields := .ofList [("fieldA", { typeName := "Int" }), ("fieldB", { typeName := "Int" }),
        ("fieldD", { typeName := "Int" })] },
    .union { name := "Letters", members := ["TypeA", "TypeB"] },
    .definition {
      name := "Query"
      fields := .ofList [("letters", { typeName := "Letters", list := true })] }]

/-- A value with a field of the second fragment is told by it; one with the common fields only is
not told at all. -/
theorem letters_discriminate : ∃ g y, ((letters.assemble clockwork {}) ⟨[], ()⟩).1 = .ok g ∧
    g.typing? "Letters" = some y ∧ y.discriminants = [("TypeA", "fieldC"), ("TypeB", "fieldD")] ∧
    (y.resolve none (.obj [("fieldB", .num (.int 2)), ("fieldC", .null)]) ⟨{}, ()⟩).1 =
      .ok "TypeA" ∧
    (y.resolve none (.obj [("fieldA", .num (.int 1)), ("fieldB", .num (.int 2))]) ⟨{}, ()⟩).1 =
      .error (.unresolvedType "Letters") := by
  obtain ⟨g, y, hg, hy, hfields, htypes, hchooser⟩ : ∃ g y,
      ((letters.assemble clockwork {}) ⟨[], ()⟩).1 = .ok g ∧ g.typing? "Letters" = some y ∧
      (∃ o, g.object? "TypeA" = some o ∧ Dict.keys o.fields = ["fieldA", "fieldB", "fieldC"]) ∧
      (y.possibleTypes = ["TypeA", "TypeB"] ∧
        y.discriminants = [("TypeA", "fieldC"), ("TypeB", "fieldD")]) ∧
      y.chooser = none := ⟨_, _, rfl, rfl, ⟨_, rfl, rfl⟩, ⟨rfl, by decide⟩, rfl⟩
  obtain ⟨o, ho, hkeys⟩ := hfields
  obtain ⟨hpossible, hdiscriminants⟩ := htypes
  have hdiscriminates := (assemble_discriminates hg rfl hy).1 "TypeA" (by simp [hpossible])
  have hfield {key : String} (hkey : key ∈ ["fieldA", "fieldB", "fieldC"]) :
      g.HasField "TypeA" key := ⟨o, ho, hkeys ▸ hkey⟩
  have hchoose (v : Json) : (y.choose v ⟨{}, ()⟩).1 = none := by
    rw [Typing.choose, hchooser]
    rfl
  refine ⟨g, y, hg, hy, hdiscriminants, ?_, ?_⟩
  · refine (hdiscriminates _ (fun key hkey => hfield ?_) rfl _ (hchoose _)).1 ?_
    · exact List.mem_cons_of_mem _ hkey
    · exact ⟨"fieldC", by decide, by simp [hdiscriminants]⟩
  · refine (hdiscriminates _ (fun key hkey => hfield ?_) rfl _ (hchoose _)).2 ?_
    · exact List.mem_append_left ["fieldC"] hkey
    · simp [hdiscriminants, Dict.keys]

end Blueprint

end GraphAssembly
