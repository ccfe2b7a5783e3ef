import GraphAssembly.Proofs.Execution.Coercions

/-!
# Inputs that must not be null

A literal is asked whether it is null before it is coerced, and its value is not asked again. So a
value at a position that must not be null is null just where a codec has made it so.

1. `HoldsNull`: a value with a null where its type does not allow one. `Nullified`: a literal out of
   which a codec has made one there.
2. Coerced values hold such a null just if their literals are nullified.
3. The arguments of a field, and a label that is lost on its way to the method.
-/

namespace GraphAssembly

variable {ω : Type}

/-! ## Nulls that are not allowed -/

/-- The value is null where it must not be: itself, in an item, or in a field of an input object. -/
inductive HoldsNull (g : Graph ω) : TypeRef → Json → Prop
  | null (t : TypeRef) : HoldsNull g (.nonNull t) .null
  | nonNull {t : TypeRef} {v : Json} (h : HoldsNull g t v) : HoldsNull g (.nonNull t) v
  | item {t : TypeRef} {vs : List Json} {v : Json} (hv : v ∈ vs) (h : HoldsNull g t v) :
    HoldsNull g (.list t) (.arr vs)
  | field {name key : String} {n : InputNode} {f : InputValue} {entries : Dict Json} {v : Json}
    (hn : g.node? name = some (.input n)) (hf : Dict.get? n.fields key = some f)
    (hv : (key, v) ∈ entries) (h : HoldsNull g f.type v) : HoldsNull g (.named name) (.obj entries)

/-- On the way from the literal to the value, the codec of a custom scalar that must not be null has
given null for a literal that is not. -/
inductive Nullified (g : Graph ω) (s : ω) : TypeRef → Json → Json → Prop
  | codec {name : String} {n : ScalarNode ω} {c : Codec ω} {l : Json} {u : ω}
    (hn : g.node? name = some (.scalar n)) (hc : n.codec = some c) (hl : l ≠ .null)
    (hu : g.Parses s u) (hv : (c.parseLiteral l u).1 = .ok .null) :
    Nullified g s (.nonNull (.named name)) l .null
  | nonNull {t : TypeRef} {l v : Json} (h : Nullified g s t l v) : Nullified g s (.nonNull t) l v
  | item {t : TypeRef} {ls vs : List Json} {i : Nat} {l v : Json} (hl : ls[i]? = some l)
    (hv : vs[i]? = some v) (h : Nullified g s t l v) : Nullified g s (.list t) (.arr ls) (.arr vs)
  | single {t : TypeRef} {l v : Json} (harray : ∀ ls, l ≠ .arr ls) (h : Nullified g s t l v) :
    Nullified g s (.list t) l (.arr [v])
  | field {name key : String} {n : InputNode} {f : InputValue} {given coerced : Dict Json}
    {l v : Json} (hn : g.node? name = some (.input n)) (hf : Dict.get? n.fields key = some f)
    (hl : Dict.get? given key = some l) (hv : (key, v) ∈ coerced) (h : Nullified g s f.type l v) :
    Nullified g s (.named name) (.obj given) (.obj coerced)

/-- No codec gives null for a literal that is not null. -/
def Graph.KeepsLiterals (g : Graph ω) : Prop :=
  ∀ name n c, g.node? name = some (.scalar n) → n.codec = some c →
    ∀ l u, l ≠ .null → (c.parseLiteral l u).1 ≠ .ok .null

/-! ## Coerced values -/

section Coerced

variable {g : Graph ω} {s : ω} {t : TypeRef} {l v : Json}

theorem Nullified.holdsNull (h : Nullified g s t l v) : HoldsNull g t v := by
  induction h with
  | codec => exact .null _
  | nonNull _ ih => exact .nonNull ih
  | item _ hv _ ih => exact .item (List.mem_of_getElem? hv) ih
  | single _ _ ih => exact .item List.mem_cons_self ih
  | field hn hf _ hv _ ih => exact .field hn hf hv ih

theorem Nullified.not_keepsLiterals (h : Nullified g s t l v) : ¬ g.KeepsLiterals := by
  intro hg
  induction h with
  | codec hn hc hl _ hv => exact hg _ _ _ hn hc _ _ hl hv
  | nonNull _ ih | item _ _ _ ih | single _ _ ih | field _ _ _ _ _ ih => exact ih

/-- A literal that has become null altogether was not null to begin with. -/
theorem nullified_of_coerces_null (h : Coerces g s t l .null) (hl : l ≠ .null) :
    Nullified g s (.nonNull t) l .null := by
  generalize hv : Json.null = v at h
  induction h with
  | null => exact absurd rfl hl
  | builtin _ hacc =>
    subst hv
    simp at hacc
  | nonNull _ _ ih =>
    subst hv
    exact .nonNull (ih hl rfl)
  | custom hn hc _ hu hparse =>
    subst hv
    exact .codec hn hc hl hu hparse
  | list | single | input => cases hv

theorem Coerces.nullified (h : Coerces g s t l v) (hnull : HoldsNull g t v) :
    Nullified g s t l v := by
  induction h with
  | null ht =>
    cases hnull with
    | null | nonNull => cases ht
  | builtin ht =>
    cases hnull with
    | null | nonNull | item | field => cases ht
  | nonNull hl h ih =>
    cases hnull with
    | null => exact nullified_of_coerces_null h hl
    | nonNull hnull => exact .nonNull (ih hnull)
  | list hlength _ ih =>
    cases hnull with
    | item hv hnull =>
      obtain ⟨i, hi, rfl⟩ := List.mem_iff_getElem.1 hv
      have hl := List.getElem?_eq_getElem (hlength ▸ hi)
      have hv := List.getElem?_eq_getElem hi
      exact .item hl hv (ih i _ _ hl hv hnull)
  | single _ harray _ ih =>
    cases hnull with
    | item hv hnull =>
      obtain rfl := List.mem_singleton.1 hv
      exact .single harray (ih hnull)
  | custom hn =>
    cases hnull with
    | field hn' => cases hn.symm.trans hn'
  | input hn hs _ ih =>
    cases hnull with
    | field hn' hf hv hnull =>
      cases hn.symm.trans hn'
      obtain ⟨l, hl⟩ := hs.exists_given hv
      exact .field hn hf hl hv (ih _ _ l _ hf hl hv hnull)

theorem Coerces.holdsNull_iff (h : Coerces g s t l v) :
    HoldsNull g t v ↔ Nullified g s t l v :=
  ⟨h.nullified, Nullified.holdsNull⟩

end Coerced

/-! ## Arguments -/

section Arguments

variable {b : Blueprint ω} {r : Registry ω} {c : Configuration} {w : Workshop ω} {g : Graph ω}

/-- An argument that must not be null is supplied with a literal that is not null. Its value, and
every value inside of it, is null where it must not be just if a codec has made it so; if no codec
does such a thing, none is. -/
theorem coerceArguments_holdsNull_iff (h : ((b.assemble r c) w).1 = .ok g) {type field : String}
    {node : FieldNode ω} (hf : g.field? type field = some node) {given args : Dict Json} {s : ω}
    (hargs : ((g.coerceArguments node given) s).1 = .ok args) :
    (∀ key a, Dict.get? node.arguments key = some a → a.type.isNonNull = true →
      ∃ l v, Dict.get? given key = some l ∧ l ≠ .null ∧ (key, v) ∈ args) ∧
    (∀ key a l v, Dict.get? node.arguments key = some a → Dict.get? given key = some l →
      (key, v) ∈ args → (HoldsNull g a.type v ↔ Nullified g s a.type l v)) ∧
    (g.KeepsLiterals → ∀ key a v, Dict.get? node.arguments key = some a → (key, v) ∈ args →
      ¬ HoldsNull g a.type v) := by
  obtain ⟨t, hassembled⟩ := Blueprint.exists_assembled h
  obtain ⟨hk, hnode⟩ := hassembled.arguments_of_field? hf
  have hjudged := (coerceArguments_judged hassembled.sound hassembled.inputsKeyed hk hnode given
    s .start).1
  have hall : CoercesAll g s node.arguments given args := hjudged.of_eq_ok hargs
  have hiff {key a l v} (ha : Dict.get? node.arguments key = some a)
      (hl : Dict.get? given key = some l) (hv : (key, v) ∈ args) :
      HoldsNull g a.type v ↔ Nullified g s a.type l v :=
    (hall.coerces key a l v ha hl hv).holdsNull_iff
  refine ⟨fun key a ha ht => ?_, fun key a l v => hiff, fun hg key a v ha hv hnull => ?_⟩
  · obtain ⟨l, hl, hne⟩ := hall.supplies.required key a ha ht
    obtain ⟨v, hv⟩ := hall.supplies.exists_of_given ha hl
    exact ⟨l, v, hl, hne, hv⟩
  · obtain ⟨l, hl⟩ := hall.supplies.exists_given hv
    exact ((hiff ha hl hv).1 hnull).not_keepsLiterals hg

/-- A catalogue that is asked whether a label is missing. -/
def catalogue : Blueprint Unit where
  rootQuery := "Query"
  components := [
    .scalar { name := "Label", codec := ⟨"Labels"⟩ },
    .input {
      name := "Filter"
      fields := .ofList [
        ("label", { typeName := "Label" }),
        ("also", { typeName := "Filter", nullable := true })] },
    .implementation {
      name := "Query"
      instanceToken := ⟨"Catalogue"⟩
      resolvers := .ofList [("isMissing", {
        name := "isMissing"
        field := { typeName := "Boolean" }
        instanceToken := ⟨"Catalogue"⟩
        parameters := [
          ⟨"label", { typeName := "Label" }, 1⟩,
          ⟨"filter", { typeName := "Filter", nullable := true }, 2⟩]
        bindings := []
        method := fun _ args => pure (.ok (.value (.bool (args.get 1).isNull))) })] }]

/-- An empty label is taken for none. -/
def labelling : Codec Unit where
  serialize v := pure (.ok v)
  parseLiteral
    | .str "" => pure (.ok .null)
    | l => pure (.ok l)

def cataloguer : Registry Unit where
  providers := [
    ⟨⟨"Catalogue"⟩, .value ⟨0, .held "Catalogue" .null⟩⟩,
    ⟨⟨"Labels"⟩, .value ⟨1, .codec labelling⟩⟩]

/-- A null is found in the innermost filter, and it comes from the codec. -/
theorem catalogue_holdsNull :
    let l := .obj [("label", .str "new"), ("also", .obj [("label", .str "")])]
    let v := .obj [("label", .str "new"), ("also", .obj [("label", .null)])]
    let given := [("filter", l), ("label", .str "old")]
    let args := [("label", .str "old"), ("filter", v)]
    ∃ g node a, ((catalogue.assemble cataloguer {}) ⟨[], ()⟩).1 = .ok g ∧
      g.field? "Query" "isMissing" = some node ∧ Dict.get? node.arguments "filter" = some a ∧
      ((g.coerceArguments node given) ()).1 = .ok args ∧
      HoldsNull g a.type v ∧ Nullified g () a.type l v ∧ ¬ g.KeepsLiterals := by
  intro l v given args
  obtain ⟨g, hg, node, hnode, harguments, hfilter, hlabel⟩ : ∃ g,
      ((catalogue.assemble cataloguer {}) ⟨[], ()⟩).1 = .ok g ∧ ∃ node,
      g.field? "Query" "isMissing" = some node ∧
      node.arguments = [("label", ⟨"label", none, .nonNull (.named "Label")⟩),
        ("filter", ⟨"filter", none, .named "Filter"⟩)] ∧
      g.node? "Filter" = some (.input {
        name := "Filter"
        description := none
        fields := [("label", ⟨"label", none, .nonNull (.named "Label")⟩),
          ("also", ⟨"also", none, .named "Filter"⟩)] }) ∧
      g.node? "Label" = some (.scalar ⟨"Label", none, some labelling⟩) := by
    refine ⟨_, by with_unfolding_all rfl, ?_⟩
    exact ⟨_, rfl, rfl, rfl, rfl⟩
  have hargs : ((g.coerceArguments node given) ()).1 = .ok args := by
    simp only [given, l, Graph.coerceArguments, harguments, Graph.coerce, hfilter, hlabel,
      Json.isNull, Dict.get?, Dict.values, List.map_cons, List.map_nil, List.mapM_cons,
      List.mapM_nil, Bool.false_eq_true, String.reduceEq, ↓reduceIte, ↓dreduceIte, false_and]
    rfl
  have ha : Dict.get? node.arguments "filter" = some ⟨"filter", none, .named "Filter"⟩ := by
    rw [harguments]
    rfl
  have hnull : HoldsNull g (.named "Filter") v :=
    .field hfilter rfl (.tail _ (.head _)) (.field hfilter rfl (.head _) (.null _))
  obtain ⟨-, hiff, hkeeps⟩ := coerceArguments_holdsNull_iff hg hnode hargs
  have hv : ("filter", v) ∈ args := .tail _ (.head _)
  have hnullified := (hiff "filter" _ l v ha rfl hv).1 hnull
  exact ⟨g, node, _, hg, hnode, ha, hargs, hnull, hnullified,
    fun hkept => hkeeps hkept "filter" _ v ha hv hnull⟩

theorem coerceArguments_label {g : Graph Unit} {node : FieldNode Unit}
    (harguments : node.arguments = [("label", ⟨"label", none, .nonNull (.named "Label")⟩),
      ("filter", ⟨"filter", none, .named "Filter"⟩)])
    (hlabel : g.node? "Label" = some (.scalar ⟨"Label", none, some labelling⟩)) :
    g.coerceArguments node [("label", .str "")] = pure [("label", .null)] := by
  simp only [Graph.coerceArguments, harguments, Graph.coerce, hlabel, Json.isNull, Dict.get?,
    Dict.values, List.map_cons, List.map_nil, List.mapM_cons, List.mapM_nil, Bool.false_eq_true,
    String.reduceEq, ↓reduceIte, false_and]
  rfl

/-- Asked for the empty label, which must not be null, the method is called with null. -/
theorem catalogue_calls_with_null :
    ∃ g node a, ((catalogue.assemble cataloguer {}) ⟨[], ()⟩).1 = .ok g ∧
      g.field? "Query" "isMissing" = some node ∧ Dict.get? node.arguments "label" = some a ∧
      a.type.isNonNull = true ∧
      ((g.coerceArguments node [("label", .str "")]) ()).1 = .ok [("label", .null)] ∧
      (Schema.execute ⟨g, cataloguer, {}⟩ .query
        [.field "isMissing" none [("label", .str "")] []] ⟨{}, [], ()⟩).1 =
          { data := some (.obj [("isMissing", .bool true)]), errors := [] } := by
  obtain ⟨g, hg, node, hnode, harguments, hlabel, hresponse⟩ : ∃ g,
      ((catalogue.assemble cataloguer {}) ⟨[], ()⟩).1 = .ok g ∧ ∃ node,
      g.field? "Query" "isMissing" = some node ∧
      node.arguments = [("label", ⟨"label", none, .nonNull (.named "Label")⟩),
        ("filter", ⟨"filter", none, .named "Filter"⟩)] ∧
      g.node? "Label" = some (.scalar ⟨"Label", none, some labelling⟩) ∧
      (Schema.execute ⟨g, cataloguer, {}⟩ .query
        [.field "isMissing" none [("label", .str "")] []] ⟨{}, [], ()⟩).1 =
          { data := some (.obj [("isMissing", .bool true)]), errors := [] } := by
    let f : SelectedField := { name := "isMissing", arguments := [("label", .str "")] }
    refine ⟨_, by with_unfolding_all rfl, ?_⟩
    refine ⟨_, rfl, rfl, rfl, ?_⟩
    change (Schema.execute _ .query [f.toSelection] _).1 = _
    rw [Schema.execute_of_root rfl, Schema.runWith, Executor.execute_toSelection,
      Executor.executeField_of_get? (by decide) rfl, Executor.executeNode, Executor.resolveField,
      coerceArguments_label rfl rfl]
    decide +kernel
  refine ⟨g, node, ⟨"label", none, .nonNull (.named "Label")⟩, hg, hnode, ?_, rfl, ?_, hresponse⟩
  · rw [harguments]
    rfl
  · rw [coerceArguments_label harguments hlabel]
    rfl

end Arguments

end GraphAssembly
