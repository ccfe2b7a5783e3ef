import GraphAssembly.Proofs.Execution.Coercions

/-!
# Coercion as a projection

Where no codec has a say, a coercion gives a value that conforms to the type, and what conforms
already is given back: as it is, but for the order in which the keys of objects stand.

1. `Uncoded`: a type from which no custom scalar is reached. `InputConforms`: the values of such a
   type that need no coercion. `Rearranged`: values that differ in the order of keys only.
2. What literals are coerced to conforms (`Coerces.conforms`), and what conforms is not refused
   (`InputConforms.not_refused`).
3. A second coercion changes nothing (`Coerces.again`), and the first one rearranges just what
   conforms.
4. The statement.
-/

namespace GraphAssembly

variable {ω : Type}

/-! ## Values that conform -/

/-- The type of the one name is that of the other, or an input type that leads there by its
fields. -/
inductive Graph.Reaches (g : Graph ω) : (name target : String) → Prop
  | refl (name : String) : Reaches g name name
  | field {name target key : String} {n : InputNode} {f : InputValue}
    (hn : g.node? name = some (.input n)) (hf : Dict.get? n.fields key = some f)
    (h : Reaches g f.type.baseName target) : Reaches g name target

/-- No custom scalar is reached from the type. -/
def Graph.Uncoded (g : Graph ω) (t : TypeRef) : Prop :=
  ∀ name n, g.Reaches t.baseName name → g.node? name = some (.scalar n) → n.codec = none

theorem Graph.Uncoded.field {g : Graph ω} {name key : String} {n : InputNode} {f : InputValue}
    (h : g.Uncoded (.named name)) (hn : g.node? name = some (.input n))
    (hf : Dict.get? n.fields key = some f) : g.Uncoded f.type :=
  fun target s htarget hs => h target s (.field hn hf htarget) hs

/-- A value of an input type as it is. Lists are written as lists, and an input object has all
fields that must not be null, and no field that is not declared. -/
inductive InputConforms (g : Graph ω) : TypeRef → Json → Prop
  | null {t : TypeRef} (ht : t.isNonNull = false) : InputConforms g t .null
  | builtin {t : TypeRef} {v : Json} (ht : t.isBuiltin = true) (hv : t.accepts v = true) :
    InputConforms g t v
  | nonNull {t : TypeRef} {v : Json} (hv : v ≠ .null) (h : InputConforms g t v) :
    InputConforms g (.nonNull t) v
  | list {t : TypeRef} {vs : List Json} (h : ∀ v ∈ vs, InputConforms g t v) :
    InputConforms g (.list t) (.arr vs)
  | input {name : String} {n : InputNode} {entries : Dict Json}
    (hn : g.node? name = some (.input n)) (hdistinct : Dict.Distinct entries)
    (hdeclared : ∀ key ∈ Dict.keys entries, key ∈ Dict.keys n.fields)
    (hrequired : ∀ key f, Dict.get? n.fields key = some f → f.type.isNonNull = true →
      key ∈ Dict.keys entries)
    (h : ∀ key f v, Dict.get? n.fields key = some f → (key, v) ∈ entries →
      InputConforms g f.type v) : InputConforms g (.named name) (.obj entries)

/-- The values are the same, but the keys of their objects may stand in different orders. -/
inductive Json.Rearranged : Json → Json → Prop
  | refl (v : Json) : Rearranged v v
  | arr {vs ws : List Json} (hlength : vs.length = ws.length)
    (h : ∀ (i : Nat) v w, vs[i]? = some v → ws[i]? = some w → Rearranged v w) :
    Rearranged (.arr vs) (.arr ws)
  | obj {d d' : Dict Json} (hkeys : (Dict.keys d).Perm (Dict.keys d'))
    (h : ∀ key v w, (key, v) ∈ d → (key, w) ∈ d' → Rearranged v w) :
    Rearranged (.obj d) (.obj d')

theorem Json.Rearranged.keys_perm {d d' : Dict Json}
    (h : (Json.obj d).Rearranged (.obj d')) : (Dict.keys d).Perm (Dict.keys d') := by
  cases h with
  | refl => exact .refl _
  | obj hkeys => exact hkeys

/-! ## Results and refusals -/

section Results

variable {g : Graph ω} {s : ω} {t : TypeRef} {l v w : Json} {e : FieldError}

theorem InputConforms.of_nonNull (h : InputConforms g (.nonNull t) v) :
    v ≠ .null ∧ InputConforms g t v := by
  cases h with
  | null ht | builtin ht => cases ht
  | nonNull hv h => exact ⟨hv, h⟩

theorem InputConforms.ne_null (h : InputConforms g t v) (ht : t.isNonNull = true) : v ≠ .null := by
  cases t with
  | nonNull => exact h.of_nonNull.1
  | _ => cases ht

theorem Supplies.distinct {declared : Dict InputValue} {given coerced : Dict Json}
    (h : Supplies declared given coerced) (hd : Dict.Distinct declared) :
    Dict.Distinct coerced := by
  rw [Dict.Distinct, h.keys]
  exact hd.filter _

theorem Supplies.declared {declared : Dict InputValue} {given coerced : Dict Json}
    (h : Supplies declared given coerced) {key : String} (hv : (key, v) ∈ coerced) :
    key ∈ Dict.keys declared := by
  have hkey := Dict.mem_keys_of_mem hv
  rw [h.keys] at hkey
  exact (List.mem_filter.1 hkey).1

theorem Coerces.ne_null (huncoded : g.Uncoded t) (hl : l ≠ .null) (h : Coerces g s t l v) :
    v ≠ .null := by
  rintro rfl
  rcases coerces_null h with ⟨hnull, -⟩ | ⟨n, c, u, hn, hc, -⟩
  · exact hl hnull
  · rw [huncoded _ n (.refl _) hn] at hc
    cases hc

/-- A result of a coercion is a value that needs no coercion. -/
theorem Coerces.conforms (hkeyed : g.InputsKeyed) (huncoded : g.Uncoded t)
    (h : Coerces g s t l v) : InputConforms g t v := by
  induction h with
  | null ht => exact .null ht
  | builtin ht hv => exact .builtin ht hv
  | @nonNull t l v hl h ih =>
    have huncoded : g.Uncoded t := huncoded
    exact .nonNull (h.ne_null huncoded hl) (ih huncoded)
  | @list t ls vs hlength _ ih =>
    refine .list fun v hv => ?_
    obtain ⟨i, hi, rfl⟩ := List.mem_iff_getElem.1 hv
    have hi' : i < ls.length := hlength ▸ hi
    exact ih i _ _ (List.getElem?_eq_getElem hi') (List.getElem?_eq_getElem hi) huncoded
  | single _ _ _ ih =>
    refine .list fun v hv => ?_
    rw [List.mem_singleton.1 hv]
    exact ih huncoded
  | custom hn hc =>
    rw [huncoded _ _ (.refl _) hn] at hc
    cases hc
  | @input name n given coerced hn hs _ ih =>
    refine .input hn (hs.distinct (hkeyed name n hn).distinct) ?_ ?_ ?_
    · intro key hkey
      obtain ⟨⟨_, v⟩, hv, rfl⟩ := List.mem_map.1 hkey
      exact hs.declared hv
    · intro key f hf hrequired
      obtain ⟨l, hl, -⟩ := hs.required key f hf hrequired
      obtain ⟨v, hv⟩ := hs.exists_of_given hf hl
      exact Dict.mem_keys_of_mem hv
    · intro key f v hf hv
      obtain ⟨l, hl⟩ := hs.exists_given hv
      exact ih key f l v hf hl hv (huncoded.field hn hf)

/-- What conforms is not refused. -/
theorem InputConforms.not_refused (h : InputConforms g t v) : ¬Refused g s t v e := by
  intro he
  induction he with
  | builtin ht hnull hl =>
    cases h with
    | null => exact hnull rfl
    | builtin _ hv => cases hl.symm.trans hv
    | _ => cases ht
  | null => exact h.of_nonNull.1 rfl
  | nonNull _ ih => exact ih h.of_nonNull.2
  | item hl _ ih =>
    cases h with
    | builtin ht => cases ht
    | list h => exact ih (h _ hl)
  | single hnull harray =>
    cases h with
    | null => exact hnull rfl
    | builtin ht => cases ht
    | list => exact harray _ rfl
  | custom hn _ hl =>
    cases h with
    | null => exact hl rfl
    | builtin ht => cases ht
    | input hn' => cases hn.symm.trans hn'
  | notObject _ hnull hl =>
    cases h with
    | null => exact hnull rfl
    | builtin ht => cases ht
    | input => exact hl _ rfl
  | absentField hn hf ht hgiven =>
    cases h with
    | builtin ht => cases ht
    | input hn' _ _ hrequired =>
      cases hn.symm.trans hn'
      exact Dict.get?_eq_none_iff.1 hgiven (hrequired _ _ hf ht)
  | nullField hn hf ht hgiven =>
    cases h with
    | builtin ht => cases ht
    | input hn' _ _ _ h =>
      cases hn.symm.trans hn'
      exact (h _ _ _ hf (Dict.mem_of_get? hgiven)).ne_null ht rfl
  | field hn hf hl _ ih =>
    cases h with
    | builtin ht => cases ht
    | input hn' _ _ _ h =>
      cases hn.symm.trans hn'
      exact ih (h _ _ _ hf (Dict.mem_of_get? hl))

/-- What conforms is coerced. -/
theorem InputConforms.exists_coerced (hg : g.Sound) (hkeyed : g.InputsKeyed)
    (ht : g.Admits .input t) (h : InputConforms g t v) (s : ω) :
    ∃ w, ((g.coerce t v) s).1 = .ok w ∧ Coerces g s t v w := by
  have hverdict := (coerce_judged hg hkeyed ht v s .start).1
  generalize ((g.coerce t v) s).1 = answer at hverdict
  cases hverdict with
  | ok hw => exact ⟨_, rfl, hw⟩
  | error he => exact absurd he h.not_refused

/-! ## Coercions of what conforms -/

/-- The names that had values the first time are those that are given the second time. -/
theorem Supplies.keys_again {declared : Dict InputValue} {given coerced coerced' : Dict Json}
    (h : Supplies declared given coerced) (h' : Supplies declared coerced coerced') :
    Dict.keys coerced = Dict.keys coerced' := by
  rw [h'.keys, h.keys]
  apply List.filter_congr
  intro key hkey
  rw [Bool.eq_iff_iff, Dict.contains_eq_true_iff (d := coerced), h.keys, List.mem_filter]
  exact (and_iff_right hkey).symm

theorem Coerces.of_arr {ls : List Json} (h : Coerces g s (.list t) (.arr ls) v) :
    ∃ vs, v = .arr vs ∧ vs.length = ls.length ∧
      ∀ (i : Nat) l v, ls[i]? = some l → vs[i]? = some v → Coerces g s t l v := by
  cases h with
  | builtin ht => cases ht
  | list hlength h => exact ⟨_, rfl, hlength, h⟩
  | single _ harray => exact absurd rfl (harray _)

/-- A value that a literal has been coerced to is coerced to itself only. -/
theorem Coerces.again (hkeyed : g.InputsKeyed) (huncoded : g.Uncoded t) (h : Coerces g s t l v)
    {s' : ω} (h' : Coerces g s' t v w) : v = w := by
  induction h generalizing w with
  | null =>
    cases h' with
    | null | builtin => rfl
    | nonNull hl | single hl | custom _ _ hl => exact absurd rfl hl
  | builtin ht =>
    cases h' with
    | null | builtin => rfl
    | nonNull | list | single | custom | input => cases ht
  | nonNull _ _ ih => exact ih huncoded h'.of_nonNull.2
  | @list t ls vs hlength _ ih =>
    obtain ⟨ws, rfl, hlength', hagain⟩ := h'.of_arr
    congr 1
    refine List.ext_getElem hlength'.symm fun i hi hi' => ?_
    have hl := List.getElem?_eq_getElem (hlength ▸ hi : i < ls.length)
    have hv := List.getElem?_eq_getElem hi
    have hw := List.getElem?_eq_getElem hi'
    exact ih i _ _ hl hv huncoded (hagain i _ _ hv hw)
  | single _ _ _ ih =>
    obtain ⟨ws, rfl, hlength, hagain⟩ := h'.of_arr
    obtain ⟨w, rfl⟩ := List.length_eq_one_iff.1 hlength
    rw [ih huncoded (hagain 0 _ w rfl rfl)]
  | custom hn hc =>
    rw [huncoded _ _ (.refl _) hn] at hc
    cases hc
  | @input name n given coerced hn hs _ ih =>
    cases h' with
    | builtin ht => cases ht
    | custom hn' => cases hn.symm.trans hn'
    | input hn' hs' hagain =>
      cases hn.symm.trans hn'
      have hdistinct := hs.distinct (hkeyed name n hn).distinct
      congr 1
      refine Dict.eq_of_keys (hs.keys_again hs') hdistinct fun key v w hv hw => ?_
      have hget := Dict.get?_of_mem hdistinct hv
      obtain ⟨l, hl⟩ := hs.exists_given hv
      obtain ⟨f, hf⟩ := Dict.exists_get?_of_mem_keys (hs.declared hv)
      exact ih key f l v hf hl hv (huncoded.field hn hf) (hagain key f v w hf hget hw)

/-- A coercion leaves what conforms as it is, up to the order of keys. -/
theorem InputConforms.rearranged (hkeyed : g.InputsKeyed) (h : InputConforms g t v)
    (h' : Coerces g s t v w) : v.Rearranged w := by
  induction h generalizing w with
  | null =>
    cases h' with
    | null | builtin => exact .refl _
    | nonNull hl | single hl | custom _ _ hl => exact absurd rfl hl
  | builtin ht =>
    cases h' with
    | null | builtin => exact .refl _
    | nonNull | list | single | custom | input => cases ht
  | nonNull _ _ ih => exact ih h'.of_nonNull.2
  | @list t vs _ ih =>
    obtain ⟨ws, rfl, hlength, hagain⟩ := h'.of_arr
    refine .arr hlength.symm fun i v w hv hw => ?_
    exact ih v (List.mem_of_getElem? hv) (hagain i v w hv hw)
  | @input name n entries hn hdistinct hdeclared _ _ ih =>
    cases h' with
    | builtin ht => cases ht
    | custom hn' => cases hn.symm.trans hn'
    | @input _ _ _ coerced hn' hs hcoerces =>
      cases hn.symm.trans hn'
      refine .obj ?_ fun key v w hv hw => ?_
      · rw [List.perm_ext_iff_of_nodup hdistinct (hs.distinct (hkeyed name n hn).distinct)]
        intro key
        rw [hs.keys, List.mem_filter, Dict.contains_eq_true_iff]
        exact ⟨fun hkey => ⟨hdeclared key hkey, hkey⟩, fun hkey => hkey.2⟩
      · obtain ⟨f, hf⟩ := Dict.exists_get?_of_mem_keys (hdeclared key (Dict.mem_keys_of_mem hv))
        have hget := Dict.get?_of_mem hdistinct hv
        exact ih key f v hf hv (hcoerces key f v w hf hget hw)

theorem TypeRef.accepts_arr (t : TypeRef) (vs : List Json) : t.accepts (.arr vs) = false := by
  cases t <;> rfl

theorem TypeRef.accepts_obj (t : TypeRef) (entries : Dict Json) :
    t.accepts (.obj entries) = false := by
  cases t <;> rfl

/-- The order of keys has no part in whether a value conforms. -/
theorem InputConforms.of_rearranged (h : InputConforms g t w) (h' : v.Rearranged w) :
    InputConforms g t v := by
  induction h generalizing v with
  | null ht =>
    cases h'
    exact .null ht
  | builtin ht hw =>
    cases h' with
    | refl => exact .builtin ht hw
    | arr => cases (TypeRef.accepts_arr _ _).symm.trans hw
    | obj => cases (TypeRef.accepts_obj _ _).symm.trans hw
  | nonNull hw _ ih =>
    refine .nonNull ?_ (ih h')
    rintro rfl
    cases h'
    exact hw rfl
  | @list t ws h ih =>
    cases h' with
    | refl => exact .list h
    | @arr vs _ hlength hitems =>
      refine .list fun v hv => ?_
      obtain ⟨i, hi, rfl⟩ := List.mem_iff_getElem.1 hv
      have hi' : i < ws.length := hlength ▸ hi
      exact ih _ (List.getElem_mem hi')
        (hitems i _ _ (List.getElem?_eq_getElem hi) (List.getElem?_eq_getElem hi'))
  | @input name n entries hn hdistinct hdeclared hrequired h ih =>
    cases h' with
    | refl => exact .input hn hdistinct hdeclared hrequired h
    | @obj d _ hkeys hentries =>
      refine .input hn (hkeys.nodup_iff.2 hdistinct) ?_ ?_ ?_
      · exact fun key hkey => hdeclared key (hkeys.mem_iff.1 hkey)
      · exact fun key f hf ht => hkeys.mem_iff.2 (hrequired key f hf ht)
      · intro key f v hf hv
        obtain ⟨⟨_, w⟩, hw, rfl⟩ := List.mem_map.1 (hkeys.mem_iff.1 (Dict.mem_keys_of_mem hv))
        exact ih _ f w hf hw (hentries _ v w hv hw)

end Results

/-! ## The statement -/

section Projection

variable {b : Blueprint ω} {r : Registry ω} {c : Configuration} {w : Workshop ω} {g : Graph ω}

/-- What is coerced conforms to its type and is not changed by a further coercion, and a literal is
only rearranged just if it conforms. -/
theorem coerce_projects (h : ((b.assemble r c) w).1 = .ok g) {t : TypeRef}
    (ht : g.Admits .input t) (huncoded : g.Uncoded t) (l : Json) (s : ω) :
    (∀ v, ((g.coerce t l) s).1 = .ok v →
      InputConforms g t v ∧ ∀ s', ((g.coerce t v) s').1 = .ok v) ∧
    ((∃ v, ((g.coerce t l) s).1 = .ok v ∧ l.Rearranged v) ↔ InputConforms g t l) := by
  obtain ⟨table, hassembled⟩ := Blueprint.exists_assembled h
  have hg := hassembled.sound
  have hkeyed := hassembled.inputsKeyed
  have hcoerces {v : Json} (hv : ((g.coerce t l) s).1 = .ok v) : Coerces g s t l v :=
    (coerce_judged hg hkeyed ht l s .start).1.of_eq_ok hv
  constructor
  · intro v hv
    have hconforms := (hcoerces hv).conforms hkeyed huncoded
    refine ⟨hconforms, fun s' => ?_⟩
    obtain ⟨w, hw, hagain⟩ := hconforms.exists_coerced hg hkeyed ht s'
    rw [hw, ← (hcoerces hv).again hkeyed huncoded hagain]
  · constructor
    · rintro ⟨v, hv, hrearranged⟩
      exact ((hcoerces hv).conforms hkeyed huncoded).of_rearranged hrearranged
    · intro hconforms
      obtain ⟨v, hv, hagain⟩ := hconforms.exists_coerced hg hkeyed ht s
      exact ⟨v, hv, hconforms.rearranged hkeyed hagain⟩

/-- A filter may hold a filter. -/
def search : Blueprint Unit where
  rootQuery := "Query"
  components := [
    .definition {
      name := "Query"
      fields := .ofList [("count", { typeName := "Int" })] },
    .input {
      name := "Filter"
      fields := .ofList [
        ("words", { typeName := "String", list := true }),
        ("without", { typeName := "Filter", nullable := true }),
        ("limit", { typeName := "Int", nullable := true })] }]

/-- The node is not a scalar with a codec. -/
def Node.isUncoded : Node ω → Bool
  | .scalar n => n.codec.isNone
  | _ => true

/-- A single word becomes a list, also in the inner filter, and a field that is not declared is
dropped. Then nothing is left to do. -/
theorem search_projects :
    let t : TypeRef := .nonNull (.named "Filter")
    let l : Json := .obj [("colour", .str "red"),
      ("without", .obj [("limit", .null), ("words", .str "old")]), ("words", .str "new")]
    let v : Json := .obj [("words", .arr [.str "new"]),
      ("without", .obj [("words", .arr [.str "old"]), ("limit", .null)])]
    ∃ g, ((search.assemble ⟨[]⟩ {}) ⟨[], ()⟩).1 = .ok g ∧ g.Admits .input t ∧ g.Uncoded t ∧
      ((g.coerce t l) ()).1 = .ok v ∧ InputConforms g t v ∧ ((g.coerce t v) ()).1 = .ok v ∧
        ¬InputConforms g t l := by
  intro t l v
  obtain ⟨g, hg, hadmits, hall, hfilter⟩ : ∃ g, ((search.assemble ⟨[]⟩ {}) ⟨[], ()⟩).1 = .ok g ∧
      g.Admits .input t ∧ (g.nodes.all fun e => e.2.isUncoded) = true ∧
        g.node? "Filter" = some (.input {
          name := "Filter"
          description := none
          fields := [("words", ⟨"words", none, .nonNull (.list .string)⟩),
            ("without", ⟨"without", none, .named "Filter"⟩),
            ("limit", ⟨"limit", none, .int⟩)] }) :=
    ⟨_, rfl, ⟨_, rfl, rfl⟩, rfl, rfl⟩
  have hv : ((g.coerce t l) ()).1 = .ok v := by
    simp only [t, l, Graph.coerce, hfilter, Json.isNull, Dict.get?, Dict.values, List.map_cons,
      List.map_nil, List.mapM_cons, List.mapM_nil, Bool.false_eq_true, String.reduceEq, ↓reduceIte,
      ↓dreduceIte, false_and]
    rfl
  have huncoded : g.Uncoded t := by
    intro name n _ hn
    exact Option.isNone_iff_eq_none.1 (List.all_eq_true.1 hall _ (Dict.mem_of_get? hn))
  obtain ⟨hprojects, hiff⟩ := coerce_projects hg hadmits huncoded l ()
  obtain ⟨hconforms, hagain⟩ := hprojects v hv
  refine ⟨g, hg, hadmits, huncoded, hv, hconforms, hagain (), fun hl => ?_⟩
  obtain ⟨v', hv', hrearranged⟩ := hiff.2 hl
  cases hv.symm.trans hv'
  have hcolour : "colour" ∈ ["words", "without"] :=
    hrearranged.keys_perm.subset List.mem_cons_self
  exact absurd hcolour (by decide)

end Projection

end GraphAssembly
