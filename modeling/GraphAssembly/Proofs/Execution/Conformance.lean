import GraphAssembly.Proofs.Execution.Requests

/-!
# Conformance

Whatever the code behind the fields returns, the data of a response has the shape that the schema
and the selections ask for. What does not have it is an error, and null in the data.

1. `Conforms`, `ConformsOn` and `FieldConforms`: values that have the shape.
2. What the rules give, from a named type to the selections of an object.
3. The statement about responses.
-/

namespace GraphAssembly

variable {ω : Type}

/-- The fields that are selected on an object, in the order in which they are written. -/
def Graph.selectedOn (g : Graph ω) (o : ObjectNode ω) (selections : List Selection) :
    List SelectedField :=
  Selection.fieldsOfAll (fun condition => g.isSubtype condition o.name) selections

/-! ## Values that have the shape -/

mutual

/-- A value of a type. The selections apply to the objects in it. -/
inductive Conforms (g : Graph ω) : TypeRef → List Selection → Json → Prop
  | null {t : TypeRef} {selections : List Selection} (ht : t.isNonNull = false) :
    Conforms g t selections .null
  | nonNull {t : TypeRef} {selections : List Selection} {v : Json} (hv : v ≠ .null)
    (h : Conforms g t selections v) : Conforms g (.nonNull t) selections v
  | list {t : TypeRef} {selections : List Selection} {vs : List Json}
    (h : ∀ v ∈ vs, Conforms g t selections v) : Conforms g (.list t) selections (.arr vs)
  | builtin {t : TypeRef} {selections : List Selection} {v : Json} (ht : t.isBuiltin = true)
    (hv : t.accepts v = true) : Conforms g t selections v
  /-- What the codec of the scalar gives for some value, in some state. -/
  | custom {name : String} {selections : List Selection} {n : ScalarNode ω} {c : Codec ω} {w : Json}
    (hn : g.node? name = some (.scalar n)) (hc : n.codec = some c)
    (hw : ∃ v u, (c.serialize v u).1 = .ok w) : Conforms g (.named name) selections w
  | object {name : String} {selections : List Selection} {o : ObjectNode ω} {v : Json}
    (hn : g.node? name = some (.object o)) (h : ConformsOn g o selections v) :
    Conforms g (.named name) selections v
  | possible {name objectType : String} {selections : List Selection} {o : ObjectNode ω} {v : Json}
    (hn : objectType ∈ g.possibleTypes name) (ho : g.object? objectType = some o)
    (h : ConformsOn g o selections v) : Conforms g (.named name) selections v

/-- A value of an object type, with what is selected on it: one entry for each response key, in the
order in which the keys first occur. -/
inductive ConformsOn (g : Graph ω) : ObjectNode ω → List Selection → Json → Prop
  | entries {o : ObjectNode ω} {selections : List Selection} {entries : Dict Json}
    (hkeys : Dict.keys entries =
      firstOccurrences ((g.selectedOn o selections).map (·.responseKey)))
    (hvalues : ∀ key v, (key, v) ∈ entries →
      FieldConforms g o ((g.selectedOn o selections).filter (·.responseKey = key)) v) :
    ConformsOn g o selections (.obj entries)

/-- The value of the fields selected under one key, of which the first stands for all. -/
inductive FieldConforms (g : Graph ω) : ObjectNode ω → List SelectedField → Json → Prop
  | typename {o : ObjectNode ω} {f : SelectedField} {rest : List SelectedField}
    (h : f.name = Executor.typenameField) : FieldConforms g o (f :: rest) (.str o.name)
  | unknown {o : ObjectNode ω} {f : SelectedField} {rest : List SelectedField}
    (h : f.name ≠ Executor.typenameField) (hf : Dict.get? o.fields f.name = none) :
    FieldConforms g o (f :: rest) .null
  | declared {o : ObjectNode ω} {f : SelectedField} {rest : List SelectedField} {node : FieldNode ω}
    {v : Json} (h : f.name ≠ Executor.typenameField) (hf : Dict.get? o.fields f.name = some node)
    (hv : Conforms g node.type (Selection.nested (f :: rest)) v) : FieldConforms g o (f :: rest) v

end

/-! ## The rules -/

section Rules

variable {g : Graph ω} {A : ObjectEnding ω} {selections : List Selection} {t : TypeRef} {p : Path}
  {d : Trace} {v : Json}

theorem ObjectEnds.conforms (hA : ∀ {o v p d w}, A o v p d (some w) → ConformsOn g o selections w)
    {o : ObjectNode ω} {source : Json} (h : ObjectEnds A o source p d (some v)) :
    ConformsOn g o selections v := by
  cases h with
  | object _ h => exact hA h

theorem NamedEnds.conforms (hA : ∀ {o v p d w}, A o v p d (some w) → ConformsOn g o selections w)
    {static : Option String} {source : Json}
    (h : NamedEnds g A t static source p d (some v)) (ht : t.isSingle = true) :
    Conforms g t selections v := by
  cases h with
  | builtin hb hv => exact .builtin hb hv
  | serialized hb hn hc hw =>
    rw [TypeRef.eq_named ht hb]
    exact .custom hn hc ⟨source, hw⟩
  | object hb hn h =>
    rw [TypeRef.eq_named ht hb]
    exact .object hn (h.conforms hA)
  | @typed n y name o _ _ hb hn hy hname hobject h =>
    obtain ⟨c, hname⟩ := hname
    rw [TypeRef.eq_named ht hb]
    refine .possible ?_ hobject (h.conforms hA)
    have hpossible : g.possibleTypes t.baseName = y.possibleTypes := by
      rw [Graph.possibleTypes, Graph.typing?, hn, Option.bind_some, hy]
    rw [hpossible]
    exact Typing.mem_possibleTypes_of_accept hname

theorem SingleEnds.conforms (hA : ∀ {o v p d w}, A o v p d (some w) → ConformsOn g o selections w)
    {r : Resolved} (h : SingleEnds g A t r p d (some v)) (ht : t.isSingle = true) :
    Conforms g t selections v := by
  cases h with
  | value h | typed h => exact h.conforms hA ht

theorem ListEnds.conforms {item : Resolved → Path → Ending} {r : Resolved} {t' : TypeRef}
    (h : ListEnds item t' r p d (some v))
    (hitem : ∀ {r p d w}, item r p d (some w) → Conforms g t selections w) :
    Conforms g (.list t) selections v := by
  generalize hout : some v = out at h
  cases h with
  | expectedList => cases hout
  | items _ htogether =>
    obtain ⟨bs, -, hbs, -, rfl⟩ := branches_of_items htogether
    obtain ⟨vs, hvs, rfl⟩ := Option.map_eq_some_iff.1 hout.symm
    refine .list fun w hw => ?_
    have : some w ∈ bs.map Branch.outcome :=
      gather_eq_some_iff.1 hvs ▸ List.mem_map_of_mem hw
    obtain ⟨b, hb, hbw⟩ := List.mem_map.1 this
    obtain ⟨i, r, _, _, hends⟩ := hbs b hb
    exact hitem (hbw ▸ hends)

theorem UnlessNull.conforms {content : Resolved → Path → Ending} {r : Resolved}
    (h : UnlessNull content r p d (some v))
    (hcontent : ∀ {d}, content r p d (some v) → Conforms g t selections v) :
    v = .null ∨ Conforms g t selections v := by
  cases h with
  | null => exact .inl rfl
  | content _ h => exact .inr (hcontent h)

/-- A value that was settled is null only where it may be. -/
theorem Settled.conforms {marked : Bool} {label : String} {content : Ending}
    (h : Settled marked label p content d (some v))
    (hcontent : ∀ {d w}, content d (some w) → w = .null ∨ Conforms g t selections w) :
    (v = .null ∧ marked = false) ∨ (v ≠ .null ∧ Conforms g t selections v) := by
  obtain ⟨d', out, hc, hs⟩ := h
  cases hs with
  | value hv => exact .inr ⟨hv, (hcontent hc).resolve_left hv⟩
  | absorbed => exact .inl ⟨rfl, rfl⟩
  | kept =>
    by_cases hv : v = .null
    · exact .inl ⟨hv, rfl⟩
    · exact .inr ⟨hv, (hcontent hc).resolve_left hv⟩

theorem conforms_of_settled
    (h : (v = .null ∧ t.isNonNull = false) ∨ (v ≠ .null ∧ Conforms g t.unmarked selections v)) :
    Conforms g t selections v := by
  rcases h with ⟨rfl, ht⟩ | ⟨hv, h⟩
  · exact .null ht
  · cases t with
    | nonNull inner => exact .nonNull hv h
    | _ => exact h

theorem InnerEnds.conforms (hA : ∀ {o v p d w}, A o v p d (some w) → ConformsOn g o selections w)
    {label : String} {r : Resolved} (h : InnerEnds g A label t r p d (some v)) :
    v = .null ∨ Conforms g t selections v := by
  induction t using TypeRef.contentInduction generalizing r p d v with
  | nonNull inner ih =>
    rw [innerEnds_nonNull] at h
    refine h.conforms fun hsettled => ?_
    rcases hsettled.conforms ih with ⟨_, ht⟩ | ⟨hv, hinner⟩
    · cases ht
    · exact .nonNull hv hinner
  | list item ih =>
    rw [innerEnds_list] at h
    exact h.conforms fun hlist => hlist.conforms fun hitem =>
      conforms_of_settled (Settled.conforms hitem ih)
  | single t ht =>
    rw [innerEnds_single g A label ht] at h
    exact h.conforms fun hsingle => hsingle.conforms hA ht

theorem Ends.conforms (hA : ∀ {o v p d w}, A o v p d (some w) → ConformsOn g o selections w)
    {label : String} {r : Resolved} (h : Ends g A label t r p d (some v)) :
    Conforms g t selections v :=
  conforms_of_settled (Settled.conforms h (InnerEnds.conforms hA))

theorem conforms_nullFor (h : Executor.nullFor t = some v) : Conforms g t selections v := by
  unfold Executor.nullFor at h
  split at h
  · cases h
  · cases h
    exact .null (by simpa using ‹¬ t.isNonNull = true›)

theorem FieldEnds.conforms {s : Schema ω} {f : SelectedField} {rest : List SelectedField}
    (hA : ∀ {o v p d w}, A o v p d (some w) →
      ConformsOn s.graph o (Selection.nested (f :: rest)) w)
    {o : ObjectNode ω} {source : Json} (h : FieldEnds s A o source f p d (some v)) :
    FieldConforms s.graph o (f :: rest) v := by
  generalize hout : some v = out at h
  cases h with
  | typename hname =>
    cases hout
    exact .typename hname
  | unknown hname hf =>
    cases hout
    exact .unknown hname hf
  | badArguments hname hf => exact .declared hname hf (conforms_nullFor hout.symm)
  | failed hname hf => exact .declared hname hf (conforms_nullFor hout.symm)
  | resolved hname hf _ _ hends => exact .declared hname hf (Ends.conforms hA (hout ▸ hends))

end Rules

theorem executes_conforms {s : Schema ω} {selections : List Selection} {o : ObjectNode ω}
    {source v : Json} {p : Path} {d : Trace} (h : Executes s selections o source p d (some v)) :
    ConformsOn s.graph o selections v := by
  refine executes_induction (P := fun selections o _ _ _ out =>
    ∀ v, out = some v → ConformsOn s.graph o selections v) ?_ h v rfl
  intro selections o source p bs hel hbs ih v hv
  obtain ⟨vs, hvs, rfl⟩ := Option.map_eq_some_iff.1 hv
  have houts := gather_eq_some_iff.1 hvs
  have hdistinct := Selection.distinct_collect
    (fun condition => s.graph.isSubtype condition o.name) selections
  have hlen : (Dict.keys (s.graph.groupsOn o selections)).length = vs.length := by
    have := (congrArg List.length hel).symm.trans (by simpa using congrArg List.length houts)
    simpa using this
  have hkeys : Dict.keys ((Dict.keys (s.graph.groupsOn o selections)).zip vs) =
      Dict.keys (s.graph.groupsOn o selections) := List.map_fst_zip hlen.le
  refine .entries (hkeys.trans (Selection.keys_collect _ _)) fun key v hmem => ?_
  have hget : Dict.get? ((Dict.keys (s.graph.groupsOn o selections)).zip vs) key = some v :=
    Dict.get?_of_mem (by rw [Dict.Distinct, hkeys]; exact hdistinct) hmem
  obtain ⟨b, hb, he, hout⟩ := (get?_zip_iff hdistinct hel houts key v).1 hget
  obtain ⟨key', f, rest, he', hgroup, hends⟩ := hbs b hb
  obtain rfl : key' = key := PathElement.key.inj (he'.symm.trans he)
  have hfields : f :: rest = (s.graph.selectedOn o selections).filter (·.responseKey = key') :=
    Selection.fields_of_mem_collect hgroup
  rw [← hfields]
  rw [hout] at hends
  exact hends.conforms fun {o v p d w} h => ih key' f rest hgroup o v p d _ h w rfl

/-! ## Responses -/

theorem answer_conforms {e : Executor ω} (he : e.Schedules) {operation : Operation}
    {selections : List Selection} {w : World ω} {entries : Dict Json}
    (h : (e.answer operation selections w).1.data = some (.obj entries)) :
    ∃ root, e.schema.root? operation = some root ∧
      ConformsOn e.graph root selections (.obj entries) := by
  cases hroot : e.schema.root? operation with
  | none =>
    rw [Executor.answer, hroot] at h
    cases h
  | some root =>
    obtain ⟨errors, out, hends, hdata, -⟩ := answer_ends he hroot selections w
    cases out with
    | none =>
      rw [hdata] at h
      cases h
    | some v =>
      obtain rfl : v = .obj entries := Option.some.inj (hdata.symm.trans h)
      exact ⟨root, rfl, executes_conforms hends⟩

/-- Data that is an object is one of the root type, with what the request selects, in whatever order
siblings and items have gone on. -/
theorem execute_conforms (s : Schema ω) (operation : Operation) (selections : List Selection)
    (w : World ω) (entries : Dict Json) :
    ((s.execute operation selections w).1.data = some (.obj entries) →
      ∃ root, s.root? operation = some root ∧
        ConformsOn s.graph root selections (.obj entries)) ∧
    ∀ e : Executor ω, e.schema = s → e.Schedules →
      (e.answer operation selections w).1.data = some (.obj entries) →
        ∃ root, s.root? operation = some root ∧
          ConformsOn s.graph root selections (.obj entries) := by
  constructor
  · rw [Schema.execute_eq_answer]
    exact answer_conforms (schedules_forOperation s operation)
  · rintro e rfl he
    exact answer_conforms he

/-- A query for a name, which may be missing. -/
def nickname : Blueprint Unit where
  rootQuery := "Query"
  components := [
    .definition {
      name := "Query"
      fields := .ofList [("nickname", { typeName := "String", nullable := true })] }]

/-- Siblings one after the other. -/
def serial : Configuration where
  execution := { concurrentFields := false }

theorem nickname_conforms :
    let selections := [.field "__typename" none [] [],
      .fragment "Query" [.field "nickname" (some "n") [] []]]
    let entries := [("__typename", .str "Query"), ("n", .null)]
    ∃ s w root, Schema.ofBlueprint nickname serial ⟨[], ()⟩ = (.ok s, w) ∧
      (s.execute .query selections ⟨{}, w⟩).1.data = some (.obj entries) ∧
      (Executor.itemByItem s).Schedules ∧
      ((Executor.itemByItem s).answer .query selections ⟨{}, w⟩).1.data = some (.obj entries) ∧
      s.root? .query = some root ∧ ConformsOn s.graph root selections (.obj entries) := by
  intro selections entries
  obtain ⟨s, w, hs, hdata, hdata'⟩ : ∃ s w,
      Schema.ofBlueprint nickname serial ⟨[], ()⟩ = (.ok s, w) ∧
      (s.execute .query selections ⟨{}, w⟩).1.data = some (.obj entries) ∧
      ((Executor.itemByItem s).answer .query selections ⟨{}, w⟩).1.data = some (.obj entries) := by
    refine ⟨_, _, rfl, ?_, ?_⟩
    · rw [Schema.execute_of_root rfl, Schema.runWith, Executor.execute]
      rfl
    · decide +kernel
  have he := schedules_itemByItem s
  obtain ⟨hexecute, hall⟩ := execute_conforms s .query selections ⟨{}, w⟩ entries
  obtain ⟨root, hroot, -⟩ := hexecute hdata
  obtain ⟨root', hroot', h⟩ := hall _ rfl he hdata'
  cases hroot.symm.trans hroot'
  exact ⟨s, w, root, hs, hdata, he, hdata', hroot, h⟩

end GraphAssembly
