import GraphAssembly.Proofs.Execution.Isolation
import GraphAssembly.Proofs.Execution.Serial

/-!
# Selections that come to the same

What is executed on an object is determined by the fields that are selected on it. So an inline
fragment may be replaced by its selections or left out, and the fields of one response key by a
single field that selects what they select together: the execution is the same routine.

1. `inlinedAll` and `mergedFields`.
2. An execution depends on the selected fields only, and on those of one key only through the merged
   one.
3. `Asked`: how often the field under a key is asked for its value.
4. The statement, and selections with nested fragments.
-/

namespace GraphAssembly

open Routine

variable {ω : Type}

/-! ## Inlining and merging -/

namespace Selection

mutual

/-- What stands in the place of a selection when fragments are inlined. -/
def inlined (applies : String → Bool) : Selection → List Selection
  | .field name alias? arguments selections => [.field name alias? arguments selections]
  | .fragment condition selections =>
    if applies condition then inlinedAll applies selections else []

def inlinedAll (applies : String → Bool) : List Selection → List Selection
  | [] => []
  | s :: rest => inlined applies s ++ inlinedAll applies rest

end

/-- The first field, with what all of them select. -/
def mergeFields : List SelectedField → Option SelectedField
  | [] => none
  | f :: rest => some { f with selections := nested (f :: rest) }

/-- The merged field of a response key, if a field has it. -/
def mergedField (fields : List SelectedField) (key : String) : Option SelectedField :=
  mergeFields (fields.filter (·.responseKey = key))

/-- One field for each response key, in the order in which the keys first occur. -/
def mergedFields (fields : List SelectedField) : List SelectedField :=
  (firstOccurrences (fields.map (·.responseKey))).filterMap (mergedField fields)

mutual

theorem inlined_eq (applies : String → Bool) (s : Selection) :
    inlined applies s = (fieldsOf applies s).map SelectedField.toSelection := by
  cases s with
  | field => rfl
  | fragment condition selections =>
    rw [inlined, fieldsOf]
    split
    · exact inlinedAll_eq applies selections
    · rfl

theorem inlinedAll_eq (applies : String → Bool) (selections : List Selection) :
    inlinedAll applies selections =
      (fieldsOfAll applies selections).map SelectedField.toSelection := by
  cases selections with
  | nil => rfl
  | cons s rest =>
    rw [inlinedAll, fieldsOfAll, List.map_append, inlined_eq applies s, inlinedAll_eq applies rest]

end

/-- A selection of fields selects these fields, whatever applies. -/
theorem fieldsOfAll_toSelection (applies : String → Bool) (fields : List SelectedField) :
    fieldsOfAll applies (fields.map SelectedField.toSelection) = fields := by
  induction fields with
  | nil => rfl
  | cons f rest ih => exact congrArg (f :: ·) ih

end Selection

namespace Graph

variable (g : Graph ω) (o : ObjectNode ω)

/-- The condition is the object type itself, or an abstract type of which it is a possible one. -/
def Applies (condition : String) : Prop :=
  condition = o.name ∨ o.name ∈ g.possibleTypes condition

instance (condition : String) : Decidable (g.Applies o condition) :=
  inferInstanceAs (Decidable (_ ∨ _))

/-- The selections on an object, with the fragments that apply to it replaced by theirs and without
those that do not. -/
def inlinedOn (selections : List Selection) : List Selection :=
  Selection.inlinedAll (fun condition => g.Applies o condition) selections

/-- The fields that remain then, those of each response key merged into the first of them. -/
def mergedOn (selections : List Selection) : List Selection :=
  (Selection.mergedFields (Selection.fieldsOfAll (fun condition => g.Applies o condition)
    (g.inlinedOn o selections))).map SelectedField.toSelection

theorem isSubtype_eq_applies (condition : String) :
    g.isSubtype condition o.name = decide (g.Applies o condition) := by
  rw [Bool.eq_iff_iff, decide_eq_true_iff]
  simp [isSubtype, Applies]

theorem inlinedOn_eq (selections : List Selection) :
    g.inlinedOn o selections = (g.selectedOn o selections).map SelectedField.toSelection := by
  simp only [inlinedOn, selectedOn, Selection.inlinedAll_eq, isSubtype_eq_applies]

theorem selectedOn_toSelection (fields : List SelectedField) :
    g.selectedOn o (fields.map SelectedField.toSelection) = fields :=
  Selection.fieldsOfAll_toSelection _ fields

theorem mergedOn_eq (selections : List Selection) : g.mergedOn o selections =
    (Selection.mergedFields (g.selectedOn o selections)).map SelectedField.toSelection := by
  rw [mergedOn, inlinedOn_eq, Selection.fieldsOfAll_toSelection]

end Graph

/-! ## The fields of one key -/

theorem foldl_keep_of_nodup {names kept : List String} (h : (kept ++ names).Nodup) :
    names.foldl (fun kept n => if n ∈ kept then kept else kept ++ [n]) kept = kept ++ names := by
  induction names generalizing kept with
  | nil => simp
  | cons n rest ih =>
    have hn : n ∉ kept := fun hmem => (List.nodup_append.1 h).2.2 n hmem n List.mem_cons_self rfl
    rw [List.append_cons] at h ⊢
    rw [List.foldl_cons, if_neg hn, ih h]

theorem firstOccurrences_of_nodup {names : List String} (h : names.Nodup) :
    firstOccurrences names = names := foldl_keep_of_nodup h

namespace Selection

variable {fields : List SelectedField} {key : String}

theorem responseKey_of_mergedField {f : SelectedField} (h : mergedField fields key = some f) :
    f.responseKey = key := by
  unfold mergedField at h
  cases hfields : fields.filter (·.responseKey = key) with
  | nil =>
    rw [hfields] at h
    cases h
  | cons first rest =>
    rw [hfields] at h
    have hfirst : first ∈ fields.filter (·.responseKey = key) := hfields ▸ List.mem_cons_self
    cases h
    exact of_decide_eq_true (List.mem_filter.1 hfirst).2

theorem exists_mergedField (hkey : key ∈ fields.map (·.responseKey)) :
    ∃ f, mergedField fields key = some f := by
  obtain ⟨f, hf, rfl⟩ := List.mem_map.1 hkey
  have hmem : f ∈ fields.filter (·.responseKey = f.responseKey) := List.mem_filter.2 ⟨hf, by simp⟩
  obtain ⟨first, rest, hfields⟩ := List.exists_cons_of_ne_nil (List.ne_nil_of_mem hmem)
  exact ⟨_, congrArg mergeFields hfields⟩

theorem map_responseKey_mergedFields (fields : List SelectedField) :
    (mergedFields fields).map (·.responseKey) =
      firstOccurrences (fields.map (·.responseKey)) := by
  suffices h : ∀ keys : List String, keys ⊆ fields.map (·.responseKey) →
      (keys.filterMap (mergedField fields)).map (·.responseKey) = keys from
    h _ fun key hkey => mem_firstOccurrences.1 hkey
  intro keys hkeys
  induction keys with
  | nil => rfl
  | cons key keys ih =>
    obtain ⟨hkey, hkeys⟩ := List.cons_subset.1 hkeys
    obtain ⟨f, hf⟩ := exists_mergedField hkey
    rw [List.filterMap_cons_some hf, List.map_cons, responseKey_of_mergedField hf, ih hkeys]

/-- There is one merged field for each key. -/
theorem filter_mergedFields (hkey : key ∈ fields.map (·.responseKey)) :
    (mergedFields fields).filter (·.responseKey = key) = (mergedField fields key).toList := by
  suffices h : ∀ keys : List String, keys.Nodup → key ∈ keys →
      (keys.filterMap (mergedField fields)).filter (·.responseKey = key) =
        (mergedField fields key).toList from
    h _ (nodup_firstOccurrences _) (mem_firstOccurrences.2 hkey)
  intro keys hnodup hmem
  obtain ⟨before, after, rfl⟩ := List.append_of_mem hmem
  rw [List.nodup_middle, List.nodup_cons, List.mem_append] at hnodup
  have hothers {others : List String} (hothers : key ∉ others) :
      (others.filterMap (mergedField fields)).filter (·.responseKey = key) = [] := by
    refine List.filter_eq_nil_iff.2 fun f hf => ?_
    obtain ⟨other, hother, hmerged⟩ := List.mem_filterMap.1 hf
    rw [decide_eq_true_iff, responseKey_of_mergedField hmerged]
    exact fun h => hothers (h ▸ hother)
  obtain ⟨f, hf⟩ := exists_mergedField hkey
  have hself : [f].filter (·.responseKey = key) = [f] := by
    simp [responseKey_of_mergedField hf]
  rw [List.filterMap_append, List.filterMap_cons_some hf, ← List.singleton_append,
    List.filter_append, List.filter_append, hself, hothers (mt .inl hnodup.1),
    hothers (mt .inr hnodup.1), hf]
  rfl

end Selection

namespace Executor

variable (e : Executor ω) (o : ObjectNode ω) (source : Json)

/-- The merged field of a group is executed as the group is. -/
theorem executeGroup_mergeFields (p : Path) (fields : List SelectedField) :
    e.executeGroup o source p (Selection.mergeFields fields).toList =
      e.executeGroup o source p fields := by
  cases fields with
  | nil => rfl
  | cons f rest =>
    have hnested : Selection.nested [{ f with selections := Selection.nested (f :: rest) }] =
        Selection.nested (f :: rest) := List.append_nil _
    rw [Selection.mergeFields, Option.toList_some, executeGroup, executeGroup, hnested]
    rfl

/-- An execution depends on the fields that are selected on the object, in their order. -/
theorem execute_congr {selections selections' : List Selection}
    (h : e.graph.selectedOn o selections' = e.graph.selectedOn o selections) (p : Path) :
    e.execute selections' o source p = e.execute selections o source p := by
  rw [execute_eq_siblings, execute_eq_siblings, h]

theorem execute_inlinedOn (selections : List Selection) (p : Path) :
    e.execute (e.graph.inlinedOn o selections) o source p = e.execute selections o source p := by
  refine e.execute_congr o source ?_ p
  rw [Graph.inlinedOn_eq, Graph.selectedOn_toSelection]

theorem execute_mergedOn (selections : List Selection) (p : Path) :
    e.execute (e.graph.mergedOn o selections) o source p = e.execute selections o source p := by
  rw [execute_eq_siblings, execute_eq_siblings e selections, Graph.mergedOn_eq,
    Graph.selectedOn_toSelection, Selection.map_responseKey_mergedFields,
    firstOccurrences_of_nodup (nodup_firstOccurrences _)]
  refine congrArg (fun rs => assembleObject _ <$> e.siblings rs) ?_
  refine List.map_congr_left fun key hkey => ?_
  rw [Selection.filter_mergedFields (mem_firstOccurrences.1 hkey)]
  exact e.executeGroup_mergeFields o source (p.join (.key key)) _

end Executor

/-! ## One value for each key -/

/-- How often the field under a response key is asked for its value: once, however often it is
selected, unless there is no such field or its arguments are refused. -/
inductive Asked (s : Schema ω) (o : ObjectNode ω) (p : Path) (d : Trace) :
    List SelectedField → Nat → Prop
  | unselected : Asked s o p d [] 0
  | typename {f : SelectedField} {rest : List SelectedField}
    (h : f.name = Executor.typenameField) : Asked s o p d (f :: rest) 0
  | unknown {f : SelectedField} {rest : List SelectedField}
    (h : f.name ≠ Executor.typenameField) (hf : Dict.get? o.fields f.name = none)
    (hd : ⟨.unknownField f.name o.name, p⟩ ∈ d.1) : Asked s o p d (f :: rest) 0
  | refused {f : SelectedField} {rest : List SelectedField} {node : FieldNode ω} {e : FieldError}
    (h : f.name ≠ Executor.typenameField) (hf : Dict.get? o.fields f.name = some node)
    (he : ∃ u, ((s.graph.coerceArguments node f.arguments).run u).1 = .error e)
    (hd : ⟨e, p⟩ ∈ d.1) : Asked s o p d (f :: rest) 0
  | once {f : SelectedField} {rest : List SelectedField} {node : FieldNode ω} {args : Dict Json}
    (h : f.name ≠ Executor.typenameField) (hf : Dict.get? o.fields f.name = some node)
    (hargs : ∃ u, ((s.graph.coerceArguments node f.arguments).run u).1 = .ok args) :
    Asked s o p d (f :: rest) 1

/-- The number of times the field at the path is asked for its value. -/
def Trace.invocations (d : Trace) (p : Path) : Nat := d.2.countP (Event.isInvocation p ·)

namespace Trace

variable {d d' : Trace} {p : Path}

theorem invocations_add : (d + d').invocations p = d.invocations p + d'.invocations p :=
  Multiset.countP_add _ d.2 d'.2

theorem invocations_eq_zero (h : ∀ a, .resolved p a ∉ d.2) : d.invocations p = 0 := by
  refine Multiset.countP_eq_zero.2 fun e he hinvocation => ?_
  cases e with
  | resolved q a =>
    obtain rfl : q = p := of_decide_eq_true hinvocation
    exact h a he
  | completed | typed | serialized => cases hinvocation

@[simp] theorem invocations_error (e : FieldError) : (Trace.error e p).invocations p = 0 :=
  invocations_eq_zero fun _ => mem_error_snd

@[simp] theorem invocations_resolved (outcome : Except FieldError Resolved) :
    (Trace.event (.resolved p outcome)).invocations p = 1 := by
  rw [invocations, Trace.event, Multiset.countP_eq_card.2]
  · rfl
  · intro e he
    rw [Multiset.mem_singleton.1 he]
    exact decide_eq_true rfl

end Trace

theorem FieldEnds.asked {s : Schema ω} {A : ObjectEnding ω} {o : ObjectNode ω} {source : Json}
    {f : SelectedField} {p : Path} {d : Trace} {out : Outcome}
    (h : FieldEnds s A o source f p d out) (hA : ∀ o v p d out, A o v p d out → FootprintBelow p d)
    (rest : List SelectedField) : Asked s o p d (f :: rest) (d.invocations p) := by
  cases h with
  | typename hname =>
    rw [Trace.invocations_eq_zero (by simp)]
    exact .typename hname
  | unknown hname hf =>
    rw [Trace.invocations_error]
    exact .unknown hname hf (mem_error_fst.2 rfl)
  | badArguments hname hf he =>
    rw [Trace.invocations_error]
    exact .refused hname hf he (mem_error_fst.2 rfl)
  | failed hname hf hargs =>
    rw [Trace.invocations_add, Trace.invocations_resolved, Trace.invocations_error]
    exact .once hname hf hargs
  | resolved hname hf hargs _ hd =>
    rw [Trace.invocations_add, Trace.invocations_resolved,
      Trace.invocations_eq_zero (hd.footprint hA).unresolved]
    exact .once hname hf hargs

/-- Below a position nothing is asked but at the branch that leads there. -/
theorem invocations_branches_eq_zero {p : Path} {bs : List Branch}
    (h : ∀ b ∈ bs, Footprint (p.join b.element) b.trace) {e : PathElement}
    (he : ∀ b ∈ bs, b.element ≠ e) : (bs.map Branch.trace).sum.invocations (p.join e) = 0 := by
  refine Trace.invocations_eq_zero fun a ha => ?_
  obtain ⟨d, hd, ha⟩ := mem_sum_snd.1 ha
  obtain ⟨b, hb, rfl⟩ := List.mem_map.1 hd
  exact he b hb (Path.eq_of_join_prefix ((h b hb).events _ ha) List.prefix_rfl)

theorem invocations_branches {p : Path} {bs : List Branch}
    (hnodup : (bs.map Branch.element).Nodup)
    (h : ∀ b ∈ bs, Footprint (p.join b.element) b.trace) {b : Branch} (hb : b ∈ bs) :
    (bs.map Branch.trace).sum.invocations (p.join b.element) =
      b.trace.invocations (p.join b.element) := by
  obtain ⟨before, after, rfl⟩ := List.append_of_mem hb
  rw [List.map_append, List.map_cons, List.nodup_middle, List.nodup_cons,
    ← List.map_append] at hnodup
  have hne : ∀ b' ∈ before ++ after, b'.element ≠ b.element :=
    fun b' hb' he => hnodup.1 (List.mem_map.2 ⟨b', hb', he⟩)
  have hbefore := invocations_branches_eq_zero
    (fun b' hb' => h b' (List.mem_append_left _ hb'))
    (fun b' hb' => hne b' (List.mem_append_left _ hb'))
  have hafter := invocations_branches_eq_zero
    (fun b' hb' => h b' (List.mem_append_right _ (List.mem_cons_of_mem _ hb')))
    (fun b' hb' => hne b' (List.mem_append_right _ hb'))
  rw [List.map_append, List.map_cons, List.sum_append, List.sum_cons, Trace.invocations_add,
    Trace.invocations_add, hbefore, hafter, zero_add, add_zero]

theorem Asked.mono {s : Schema ω} {o : ObjectNode ω} {p : Path} {d d' : Trace}
    {fields : List SelectedField} {n : Nat} (h : Asked s o p d fields n)
    (hd : ∀ l ∈ d.1, l ∈ d'.1) : Asked s o p d' fields n := by
  cases h with
  | unselected => exact .unselected
  | typename hname => exact .typename hname
  | unknown hname hf hmem => exact .unknown hname hf (hd _ hmem)
  | refused hname hf he hmem => exact .refused hname hf he (hd _ hmem)
  | once hname hf hargs => exact .once hname hf hargs

theorem executes_asked {s : Schema ω} {selections : List Selection} {o : ObjectNode ω}
    {source : Json} {p : Path} {d : Trace} {out : Outcome}
    (h : Executes s selections o source p d out) (key : String) :
    Asked s o (p.join (.key key)) d
      ((s.graph.selectedOn o selections).filter (·.responseKey = key))
      (d.invocations (p.join (.key key))) := by
  obtain ⟨outs, htogether, rfl⟩ := executes_iff.1 h
  obtain ⟨bs, hel, hbs, rfl, rfl⟩ := branches_of_groups htogether
  have hends : ∀ b ∈ bs, ∃ key f rest, b.element = .key key ∧
      (key, f :: rest) ∈ s.graph.groupsOn o selections ∧
      FieldEnds s (Executes s (Selection.nested (f :: rest))) o source f (p.join b.element)
        b.trace b.outcome := by
    intro b hb
    obtain ⟨key, fields, he, hgroup, hends⟩ := hbs b hb
    obtain ⟨f, rest, rfl⟩ := List.exists_cons_of_ne_nil (Selection.ne_nil_of_mem_collect hgroup)
    exact ⟨key, f, rest, he, hgroup, he ▸ hends⟩
  have hfootprint : ∀ b ∈ bs, Footprint (p.join b.element) b.trace := by
    intro b hb
    obtain ⟨_, _, _, _, _, hends⟩ := hends b hb
    exact hends.footprint fun _ _ _ _ _ => executes_footprint
  by_cases hkey : ∃ b ∈ bs, b.element = .key key
  · obtain ⟨b, hb, he⟩ := hkey
    obtain ⟨key', f, rest, he', hgroup, hfield⟩ := hends b hb
    obtain rfl : key' = key := PathElement.key.inj (he'.symm.trans he)
    have hfields : f :: rest = (s.graph.selectedOn o selections).filter (·.responseKey = key') :=
      Selection.fields_of_mem_collect hgroup
    rw [← hfields, ← he, invocations_branches (hel ▸ nodup_keys _ o selections) hfootprint hb]
    refine (hfield.asked (fun _ _ _ _ _ => executes_footprint) rest).mono fun l hl => ?_
    exact mem_sum_fst.2 ⟨_, List.mem_map_of_mem hb, hl⟩
  · have hne : ∀ b ∈ bs, b.element ≠ .key key := fun b hb he => hkey ⟨b, hb, he⟩
    have hfields : (s.graph.selectedOn o selections).filter (·.responseKey = key) = [] := by
      refine List.filter_eq_nil_iff.2 fun f hf hf' => hkey ?_
      have hmem : PathElement.key key ∈ bs.map Branch.element := by
        rw [hel]
        refine List.mem_map_of_mem ?_
        rw [show Dict.keys (s.graph.groupsOn o selections) = _ from Selection.keys_collect _ _,
          mem_firstOccurrences]
        exact List.mem_map.2 ⟨f, hf, by simpa using hf'⟩
      obtain ⟨b, hb, he⟩ := List.mem_map.1 hmem
      exact ⟨b, hb, he⟩
    rw [hfields, invocations_branches_eq_zero hfootprint hne]
    exact .unselected

/-! ## Executions -/

/-- Inlining the fragments that apply and merging repeated keys does not change an execution: it
stays the same routine, which reads, writes, suspends and answers in the same way on any state,
whichever other routines go on meanwhile. Each key is resolved once. -/
theorem execute_merged {e : Executor ω} (hsiblings : Scheduling e.siblings)
    (hitems : Scheduling e.items) (o : ObjectNode ω) (source : Json) (p : Path)
    (selections : List Selection) :
    e.execute (e.graph.inlinedOn o selections) o source p = e.execute selections o source p ∧
    e.execute (e.graph.mergedOn o selections) o source p = e.execute selections o source p ∧
    Leaves Run.trace (fun d _ => ∀ key, Asked e.schema o (p.join (.key key)) d
      ((e.graph.selectedOn o selections).filter (·.responseKey = key))
      (d.invocations (p.join (.key key)))) (e.execute selections o source p) := by
  refine ⟨e.execute_inlinedOn o source selections p, e.execute_mergedOn o source selections p, ?_⟩
  refine (leaves_execute hsiblings.transparent hitems.transparent selections o source p).mono ?_
  exact fun d out h key => executes_asked h key

section Family

/-- A person, who has a name and a mother. -/
def personNode : ObjectNode Unit where
  name := "Person"
  description := none
  fields := [
    ("name", {
      name := "name"
      description := none
      type := .string
      arguments := []
      source := .property }),
    ("mother", {
      name := "mother"
      description := none
      type := .named "Person"
      arguments := []
      source := .property })]
  implements := ["Named"]

/-- Whatever has a name may be a person. -/
def family : Schema Unit where
  graph := {
    nodes := [
      ("Person", .object personNode),
      ("Named", .interface {
        name := "Named"
        description := none
        fields := personNode.fields.take 1
        typing := {
          abstractType := "Named"
          chooser := none
          markerField := "__typename"
          discriminants := []
          possibleTypes := ["Person"] } })]
    query := "Person"
    mutation := none }
  registry := ⟨[]⟩
  configuration := {}

/-- A fragment in a fragment, one that does not apply, and two keys that are selected twice. -/
theorem family_merged :
    let e : Executor Unit := ⟨family, concurrently, concurrently⟩
    let name : Selection := .field "name" none [] []
    let mother := Selection.field "mother" (some "parent") []
    let typename : Selection := .fragment "Named" [.field "__typename" none [] []]
    let selections := [
      .fragment "Named" [name, .fragment "Person" [mother [name]]],
      .fragment "Place" [name], mother [typename], name]
    let source : Json := .obj [("name", .str "Ida"), ("mother", .obj [("name", .str "Eva")])]
    Scheduling e.siblings ∧ Scheduling e.items ∧
      e.execute [name, mother [name], mother [typename], name] personNode source [] =
        e.execute selections personNode source [] ∧
      e.execute [name, mother [name, typename]] personNode source [] =
        e.execute selections personNode source [] ∧
      Leaves Run.trace (fun d _ => d.invocations [.key "parent"] = 1)
        (e.execute selections personNode source []) := by
  intro e name mother typename selections source
  obtain ⟨hinlined, hmerged, hasked⟩ := execute_merged (e := e)
    scheduling_concurrently scheduling_concurrently personNode source [] selections
  refine ⟨scheduling_concurrently, scheduling_concurrently, hinlined, hmerged, ?_⟩
  refine hasked.mono fun d _ h => ?_
  have hparent : Asked e.schema personNode [.key "parent"] d
      [⟨"mother", some "parent", [], [name]⟩, ⟨"mother", some "parent", [], [typename]⟩]
      (d.invocations [.key "parent"]) := h "parent"
  generalize d.invocations [.key "parent"] = n at hparent ⊢
  cases hparent with
  | typename h => exact absurd h (by decide)
  | unknown _ hf => cases hf
  | refused _ hf he =>
    cases hf
    obtain ⟨u, he⟩ := he
    cases he
  | once => rfl

end Family

end GraphAssembly
