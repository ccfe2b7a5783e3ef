import GraphAssembly.Proofs.Execution.Marked
import GraphAssembly.Proofs.Execution.Requests
import GraphAssembly.Proofs.Execution.Skeletons

/-!
# Internal errors

Some branches of the execution are there for graphs that no assembly gives: a type that is marked
twice, and references that lead to nodes of a wrong kind. No request reaches them.

1. `FieldError.isInternal` and `isOrdinary`, and the errors of coercions and of the code behind a
   field.
2. The errors of the rules: what holds of ordinary errors and of fields that are not there holds of
   all that is recorded (`executes_errs`).
3. The statement.
-/

namespace GraphAssembly

variable {ω : Type}

/-! ## Errors outside of completion -/

/-- The fault is one of the graph and not of a value. -/
def ValueFault.isInternal : ValueFault → Bool
  | .notInputType | .notOutputType | .notObjectType _ => true
  | _ => false

def FieldError.isInternal : FieldError → Bool
  | .invalidValue _ fault => fault.isInternal
  | _ => false

/-- The error is one of a value, of an argument, or of the code behind a field. -/
def FieldError.isOrdinary : FieldError → Bool
  | .unknownField _ _ => false
  | e => !e.isInternal

theorem FieldError.isInternal_of_isOrdinary {e : FieldError} (h : e.isOrdinary = true) :
    e.isInternal = false := by
  cases e with
  | invalidValue type fault => simpa [isOrdinary] using h
  | _ => rfl

/-- Every error of the coercion has the property. -/
def Coercing.Refuses {α : Type} (P : FieldError → Prop) (m : Coercing ω α) : Prop :=
  ∀ u e, (m u).1 = .error e → P e

namespace Coercing.Refuses

variable {α β : Type} {P : FieldError → Prop}

theorem pure (a : α) : Refuses P (pure a : Coercing ω α) := nofun

theorem throw {e : FieldError} (he : P e) : Refuses P (throw e : Coercing ω α) := by
  rintro u _ ⟨⟩
  exact he

theorem bind {m : Coercing ω α} {f : α → Coercing ω β} (hm : Refuses P m)
    (hf : ∀ a, Refuses P (f a)) : Refuses P (m >>= f) := by
  intro u e he
  rw [bind_apply] at he
  have hmu := hm u
  generalize m u = x at hmu he
  obtain ⟨x | a, u'⟩ := x
  · exact hmu e (Except.error.inj he ▸ rfl)
  · exact hf a u' e he

theorem mapM {xs : List α} {f : α → Coercing ω β} (h : ∀ x ∈ xs, Refuses P (f x)) :
    Refuses P (xs.mapM f) := by
  induction xs with
  | nil => exact pure []
  | cons x xs ih =>
    rw [List.mapM_cons]
    refine (h x List.mem_cons_self).bind fun y => ?_
    exact (ih fun x hx => h x (List.mem_cons_of_mem _ hx)).bind fun ys => pure (y :: ys)

end Coercing.Refuses

section Errors

variable {g : Graph ω}

theorem coerce_refuses (hg : g.Sound) {t : TypeRef} (ht : g.Admits .input t) (v : Json) :
    Coercing.Refuses (·.isOrdinary = true) (g.coerce t v) := by
  cases t with
  | nonNull inner =>
    have ht : g.Admits .input inner := ht
    rw [Graph.coerce]
    split
    · exact .throw rfl
    · exact coerce_refuses hg ht v
  | list item =>
    have ht : g.Admits .input item := ht
    cases v with
    | null => rw [Graph.coerce]; exact .pure _
    | arr items =>
      rw [Graph.coerce]
      refine .bind (.mapM fun x _ => ?_) fun vs => .pure _
      have := List.sizeOf_lt_of_mem x.2
      exact coerce_refuses hg ht x.1
    | _ =>
      -- anything else stands for a list of itself
      rw [Graph.coerce]
      · exact .bind (coerce_refuses hg ht _) fun v => .pure _
      all_goals simp
  | named name =>
    obtain ⟨n, hn, hcoercible⟩ := ht
    rw [Graph.coerce, hn]
    split
    · exact .pure _
    · cases n with
      | scalar n =>
        obtain ⟨_, _, _ | c⟩ := n
        · cases hcoercible
        · refine .bind (fun _ _ he => by cases he) fun answer => ?_
          cases answer with
          | ok w => exact .pure w
          | error reason => exact .throw rfl
      | input n =>
        cases v with
        | obj entries =>
          refine .bind (.mapM fun f hf => ?_) fun fields => .pure _
          split
          · split
            · exact .throw rfl
            · exact .pure _
          · rename_i x hx
            have := Dict.sizeOf_lt_of_get? hx
            split
            · exact .throw rfl
            · exact .bind (coerce_refuses hg (hg.input hn f hf).1 x) fun x' => .pure _
        | _ => exact .throw rfl
      | object | interface | union => cases hcoercible
  | _ =>
    rw [coerce_builtin g rfl]
    split
    · exact .pure _
    · exact .throw rfl
termination_by (sizeOf v, sizeOf t)

theorem coerceArguments_refuses (hg : g.Sound) {node : FieldNode ω} (hnode : node.Sound g)
    (given : Dict Json) :
    Coercing.Refuses (·.isOrdinary = true) (g.coerceArguments node given) := by
  refine .bind (.mapM fun a ha => ?_) fun coerced => .pure _
  split
  · split
    · exact .throw rfl
    · exact .pure _
  · split
    · exact .throw rfl
    · exact .bind (coerce_refuses hg (hnode.arguments a ha).1 _) fun v => .pure _

end Errors

/-! ### The code behind a field -/

section Pipeline

variable {ε δ α β : Type} {P : ε → Prop}

/-- Every error of the computation has the property. -/
def Pipeline.Fails (P : ε → Prop) (x : Pipeline ω ε α) : Prop :=
  ∀ e, Routine.Returns x.run (.error e) → P e

theorem Pipeline.Fails.bind {x : Pipeline ω ε α} {f : α → Pipeline ω ε β} (hx : Fails P x)
    (hf : ∀ a, Fails P (f a)) : Fails P (x >>= f) := by
  intro e he
  rw [ExceptT.run_bind] at he
  obtain ⟨y, hy, he⟩ := Routine.returns_bind he
  cases y with
  | ok a => exact hf a e he
  | error e' =>
    cases he
    exact hx _ hy

theorem Pipeline.fails_adapt {wrap : δ → ε} (hwrap : ∀ e, P (wrap e)) (x : Pipeline ω δ α) :
    Fails P (ExceptT.adapt wrap x) := by
  intro e he
  have hreturns : Routine.Returns (Except.mapError wrap <$> x.run) _ := he
  obtain ⟨y, -, hy⟩ := Routine.returns_bind hreturns
  cases y with
  | ok a => cases hy
  | error e' =>
    cases hy
    exact hwrap e'

theorem Pipeline.fails_inWorkshop {wrap : δ → ε} (hwrap : ∀ e, P (wrap e))
    (m : ExceptT δ (StateM (Workshop ω)) α) : Fails P (inWorkshop wrap m) :=
  fails_adapt hwrap _

theorem Pipeline.fails_inScope {wrap : δ → ε} (hwrap : ∀ e, P (wrap e))
    (r : Routine (Scope ω) (Except δ α)) : Fails P (inScope wrap r) :=
  fails_adapt hwrap _

theorem resolve_fails (node : FieldNode ω) (registry : Registry ω) (source : Json)
    (args : Dict Json) :
    Pipeline.Fails (·.isOrdinary = true) (node.resolve registry source args) := by
  unfold FieldNode.resolve
  cases node.source with
  | property => exact nofun
  | method resolver bindings =>
    refine .bind ?_ fun _ => ?_
    · rw [Binding.runAll]
      refine .bind (Pipeline.fails_inWorkshop (fun _ => by rfl) _) fun steps => ?_
      exact .bind (Pipeline.fails_inScope (fun _ => by rfl) _) fun _ => nofun
    · rw [Resolver.call]
      exact .bind (Pipeline.fails_inWorkshop (fun _ => by rfl) _) fun i =>
        Pipeline.fails_inScope (fun _ => by rfl) _

theorem Typing.isOrdinary_of_resolve {y : Typing ω} {static : Option String} {v : Json}
    {c : Scope ω} {e : FieldError} (h : (y.resolve static v c).1 = .error e) :
    e.isOrdinary = true := by
  change y.accept _ = _ at h
  unfold Typing.accept at h
  split at h
  · cases h
    rfl
  · split at h
    · cases h
    · cases h
      rfl

end Pipeline

/-! ## The rules -/

/-- Every error that is recorded has the property. -/
def Trace.Errs (P : FieldError → Prop) (d : Trace) : Prop := ∀ l ∈ d.1, P l.error

theorem Graph.admits_unmarked {g : Graph ω} {usage : Usage} {t : TypeRef} :
    g.Admits usage t.unmarked ↔ g.Admits usage t := by
  cases t <;> rfl

section Rules

variable {P : FieldError → Prop} {g : Graph ω} {A : ObjectEnding ω} {t : TypeRef} {p : Path}
  {d d' : Trace} {out : Outcome}

theorem errs_zero : Trace.Errs P 0 := fun _ h => absurd h (Multiset.notMem_zero _)

theorem errs_error {e : FieldError} (h : P e) : (Trace.error e p).Errs P := by
  intro l hl
  rw [mem_error_fst.1 hl]
  exact h

theorem errs_event (e : Event) : (Trace.event e).Errs P := fun _ h => absurd h mem_event_fst

theorem Trace.Errs.add (h : d.Errs P) (h' : d'.Errs P) : (d + d').Errs P := by
  intro l hl
  rw [Prod.fst_add, Multiset.mem_add] at hl
  exact hl.elim (h l) (h' l)

theorem errs_branches {bs : List Branch} (h : ∀ b ∈ bs, b.trace.Errs P) :
    (bs.map Branch.trace).sum.Errs P := by
  intro l hl
  obtain ⟨d, hd, hl⟩ := mem_sum_fst.1 hl
  obtain ⟨b, hb, rfl⟩ := List.mem_map.1 hd
  exact h b hb l hl

variable (hP : ∀ e : FieldError, e.isOrdinary = true → P e)

include hP

theorem ObjectEnds.errs (hA : ∀ o v d out, g.Has o → A o v p d out → d.Errs P)
    {o : ObjectNode ω} (ho : g.Has o) {v : Json} (h : ObjectEnds A o v p d out) : d.Errs P := by
  cases h with
  | notObject => exact errs_error (hP _ rfl)
  | object _ h => exact hA _ _ _ _ ho h

theorem NamedEnds.errs (hg : g.Sound) (hA : ∀ o v d out, g.Has o → A o v p d out → d.Errs P)
    (ht : t.isSingle = true) (hadmits : g.Admits .output t) {static : Option String} {v : Json}
    (h : NamedEnds g A t static v p d out) : d.Errs P := by
  cases h with
  | builtin => exact errs_zero
  | notBuiltin | refused => exact errs_error (hP _ rfl)
  | serialized => exact errs_event _
  | object _ hn ho => exact ho.errs hP hA ⟨_, Graph.object?_eq_some_iff.2 hn⟩
  | untyped _ _ _ he =>
    obtain ⟨c, hc⟩ := he
    exact errs_error (hP _ (Typing.isOrdinary_of_resolve hc))
  | typed _ _ _ _ hobject ho => exact (errs_event _).add (ho.errs hP hA ⟨_, hobject⟩)
  | notObjectType _ hn hy hname hobject =>
    -- every possible type is an object type
    obtain ⟨c, hc⟩ := hname
    obtain ⟨o, ho⟩ := hg.possible hn hy _ (Typing.mem_possibleTypes_of_accept hc)
    cases hobject.symm.trans ho
  | notOutputType hb hn =>
    rw [TypeRef.eq_named ht hb] at hadmits
    obtain ⟨n, hget, hcompletable⟩ := hadmits
    cases (hn n hget).symm.trans hcompletable

theorem SingleEnds.errs (hg : g.Sound) (hA : ∀ o v p d out, g.Has o → A o v p d out → d.Errs P)
    (ht : t.isSingle = true) (hadmits : g.Admits .output t) {r : Resolved}
    (h : SingleEnds g A t r p d out) : d.Errs P := by
  cases h with
  | unexpectedList => exact errs_error (hP _ rfl)
  | value h | typed h => exact h.errs hP hg (fun o v => hA o v p) ht hadmits

theorem ListEnds.errs {item : Resolved → Path → Ending} {r : Resolved}
    (hitem : ∀ r p d out, item r p d out → d.Errs P) (h : ListEnds item t r p d out) :
    d.Errs P := by
  cases h with
  | expectedList => exact errs_error (hP _ rfl)
  | items _ hd =>
    obtain ⟨bs, -, hbs, rfl, rfl⟩ := branches_of_items hd
    refine errs_branches fun b hb => ?_
    obtain ⟨_, _, _, _, hends⟩ := hbs b hb
    exact hitem _ _ _ _ hends

omit hP

theorem UnlessNull.errs {content : Resolved → Path → Ending} {r : Resolved}
    (hc : ∀ d out, content r p d out → d.Errs P) (h : UnlessNull content r p d out) :
    d.Errs P := by
  cases h with
  | null => exact errs_event _
  | content _ hd => exact (errs_event _).add (hc _ _ hd)

include hP

theorem Settled.errs {marked : Bool} {label : String} {content : Ending}
    (hc : ∀ d out, content d out → d.Errs P) (h : Settled marked label p content d out) :
    d.Errs P := by
  obtain ⟨d', out', hd, hs⟩ := h
  cases hs with
  | null => exact (hc _ _ hd).add (errs_error (hP _ rfl))
  | missing | value | absorbed | kept => exact hc _ _ hd

theorem InnerEnds.errs (hg : g.Sound) (hA : ∀ o v p d out, g.Has o → A o v p d out → d.Errs P)
    (hadmits : g.Admits .output t) {label : String} {r : Resolved}
    (h : InnerEnds g A label t r p d out) : d.Errs P := by
  induction t using TypeRef.contentInduction generalizing r p d out with
  | nonNull inner ih =>
    exact UnlessNull.errs (fun _ _ => Settled.errs hP fun _ _ => ih hadmits) h
  | list item ih =>
    have hitem : g.Admits .output item.unmarked := Graph.admits_unmarked.2 hadmits
    rw [innerEnds_list] at h
    exact h.errs fun _ _ => ListEnds.errs hP fun _ _ _ _ => Settled.errs hP fun _ _ => ih hitem
  | single t ht =>
    rw [innerEnds_single g A label ht] at h
    exact h.errs fun _ _ => SingleEnds.errs hP hg hA ht hadmits

end Rules

section Executions

variable {s : Schema ω} (hg : s.graph.Sound) {P : FieldError → Prop}
  (hP : ∀ e : FieldError, e.isOrdinary = true → P e)
  (hunknown : ∀ o name, s.graph.Has o → name ≠ Executor.typenameField →
    Dict.get? o.fields name = none → P (.unknownField name o.name))

include hg hP hunknown

theorem FieldEnds.errs {A : ObjectEnding ω} {p : Path} {d : Trace} {out : Outcome}
    (hA : ∀ o v p d out, s.graph.Has o → A o v p d out → d.Errs P) {o : ObjectNode ω}
    (ho : s.graph.Has o) {source : Json} {f : SelectedField}
    (h : FieldEnds s A o source f p d out) : d.Errs P := by
  have sound {node : FieldNode ω} (hf : Dict.get? o.fields f.name = some node) :
      node.Sound s.graph := by
    obtain ⟨name, ho⟩ := ho
    exact hg.object ho node (List.mem_map_of_mem (f := Prod.snd) (Dict.mem_of_get? hf))
  cases h with
  | typename => exact errs_zero
  | unknown hname hf => exact errs_error (hunknown o f.name ho hname hf)
  | badArguments _ hf he =>
    obtain ⟨u, he⟩ := he
    exact errs_error (hP _ (coerceArguments_refuses hg (sound hf) _ u _ he))
  | failed _ _ _ he => exact (errs_event _).add (errs_error (hP _ (resolve_fails _ _ _ _ _ he)))
  | @resolved node _ _ _ _ _ hf _ _ hd =>
    have hadmits : s.graph.Admits .output node.type.unmarked :=
      Graph.admits_unmarked.2 (sound hf).type
    exact (errs_event _).add (Settled.errs hP (fun _ _ => InnerEnds.errs hP hg hA hadmits) hd)

theorem executes_errs {selections : List Selection} {o : ObjectNode ω} {source : Json} {p : Path}
    {d : Trace} {out : Outcome} (h : Executes s selections o source p d out)
    (ho : s.graph.Has o) : d.Errs P := by
  refine executes_induction (P := fun _ o _ _ d _ => s.graph.Has o → d.Errs P) ?_ h ho
  intro selections o source p bs _ hbs ih ho
  refine errs_branches fun b hb => ?_
  obtain ⟨key, f, rest, _, hgroup, hfield⟩ := hbs b hb
  exact hfield.errs hg hP hunknown
    (fun o v p d out ho h => ih key f rest hgroup o v p d out h ho) ho

end Executions

/-! ## Requests -/

theorem runWith_external {e : Executor ω} (hg : e.graph.Sound) (he : e.Schedules)
    {operation : Operation} {root : ObjectNode ω} (hroot : e.schema.root? operation = some root)
    (selections : List Selection) (w : World ω) :
    (∀ marked, e.executeBy (e.completeOr marked) selections root .null [] =
      e.execute selections root .null []) ∧
    ∀ l ∈ (Schema.runWith e root selections w).2.errors, l.error.isInternal = false := by
  refine ⟨fun marked => executeBy_completeOr hg marked selections (has_root hroot) .null [],
    fun l hl => ?_⟩
  exact executes_errs hg (fun _ => FieldError.isInternal_of_isOrdinary) (fun _ _ _ _ _ => rfl)
    (runWith_ends he root selections w) (has_root hroot) l (Multiset.mem_coe.2 hl)

/-- On an assembled graph no type is marked twice, the branch for the content of such a type might
be any other one, and no request records an internal error, in whatever order siblings and items go
on. -/
theorem execute_external {b : Blueprint ω} {r : Registry ω} {c : Configuration}
    {start : Workshop ω} {s : Schema ω} (hs : ((b.assemble r c) start).1 = .ok s.graph)
    {operation : Operation} {root : ObjectNode ω} (hroot : s.root? operation = some root)
    (selections : List Selection) (w : World ω) :
    let e := Executor.forOperation s operation
    (∀ name o, s.graph.object? name = some o → ∀ node ∈ Dict.values o.fields,
      node.type.MarkedOnce) ∧
    (∀ marked, e.executeBy (e.completeOr marked) selections root .null [] =
      e.execute selections root .null []) ∧
    (∀ l ∈ (Schema.runWith e root selections w).2.errors, l.error.isInternal = false) ∧
    ∀ e : Executor ω, e.schema = s → e.Schedules →
      (∀ marked, e.executeBy (e.completeOr marked) selections root .null [] =
        e.execute selections root .null []) ∧
      ∀ l ∈ (Schema.runWith e root selections w).2.errors, l.error.isInternal = false := by
  obtain ⟨t, ht⟩ := Blueprint.exists_assembled hs
  have hg : s.graph.Sound := ht.sound
  obtain ⟨hmarked, herrors⟩ := runWith_external (e := .forOperation s operation) hg
    (schedules_forOperation s operation) hroot selections w
  refine ⟨fun name o ho node hnode => (hg.object ho node hnode).marked, hmarked, herrors, ?_⟩
  rintro e rfl he
  exact runWith_external hg he hroot selections w

section Crew

/-- A crew that is asked who sleeps in a cabin. The answer may be anything with a name, and it is a
sailor that has a cabin. -/
def crew : Blueprint Unit where
  rootQuery := "Query"
  components := [
    .interface {
      name := "Named"
      fields := .ofList [("name", { typeName := "String" })] },
    .definition {
      name := "Sailor"
      fields := .ofList [("name", { typeName := "String" }), ("cabin", { typeName := "Int" })]
      implements := ["Named"] },
    .implementation {
      name := "Query"
      instanceToken := ⟨"Ship"⟩
      resolvers := .ofList [("asleep", {
        name := "asleep"
        field := { typeName := "Named", nullable := true }
        instanceToken := ⟨"Ship"⟩
        parameters := [⟨"cabin", { typeName := "Int" }, 1⟩]
        bindings := []
        method := fun _ args =>
          pure (.ok (.value (.obj [("name", .str "Ada"), ("cabin", args.get 1)]))) })] }]

def harbour : Registry Unit where
  providers := [⟨⟨"Ship"⟩, .value ⟨0, .held "Ship" .null⟩⟩]

theorem coerceArguments_cabin {g : Graph Unit} {node : FieldNode Unit}
    (h : node.arguments = [("cabin", ⟨"cabin", none, .nonNull .int⟩)]) :
    g.coerceArguments node [("cabin", .num (.int 3))] = pure [("cabin", .num (.int 3))] := by
  have hcoerce : g.coerce (.nonNull .int) (.num (.int 3)) = pure (.num (.int 3)) := by
    rw [Graph.coerce, coerce_builtin g rfl]
    rfl
  rw [Graph.coerceArguments, h]
  simp [Dict.values, Dict.get?, hcoerce]

/-- Someone with a name is found, who is a sailor, and has no rank. -/
theorem crew_external :
    let f : SelectedField := {
      name := "asleep"
      arguments := [("cabin", .num (.int 3))]
      selections := [.field "__typename" none [] [], .field "name" none [] [],
        .field "rank" none [] []] }
    let w : World Unit := ⟨{}, [], ()⟩
    ∃ (s : Schema Unit) (root : ObjectNode Unit),
      ((crew.assemble harbour {}) ⟨[], ()⟩).1 = .ok s.graph ∧ s.root? .query = some root ∧
      let e := Executor.forOperation s .query
      let e' := Executor.itemByItem s
      (Schema.runWith e root [f.toSelection] w).1 = some (.obj [("asleep", .obj [
        ("__typename", .str "Sailor"), ("name", .str "Ada"), ("rank", .null)])]) ∧
      (∀ name o, s.graph.object? name = some o → ∀ node ∈ Dict.values o.fields,
        node.type.MarkedOnce) ∧
      (∀ marked, e.executeBy (e.completeOr marked) [f.toSelection] root .null [] =
        e.execute [f.toSelection] root .null []) ∧
      (∀ l ∈ (Schema.runWith e root [f.toSelection] w).2.errors, l.error.isInternal = false) ∧
      e'.Schedules ∧
      (∀ marked, e'.executeBy (e'.completeOr marked) [f.toSelection] root .null [] =
        e'.execute [f.toSelection] root .null []) ∧
      ∀ l ∈ (Schema.runWith e' root [f.toSelection] w).2.errors, l.error.isInternal = false := by
  intro f w
  obtain ⟨s, root, hs, hroot, hdata⟩ : ∃ (s : Schema Unit) (root : ObjectNode Unit),
      ((crew.assemble harbour {}) ⟨[], ()⟩).1 = .ok s.graph ∧ s.root? .query = some root ∧
      (Schema.runWith (.forOperation s .query) root [f.toSelection] w).1 =
        some (.obj [("asleep", .obj [
          ("__typename", .str "Sailor"), ("name", .str "Ada"), ("rank", .null)])]) := by
    refine ⟨⟨_, harbour, {}⟩, _, rfl, rfl, ?_⟩
    rw [Schema.runWith, Executor.execute_toSelection,
      Executor.executeField_of_get? (by decide) rfl, Executor.executeNode, Executor.resolveField,
      coerceArguments_cabin rfl]
    decide +kernel
  have he := schedules_itemByItem s
  obtain ⟨hmarked, hbranch, herrors, hall⟩ := execute_external hs hroot [f.toSelection] w
  obtain ⟨hbranch', herrors'⟩ := hall _ rfl he
  exact ⟨s, root, hs, hroot, hdata, hmarked, hbranch, herrors, he, hbranch', herrors'⟩

end Crew

end GraphAssembly
