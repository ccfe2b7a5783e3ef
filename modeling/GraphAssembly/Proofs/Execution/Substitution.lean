import GraphAssembly.Proofs.Assembly.Covariance
import GraphAssembly.Proofs.Assembly.Exactness
import GraphAssembly.Proofs.Execution.Conformance
import GraphAssembly.Proofs.Execution.Internal
import GraphAssembly.Proofs.Routine.Schedules

/-!
# Object types in the place of their interfaces

What is selected through an interface is answered by the object type of the value. An assembly makes
sure that this is as good as what the interface declares.

1. A value of a type is one of every type that the first one fits.
2. A field that is not known is one that the object type does not have.
3. The statement, and the one name that no declaration reaches.
-/

namespace GraphAssembly

open Routine

variable {ω : Type}

/-! ## Values -/

theorem conforms_nonNull {g : Graph ω} {t : TypeRef} {selections : List Selection} {v : Json}
    (h : Conforms g (.nonNull t) selections v) : v ≠ .null ∧ Conforms g t selections v := by
  cases h with
  | null ht => cases ht
  | nonNull hv h => exact ⟨hv, h⟩
  | builtin ht => cases ht

namespace Blueprint.Assembled

variable {b : Blueprint ω} {c : Configuration} {g : Graph ω} {t : Declarations ω}
  (h : b.Assembled c g t)

include h

/-- A built-in scalar is completed by its type, and not by the node of its name. -/
theorem isCompletable_builtin {name : String} (hname : name ∈ TypeRef.builtinNames) {n : Node ω}
    (hn : g.node? name = some n) : n.isCompletable = false := by
  have hscalar : (name, NodeKind.scalar) ∈ b.declaredTypes := by
    simp only [declaredTypes, List.append_assoc]
    exact List.mem_append_left _ (List.mem_map_of_mem hname)
  obtain ⟨d, hget, hkind, rfl, hd⟩ := h.table.exists_get? hscalar
  rw [h.node?_eq, hget] at hn
  cases hd with
  | builtin => cases hn; rfl
  | scalar hs => exact absurd hname (scalar_name_notMem_builtinNames h.table.nodup hs)
  | _ => cases hkind

theorem isBuiltin_eq_false {a : TypeRef} {n : Node ω} (hn : g.node? a.baseName = some n)
    (hcompletable : n.isCompletable = true) : a.isBuiltin = false := by
  have habsent : a.baseName ∉ TypeRef.builtinNames := fun hname => by
    rw [h.isCompletable_builtin hname hn] at hcompletable
    cases hcompletable
  cases a with
  | named | list | nonNull => rfl
  | _ => exact absurd (by decide) habsent

/-- Two types that lead somewhere are the same if they have the same name. -/
theorem eq_of_baseName {a e : TypeRef} (ha : a.isSingle = true) (he : e.isSingle = true)
    (hadmits : g.Admits .output a) (hadmits' : g.Admits .output e)
    (hname : a.baseName = e.baseName) : a = e := by
  cases hb : a.isBuiltin <;> cases hb' : e.isBuiltin
  · rw [TypeRef.eq_named ha hb, TypeRef.eq_named he hb', hname]
  · rw [TypeRef.eq_named ha hb] at hadmits
    obtain ⟨n, hn, hcompletable⟩ := hadmits
    cases (h.isBuiltin_eq_false (hname ▸ hn) hcompletable).symm.trans hb'
  · rw [TypeRef.eq_named he hb'] at hadmits'
    obtain ⟨n, hn, hcompletable⟩ := hadmits'
    cases (h.isBuiltin_eq_false (hname.symm ▸ hn) hcompletable).symm.trans hb
  · cases a <;> cases e <;> simp_all [TypeRef.baseName, TypeRef.isBuiltin]

/-- A value of a possible type is one of the abstract type. -/
theorem conforms_of_possible {a e : TypeRef} (ha : a.isSingle = true) (he : e.isSingle = true)
    (hpossible : t.isPossibleType e.baseName a.baseName = true) {selections : List Selection}
    {v : Json} (hv : Conforms g a selections v) : Conforms g e selections v := by
  obtain ⟨⟨o, ho⟩, hmem⟩ := h.of_isPossibleType hpossible
  have hobject := Graph.object?_eq_some_iff.1 ho
  obtain ⟨n, hn, htyping⟩ : ∃ n, g.node? e.baseName = some n ∧ n.isCompletable = true := by
    unfold Graph.possibleTypes Graph.typing? at hmem
    cases hn : g.node? e.baseName with
    | none => simp [hn] at hmem
    | some n =>
      refine ⟨n, rfl, ?_⟩
      cases n with
      | interface | union => rfl
      | _ => simp [hn, Node.typing?] at hmem
  have hea := TypeRef.eq_named ha (h.isBuiltin_eq_false hobject rfl)
  rw [TypeRef.eq_named he (h.isBuiltin_eq_false hn htyping)]
  rw [hea] at hv
  generalize a.baseName = name at *
  cases hv with
  | null => exact .null rfl
  | builtin ht => cases ht
  | custom hn => cases hobject.symm.trans hn
  | object hn h =>
    cases hobject.symm.trans hn
    exact .possible hmem ho h
  | possible hn =>
    rw [Graph.possibleTypes_of_object ho] at hn
    cases hn

theorem conforms_of_fits {a e : TypeRef} (hfits : t.Fits a e) (ha : g.Admits .output a)
    (he : g.Admits .output e) {selections : List Selection} {v : Json}
    (hv : Conforms g a selections v) : Conforms g e selections v := by
  induction hfits generalizing v with
  | nonNull _ ih =>
    obtain ⟨hne, hv⟩ := conforms_nonNull hv
    exact .nonNull hne (ih ha he hv)
  | marked _ _ ih => exact ih ha he (conforms_nonNull hv).2
  | list _ ih =>
    cases hv with
    | null => exact .null rfl
    | list hvs => exact .list fun v hv => ih ha he (hvs v hv)
    | builtin ht => cases ht
  | single hsa hse hbase =>
    rcases hbase with hname | hpossible
    · rwa [← h.eq_of_baseName hsa hse ha he hname]
    · exact h.conforms_of_possible hsa hse hpossible hv

/-! ## Fields -/

/-- A field is not known just where the object type does not have it. -/
theorem unknownField_absent {s : Schema ω} (hs : s.graph = g) {selections : List Selection}
    {object : String} {o : ObjectNode ω} (ho : g.object? object = some o) {source : Json} {p : Path}
    {d : Trace} {out : Outcome} (hd : Executes s selections o source p d out) :
    d.Errs fun e => ∀ name parent, e = .unknownField name parent →
      ∃ o, g.object? parent = some o ∧ Dict.get? o.fields name = none := by
  subst hs
  refine executes_errs h.sound ?_ ?_ hd ⟨object, ho⟩
  · rintro _ he name parent rfl
    cases he
  · rintro o _ ⟨object, ho⟩ - hf name parent ⟨⟩
    exact ⟨o, (h.name_of_object? ho).symm ▸ ho, hf⟩

end Blueprint.Assembled

/-! ## Object types and their interfaces -/

/-- The object type may stand where the interface is declared: it has its fields, which are known
when they are selected, and give values of the types that the interface declares. The name of the
object type is asked for under a name that no declaration changes. -/
structure Substitutable (g : Graph ω) (t : Declarations ω) (i : InterfaceNode ω)
    (o : ObjectNode ω) : Prop where
  declares : ∀ name n, Dict.get? i.fields name = some n →
    ∃ m, Dict.get? o.fields name = some m ∧ t.isCovariant m.type n.type = true ∧
      ∀ selections v, Conforms g m.type selections v → Conforms g n.type selections v
  selects : ∀ name n, Dict.get? i.fields name = some n →
    ∀ e : Executor ω, e.graph = g → Scheduling e.siblings → Scheduling e.items →
      ∀ selections source p, Leaves Run.trace (fun d out =>
        (∀ l ∈ d.1, l.error ≠ .unknownField name o.name) ∧
        (name ≠ Executor.typenameField →
          ∀ entries key f rest v, out = some (.obj entries) → (key, v) ∈ entries →
            (g.selectedOn o selections).filter (·.responseKey = key) = f :: rest → f.name = name →
              Conforms g n.type (Selection.nested (f :: rest)) v))
        (e.execute selections o source p)

namespace Blueprint

variable {b : Blueprint ω} {r : Registry ω} {w : Workshop ω} {c : Configuration} {g : Graph ω}
  {t : Declarations ω}

theorem Assembled.substitutable (h : b.Assembled c g t) {name object : String}
    {i : InterfaceNode ω} {o : ObjectNode ω} (hi : g.node? name = some (.interface i))
    (ho : g.object? object = some o) (hn : name ∈ o.implements) : Substitutable g t i o := by
  have hfield {name : String} {n : FieldNode ω} (hf : Dict.get? i.fields name = some n) :
      ∃ m, Dict.get? o.fields name = some m ∧ t.isCovariant m.type n.type = true ∧
        ∀ selections v, Conforms g m.type selections v → Conforms g n.type selections v := by
    obtain ⟨m, hm, hfits⟩ := h.exists_field hi ho hn hf
    refine ⟨m, hm, Declarations.fits_iff.2 hfits, fun selections v => ?_⟩
    refine h.conforms_of_fits hfits ?_ ?_
    · exact (h.sound.object ho m (mem_values.2 ⟨_, Dict.mem_of_get? hm⟩)).type
    · exact (h.sound.interface hi n (mem_values.2 ⟨_, Dict.mem_of_get? hf⟩)).type
  refine ⟨fun name n => hfield, fun name n hf e he hsiblings hitems selections source p => ?_⟩
  obtain ⟨m, hm, -, hconforms⟩ := hfield hf
  have hleaves := leaves_execute hsiblings.transparent hitems.transparent selections o source p
  refine hleaves.mono fun d out hd => ⟨fun l hl hunknown => ?_, ?_⟩
  · obtain ⟨o', ho', hnone⟩ := h.unknownField_absent he ho hd l hl name o.name hunknown
    rw [h.name_of_object? ho, ho] at ho'
    cases ho'
    cases hnone.symm.trans hm
  · rintro hname entries key f rest v rfl hv hfields rfl
    subst he
    cases executes_conforms hd with
    | entries _ hvalues =>
      have hvalue := hvalues key v hv
      rw [show e.schema.graph.selectedOn o selections = e.graph.selectedOn o selections from rfl,
        hfields] at hvalue
      cases hvalue with
      | typename h => exact absurd h hname
      | unknown _ hnone => cases hnone.symm.trans hm
      | declared _ hm' hv =>
        cases hm'.symm.trans hm
        exact hconforms _ _ hv

/-- In an assembled graph covariance is an order that values respect, and an object type can be
substituted for its interfaces, of which it is a possible type. -/
theorem assemble_substitutable (h : ((b.assemble r c) w).1 = .ok g) :
    ∃ t, ((Declarations.ofParts r b.parts) w).1 = .ok t ∧ b.link t c = .ok g ∧
      (∀ x, t.isCovariant x x = true) ∧
      (∀ x y z, t.isCovariant x y = true → t.isCovariant y z = true → t.isCovariant x z = true) ∧
      (∀ x y, g.Admits .output x → g.Admits .output y → t.isCovariant x y = true →
        ∀ selections v, Conforms g x selections v → Conforms g y selections v) ∧
      ∀ name i, g.node? name = some (.interface i) →
        (∀ object ∈ i.typing.possibleTypes,
          ∃ o, g.object? object = some o ∧ name ∈ o.implements) ∧
        ∀ object o, g.object? object = some o → name ∈ o.implements →
          object ∈ i.typing.possibleTypes ∧ Substitutable g t i o := by
  obtain ⟨t, ht, hg⟩ := exists_linked h
  have hassembled : b.Assembled c g t := .of_link ht hg
  have hiff {x y : TypeRef} : t.isCovariant x y = true ↔ t.Fits x y := Declarations.fits_iff
  refine ⟨t, ht, hg, fun x => hiff.2 (t.fits_refl x), fun x y z hxy hyz => ?_,
    fun x y hx hy hxy selections v => hassembled.conforms_of_fits (hiff.1 hxy) hx hy,
    fun name i hi => ⟨fun object hobject => ?_, fun object o ho hn => ⟨?_, ?_⟩⟩⟩
  · exact hiff.2 (hassembled.fits_trans (hiff.1 hxy) (hiff.1 hyz))
  · obtain ⟨o, ho⟩ := hassembled.sound.possible hi rfl object hobject
    exact ⟨o, ho, (hassembled.mem_possibleTypes_iff hi ho).1 hobject⟩
  · exact (hassembled.mem_possibleTypes_iff hi ho).2 hn
  · exact hassembled.substitutable hi ho hn

theorem named_substitutable : ∃ g t i o,
    ((named.assemble clockwork {}) ⟨[], ()⟩).1 = .ok g ∧
    ((Declarations.ofParts clockwork named.parts) ⟨[], ()⟩).1 = .ok t ∧
    g.node? "Named" = some (.interface i) ∧ g.object? "Hero" = some o ∧ "Named" ∈ o.implements ∧
    t.isCovariant (.list (.nonNull (.named "Hero"))) (.list (.named "Named")) = true ∧
    (∀ selections v, Conforms g (.list (.nonNull (.named "Hero"))) selections v →
      Conforms g (.list (.named "Named")) selections v) ∧
    "Hero" ∈ i.typing.possibleTypes ∧ Substitutable g t i o := by
  obtain ⟨g, i, o, hg, hi, ho, hn, hhero, hnamed⟩ : ∃ g i o,
      ((named.assemble clockwork {}) ⟨[], ()⟩).1 = .ok g ∧
      g.node? "Named" = some (.interface i) ∧ g.object? "Hero" = some o ∧ "Named" ∈ o.implements ∧
      g.Admits .output (.list (.nonNull (.named "Hero"))) ∧
      g.Admits .output (.list (.named "Named")) :=
    ⟨_, _, _, rfl, rfl, rfl, List.mem_singleton_self _, ⟨_, rfl, rfl⟩, ⟨_, rfl, rfl⟩⟩
  obtain ⟨t, ht, -, -, -, hconforms, hinterfaces⟩ := assemble_substitutable hg
  have hcovariant : t.isCovariant (.list (.nonNull (.named "Hero"))) (.list (.named "Named")) =
      true := by
    cases ht
    decide
  obtain ⟨hpossible, hsubstitutable⟩ := (hinterfaces "Named" i hi).2 "Hero" o ho hn
  exact ⟨g, t, i, o, hg, ht, hi, ho, hn, hcovariant, hconforms _ _ hhero hnamed hcovariant,
    hpossible, hsubstitutable⟩

end Blueprint

section Labelled

/-- A label that is a number, declared under the name by which types are asked for. -/
def labelled : Blueprint Unit where
  rootQuery := "Query"
  components := [
    .interface {
      name := "Node"
      fields := .ofList [("__typename", { typeName := "Int", nullable := true })]
      chooser := some fun _ => pure (some "User") },
    .definition {
      name := "User"
      fields := .ofList [("__typename", { typeName := "Int", nullable := true })]
      implements := ["Node"] },
    .implementation {
      name := "Query"
      instanceToken := ⟨"Alpha"⟩
      resolvers := .ofList [("node", {
        name := "node"
        field := { typeName := "Node", nullable := true }
        instanceToken := ⟨"Alpha"⟩
        parameters := []
        bindings := []
        method := fun _ _ => pure (.ok (.value (.obj [("__typename", .num (.int 7))]))) })] }]

def alpha : Registry Unit where
  providers := [⟨⟨"Alpha"⟩, .value ⟨0, .held "Alpha" .null⟩⟩]

/-- Asked for its label, the user answers with the name of its type, which is not a number. -/
theorem labelled_answers_typename :
    ∃ g i n root, ((labelled.assemble alpha {}) ⟨[], ()⟩).1 = .ok g ∧
      g.node? "Node" = some (.interface i) ∧ "User" ∈ i.typing.possibleTypes ∧
      Dict.get? i.fields "__typename" = some n ∧ Schema.root? ⟨g, alpha, {}⟩ .query = some root ∧
      (Schema.execute ⟨g, alpha, {}⟩ .query
        [.field "node" none [] [.field "__typename" none [] []]] ⟨{}, [], ()⟩).1.data =
          some (.obj [("node", .obj [("__typename", .str "User")])]) ∧
      ¬ Conforms g n.type [] (.str "User") := by
  refine ⟨_, _, _, _, rfl, rfl, List.mem_singleton_self _, rfl, rfl, ?_, fun h => ?_⟩
  · decide +kernel
  · cases h with
    | builtin _ hv => cases hv

end Labelled

end GraphAssembly
