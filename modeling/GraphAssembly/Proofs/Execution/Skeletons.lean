import GraphAssembly.Proofs.Execution.Rules

/-!
# Graphs without their closures

Two graphs have the same skeleton if they differ at most in where the values of their fields come
from. If the code behind their other parts does not depend on any state, what happens at a position
is the same in both, up to the values that the fields give.

1. Skeletons.
2. `Graph.Pure`: codecs and choosers that only look at the value they are given.
3. The arguments of a field are the same in graphs with the same skeleton.
4. What the rules of named types and fields leave, case by case.
-/

namespace GraphAssembly

variable {ω : Type}

/-! ## Skeletons -/

/-- The field without where its value comes from. -/
def FieldNode.skeleton (n : FieldNode ω) : FieldNode ω := { n with source := .property }

def ObjectNode.skeleton (o : ObjectNode ω) : ObjectNode ω :=
  { o with fields := Dict.mapValues FieldNode.skeleton o.fields }

def InterfaceNode.skeleton (n : InterfaceNode ω) : InterfaceNode ω :=
  { n with fields := Dict.mapValues FieldNode.skeleton n.fields }

namespace Node

def skeleton : Node ω → Node ω
  | .object o => .object o.skeleton
  | .interface n => .interface n.skeleton
  | n => n

theorem eq_scalar_of_skeleton {n : Node ω} {c : ScalarNode ω}
    (h : n.skeleton = (Node.scalar c).skeleton) : n = .scalar c := by
  cases n with
  | scalar => exact h
  | object | interface | union | input => cases h

theorem eq_input_of_skeleton {n : Node ω} {i : InputNode}
    (h : n.skeleton = (Node.input i).skeleton) : n = .input i := by
  cases n with
  | input => exact h
  | object | interface | union | scalar => cases h

theorem eq_object_of_skeleton {n : Node ω} {o : ObjectNode ω}
    (h : n.skeleton = (Node.object o).skeleton) :
    ∃ o', n = .object o' ∧ o'.skeleton = o.skeleton := by
  cases n with
  | object o' => exact ⟨o', rfl, Node.object.inj h⟩
  | scalar | interface | union | input => cases h

theorem typing?_skeleton (n : Node ω) : n.skeleton.typing? = n.typing? := by
  cases n <;> rfl

theorem isCompletable_of_typing? {n : Node ω} {y : Typing ω} (h : n.typing? = some y) :
    n.isCompletable = true := by
  cases n with
  | interface | union => rfl
  | scalar | object | input => cases h

end Node

def Graph.skeleton (g : Graph ω) : Graph ω :=
  { g with nodes := Dict.mapValues Node.skeleton g.nodes }

section Skeletons

variable {o o' : ObjectNode ω} {g g' : Graph ω}

theorem fields_of_skeleton (h : o'.skeleton = o.skeleton) (key : String) :
    (Dict.get? o'.fields key).map FieldNode.skeleton =
      (Dict.get? o.fields key).map FieldNode.skeleton := by
  rw [← Dict.get?_mapValues, ← Dict.get?_mapValues]
  exact congrArg (fun o => Dict.get? (ObjectNode.fields o) key) h

theorem name_of_skeleton (h : o'.skeleton = o.skeleton) : o'.name = o.name :=
  (congrArg ObjectNode.name h :)

theorem node?_skeleton (g : Graph ω) (name : String) :
    g.skeleton.node? name = (g.node? name).map Node.skeleton :=
  Dict.get?_mapValues Node.skeleton g.nodes name

theorem node?_of_skeleton (h : g'.skeleton = g.skeleton) (name : String) :
    (g'.node? name).map Node.skeleton = (g.node? name).map Node.skeleton := by
  rw [← node?_skeleton, ← node?_skeleton, h]

theorem exists_node_of_skeleton (h : g'.skeleton = g.skeleton) {name : String} {n : Node ω}
    (hn : g.node? name = some n) : ∃ n', g'.node? name = some n' ∧ n'.skeleton = n.skeleton := by
  have := node?_of_skeleton h name
  rw [hn] at this
  exact Option.map_eq_some_iff.1 this

theorem node?_eq_none_of_skeleton (h : g'.skeleton = g.skeleton) {name : String}
    (hn : g.node? name = none) : g'.node? name = none := by
  have := node?_of_skeleton h name
  rwa [hn, Option.map_none, Option.map_eq_none_iff] at this

theorem object?_skeleton (g : Graph ω) (name : String) :
    g.skeleton.object? name = (g.object? name).map ObjectNode.skeleton := by
  rw [Graph.object?, Graph.object?, node?_skeleton]
  cases g.node? name with
  | none => rfl
  | some n => cases n <;> rfl

theorem object?_of_skeleton (h : g'.skeleton = g.skeleton) (name : String) :
    (g'.object? name).map ObjectNode.skeleton = (g.object? name).map ObjectNode.skeleton := by
  rw [← object?_skeleton, ← object?_skeleton, h]

theorem isSubtype_of_skeleton (h : g'.skeleton = g.skeleton) : g'.isSubtype = g.isSubtype := by
  have htyping (g : Graph ω) (name : String) :
      g.typing? name = ((g.node? name).map Node.skeleton).bind Node.typing? := by
    rw [Option.bind_map, Graph.typing?]
    exact congrArg _ (funext fun n => n.typing?_skeleton.symm)
  funext abstractType maybeSubtype
  simp only [Graph.isSubtype, Graph.possibleTypes, htyping, node?_of_skeleton h]

theorem groupsOn_of_skeleton (h : g'.skeleton = g.skeleton) (ho : o'.skeleton = o.skeleton)
    (selections : List Selection) : g'.groupsOn o' selections = g.groupsOn o selections := by
  rw [Graph.groupsOn, Graph.groupsOn, isSubtype_of_skeleton h, name_of_skeleton ho]

end Skeletons

/-! ## Code without a state -/

/-- What the code answers does not depend on the state. -/
def Stateless {σ α β : Type} (code : α → StateM σ β) : Prop :=
  ∃ f : α → β, ∀ a s, (code a s).1 = f a

theorem Stateless.eq {σ α β : Type} {code : α → StateM σ β} (h : Stateless code) (a : α)
    (s s' : σ) : (code a s).1 = (code a s').1 := by
  obtain ⟨f, h⟩ := h
  rw [h, h]

/-- The codecs and the choosers of a graph do not depend on the state. -/
structure Graph.Pure (g : Graph ω) : Prop where
  serialize : ∀ {name n c}, g.node? name = some (.scalar n) → n.codec = some c →
    Stateless c.serialize
  parseLiteral : ∀ {name n c}, g.node? name = some (.scalar n) → n.codec = some c →
    Stateless c.parseLiteral
  choose : ∀ {name n y choose}, g.node? name = some n → n.typing? = some y →
    y.chooser = some choose → Stateless choose

theorem Graph.Pure.resolve {g : Graph ω} (hg : g.Pure) {name : String} {n : Node ω}
    {y : Typing ω} (hn : g.node? name = some n) (hy : n.typing? = some y)
    (static : Option String) (v : Json) (c c' : Scope ω) :
    (y.resolve static v c).1 = (y.resolve static v c').1 := by
  have hchoose : (y.choose v c).1 = (y.choose v c').1 := by
    cases hchooser : y.chooser with
    | none => simp only [Typing.choose, hchooser]; rfl
    | some choose =>
      simp only [Typing.choose, hchooser]
      exact (hg.choose hn hy hchooser).eq v c c'
  refine congrArg y.accept ?_
  cases static.or (v.stringField? y.markerField) with
  | some name => rfl
  | none => exact congrArg (Option.or · (y.discriminate v)) hchoose

/-! ## Coercions -/

/-- The two coercions come to the same, each from any state. -/
def Coercing.Agree {α : Type} (m m' : Coercing ω α) : Prop := ∀ u u', (m u).1 = (m' u').1

namespace Coercing.Agree

variable {α β : Type}

theorem pure (a : α) : Agree (pure a : Coercing ω α) (pure a) := fun _ _ => rfl

theorem throw (e : FieldError) : Agree (throw e : Coercing ω α) (throw e) := fun _ _ => rfl

theorem bind {m m' : Coercing ω α} {f f' : α → Coercing ω β} (h : Agree m m')
    (hf : ∀ a, Agree (f a) (f' a)) : Agree (m >>= f) (m' >>= f') := by
  intro u u'
  have hm := h u u'
  rw [bind_apply, bind_apply]
  generalize m u = x at hm ⊢
  generalize m' u' = x' at hm ⊢
  obtain ⟨x, v⟩ := x
  obtain ⟨x', v'⟩ := x'
  obtain rfl : x = x' := hm
  cases x with
  | error e => rfl
  | ok a => exact hf a v v'

theorem mapM {xs : List α} {f f' : α → Coercing ω β} (h : ∀ x ∈ xs, Agree (f x) (f' x)) :
    Agree (xs.mapM f) (xs.mapM f') := by
  induction xs with
  | nil => exact pure []
  | cons x xs ih =>
    rw [List.mapM_cons, List.mapM_cons]
    refine (h x List.mem_cons_self).bind fun y => ?_
    exact (ih fun x hx => h x (List.mem_cons_of_mem _ hx)).bind fun ys => pure (y :: ys)

end Coercing.Agree

section Coercion

variable {g g' : Graph ω}

theorem coerce_builtin (g : Graph ω) {t : TypeRef} (ht : t.isBuiltin = true) (v : Json) :
    g.coerce t v = if v.isNull || t.accepts v then pure v
      else Graph.refuse t.text (.notBuiltin v t) := by
  cases t with
  | named | list | nonNull => cases ht
  | string | int | float | id | boolean => rw [Graph.coerce] <;> simp

theorem coerce_agree (h : g'.skeleton = g.skeleton) (hg : g.Pure) (t : TypeRef) (v : Json) :
    Coercing.Agree (g.coerce t v) (g'.coerce t v) := by
  cases t with
  | nonNull inner =>
    rw [Graph.coerce, Graph.coerce]
    split
    · exact .throw _
    · exact coerce_agree h hg inner v
  | list item =>
    cases v with
    | null => rw [Graph.coerce, Graph.coerce]; exact .pure _
    | arr items =>
      rw [Graph.coerce, Graph.coerce]
      refine .bind (.mapM fun x _ => ?_) fun vs => .pure _
      have := List.sizeOf_lt_of_mem x.2
      exact coerce_agree h hg item x.1
    | _ =>
      -- anything else stands for a list of itself
      rw [Graph.coerce, Graph.coerce]
      · exact .bind (coerce_agree h hg item _) fun v => .pure _
      all_goals simp
  | named name =>
    rw [Graph.coerce, Graph.coerce]
    split
    · exact .pure _
    · cases hn : g.node? name with
      | none =>
        rw [node?_eq_none_of_skeleton h hn]
        exact .throw _
      | some n =>
        obtain ⟨n', hn', hskeleton⟩ := exists_node_of_skeleton h hn
        rw [hn']
        cases n with
        | scalar n =>
          rw [Node.eq_scalar_of_skeleton hskeleton]
          obtain ⟨_, _, _ | c⟩ := n
          · exact .throw _
          · -- the only code that is asked, and the same in both graphs
            refine .bind (fun u u' => ?_) fun v' => ?_
            · exact congrArg Except.ok ((hg.parseLiteral hn rfl).eq v u u')
            · cases v' with
              | ok w => exact .pure w
              | error reason => exact .throw _
        | input n =>
          rw [Node.eq_input_of_skeleton hskeleton]
          cases v with
          | obj entries =>
            refine .bind (.mapM fun f _ => ?_) fun fields => .pure _
            split
            · split
              · exact .throw _
              · exact .pure _
            · rename_i x hx
              have := Dict.sizeOf_lt_of_get? hx
              split
              · exact .throw _
              · exact .bind (coerce_agree h hg f.type x) fun x' => .pure _
          | _ => exact .throw _
        | object | interface | union =>
          cases n' with
          | object | interface | union => exact .throw _
          | scalar | input => cases hskeleton
  | _ =>
    rw [coerce_builtin g rfl, coerce_builtin g' rfl]
    split
    · exact .pure _
    · exact .throw _
termination_by (sizeOf v, sizeOf t)

theorem coerceArguments_agree (h : g'.skeleton = g.skeleton) (hg : g.Pure) {f f' : FieldNode ω}
    (hf : f'.skeleton = f.skeleton) (given : Dict Json) :
    Coercing.Agree (g.coerceArguments f given) (g'.coerceArguments f' given) := by
  have harguments : f'.arguments = f.arguments := (congrArg FieldNode.arguments hf :)
  rw [Graph.coerceArguments, Graph.coerceArguments, harguments]
  refine .bind (.mapM fun a _ => ?_) fun coerced => .pure _
  split
  · split
    · exact .throw _
    · exact .pure _
  · split
    · exact .throw _
    · exact .bind (coerce_agree h hg a.type _) fun v => .pure _

end Coercion

/-! ## The rules by their cases -/

section Cases

variable {g : Graph ω} {A : ObjectEnding ω} {t : TypeRef} {static : Option String} {v : Json}
  {p : Path} {d : Trace} {out : Outcome}

theorem NamedEnds.of_builtin (h : NamedEnds g A t static v p d out) (ht : t.isBuiltin = true) :
    (d, out) = if t.accepts v then (0, some v)
      else (.error (.invalidValue t.text (.notBuiltin v t)) p, none) := by
  cases h with
  | builtin _ hv => rw [if_pos hv]
  | notBuiltin _ hv => rw [if_neg (by simp [hv])]
  | serialized ht' | refused ht' | object ht' | untyped ht' | typed ht' | notObjectType ht'
  | notOutputType ht' => cases ht.symm.trans ht'

/-- What the answer of a codec comes to. -/
def serializedEnd (t : TypeRef) (p : Path) : Except String Json → Trace × Outcome
  | .ok w => (.event (.serialized p w), some w)
  | .error reason => (.error (.invalidValue t.text (.refused reason)) p, none)

theorem NamedEnds.of_codec (h : NamedEnds g A t static v p d out) (ht : t.isBuiltin = false)
    {n : ScalarNode ω} (hn : g.node? t.baseName = some (.scalar n)) {c : Codec ω}
    (hc : n.codec = some c) : ∃ u, (d, out) = serializedEnd t p (c.serialize v u).1 := by
  cases h with
  | serialized _ hn' hc' hw | refused _ hn' hc' hw =>
    cases hn.symm.trans hn'
    cases hc.symm.trans hc'
    obtain ⟨u, hu⟩ := hw
    exact ⟨u, by rw [hu]; rfl⟩
  | builtin ht' | notBuiltin ht' => cases ht.symm.trans ht'
  | object _ hn' => cases hn.symm.trans hn'
  | untyped _ hn' hy | typed _ hn' hy | notObjectType _ hn' hy =>
    cases hn.symm.trans hn'
    cases hy
  | notOutputType _ hn' => simpa [Node.isCompletable, hc] using hn' _ hn

theorem NamedEnds.of_object (h : NamedEnds g A t static v p d out) (ht : t.isBuiltin = false)
    {o : ObjectNode ω} (hn : g.node? t.baseName = some (.object o)) : ObjectEnds A o v p d out := by
  cases h with
  | object _ hn' ho =>
    cases hn.symm.trans hn'
    exact ho
  | builtin ht' | notBuiltin ht' => cases ht.symm.trans ht'
  | serialized _ hn' | refused _ hn' => cases hn.symm.trans hn'
  | untyped _ hn' hy | typed _ hn' hy | notObjectType _ hn' hy =>
    cases hn.symm.trans hn'
    cases hy
  | notOutputType _ hn' => cases hn' _ hn

/-- What the object type found for a value comes to. -/
inductive TypedEnds (g : Graph ω) (A : ObjectEnding ω) (t : TypeRef) (v : Json) (p : Path) :
    Except FieldError String → Ending
  | untyped (e : FieldError) : TypedEnds g A t v p (.error e) (.error e p) none
  | typed {name : String} {o : ObjectNode ω} {d : Trace} {out : Outcome}
    (hobject : g.object? name = some o) (ho : ObjectEnds A o v p d out) :
    TypedEnds g A t v p (.ok name) (.event (.typed p name) + d) out
  | notObjectType {name : String} (hobject : g.object? name = none) :
    TypedEnds g A t v p (.ok name)
      (.event (.typed p name) + .error (.invalidValue t.text (.notObjectType name)) p) none

theorem NamedEnds.of_typing (h : NamedEnds g A t static v p d out) (ht : t.isBuiltin = false)
    {n : Node ω} (hn : g.node? t.baseName = some n) {y : Typing ω} (hy : n.typing? = some y) :
    ∃ c, TypedEnds g A t v p (y.resolve static v c).1 d out := by
  cases h with
  | untyped _ hn' hy' he =>
    cases hn.symm.trans hn'
    cases hy.symm.trans hy'
    obtain ⟨c, hc⟩ := he
    exact ⟨c, hc ▸ .untyped _⟩
  | typed _ hn' hy' hname hobject ho =>
    cases hn.symm.trans hn'
    cases hy.symm.trans hy'
    obtain ⟨c, hc⟩ := hname
    exact ⟨c, hc ▸ .typed hobject ho⟩
  | notObjectType _ hn' hy' hname hobject =>
    cases hn.symm.trans hn'
    cases hy.symm.trans hy'
    obtain ⟨c, hc⟩ := hname
    exact ⟨c, hc ▸ .notObjectType hobject⟩
  | builtin ht' | notBuiltin ht' => cases ht.symm.trans ht'
  | serialized _ hn' | refused _ hn' | object _ hn' =>
    cases hn.symm.trans hn'
    cases hy
  | notOutputType _ hn' =>
    have := hn' n hn
    rw [Node.isCompletable_of_typing? hy] at this
    cases this

theorem NamedEnds.of_notCompletable (h : NamedEnds g A t static v p d out)
    (ht : t.isBuiltin = false) (hn : ∀ n, g.node? t.baseName = some n → n.isCompletable = false) :
    (d, out) = (.error (.invalidValue t.text .notOutputType) p, none) := by
  cases h with
  | notOutputType => rfl
  | builtin ht' | notBuiltin ht' => cases ht.symm.trans ht'
  | serialized _ hn' hc | refused _ hn' hc => simpa [Node.isCompletable, hc] using hn _ hn'
  | object _ hn' => cases hn _ hn'
  | untyped _ hn' hy | typed _ hn' hy | notObjectType _ hn' hy =>
    have := hn _ hn'
    rw [Node.isCompletable_of_typing? hy] at this
    cases this

end Cases

section Fields

/-- What the answer of a field comes to. -/
inductive AnswerEnds (g : Graph ω) (A : ObjectEnding ω) (label : String) (t : TypeRef) (p : Path) :
    Except FieldError Resolved → Ending
  | failed (e : FieldError) :
    AnswerEnds g A label t p (.error e) (.error e p) (Executor.nullFor t)
  | resolved {r : Resolved} {d : Trace} {out : Outcome} (h : Ends g A label t r p d out) :
    AnswerEnds g A label t p (.ok r) d out

/-- What the coerced arguments of a field come to. -/
inductive CallEnds (g : Graph ω) (A : ObjectEnding ω) (label : String) (t : TypeRef) (p : Path) :
    Except FieldError (Dict Json) → Ending
  | badArguments (e : FieldError) :
    CallEnds g A label t p (.error e) (.error e p) (Executor.nullFor t)
  | answered {args : Dict Json} {x : Except FieldError Resolved} {d : Trace} {out : Outcome}
    (h : AnswerEnds g A label t p x d out) :
    CallEnds g A label t p (.ok args) (.event (.resolved p x) + d) out

variable {s : Schema ω} {A : ObjectEnding ω} {o : ObjectNode ω} {source : Json}
  {f : SelectedField} {p : Path} {d : Trace} {out : Outcome}

theorem FieldEnds.of_typename (h : FieldEnds s A o source f p d out)
    (hname : f.name = Executor.typenameField) : (d, out) = (0, some (.str o.name)) := by
  cases h with
  | typename => rfl
  | unknown hne | badArguments hne | failed hne | resolved hne => exact absurd hname hne

theorem FieldEnds.of_unknown (h : FieldEnds s A o source f p d out)
    (hname : f.name ≠ Executor.typenameField) (hf : Dict.get? o.fields f.name = none) :
    (d, out) = (.error (.unknownField f.name o.name) p, some .null) := by
  cases h with
  | unknown => rfl
  | typename he => exact absurd he hname
  | badArguments _ hf' | failed _ hf' | resolved _ hf' => cases hf.symm.trans hf'

theorem FieldEnds.of_node (h : FieldEnds s A o source f p d out)
    (hname : f.name ≠ Executor.typenameField) {node : FieldNode ω}
    (hf : Dict.get? o.fields f.name = some node) :
    ∃ u, CallEnds s.graph A s!"{o.name}.{node.name}" node.type p
      (s.graph.coerceArguments node f.arguments u).1 d out := by
  cases h with
  | typename he => exact absurd he hname
  | unknown _ hf' => cases hf.symm.trans hf'
  | badArguments _ hf' he =>
    cases hf.symm.trans hf'
    obtain ⟨u, hu⟩ := he
    exact ⟨u, hu ▸ .badArguments _⟩
  | failed _ hf' hargs =>
    cases hf.symm.trans hf'
    obtain ⟨u, hu⟩ := hargs
    exact ⟨u, hu ▸ .answered (.failed _)⟩
  | resolved _ hf' hargs _ hends =>
    cases hf.symm.trans hf'
    obtain ⟨u, hu⟩ := hargs
    exact ⟨u, hu ▸ .answered (.resolved hends)⟩

end Fields

end GraphAssembly
