import GraphAssembly.Proofs.Assembly.WellFormed
import GraphAssembly.Proofs.Registry.Answers

/-!
# Declared parts

What the first stage of an assembly makes of a blueprint. It ends with a table in which every type
is declared once, or with an error that is right.

1. `Verdict`: what is to be said of a success, and what of an error.
2. Members, and the fragments of an object type.
3. Types that are declared one after the other.
4. `Table`, and the whole stage.
-/

namespace GraphAssembly

variable {ω ε α β γ σ : Type}

/-! ## Verdicts -/

/-- A success of which one thing holds, or an error of which another holds. -/
inductive Verdict (P : α → Prop) (Q : ε → Prop) : Except ε α → Prop
  | ok {a : α} (h : P a) : Verdict P Q (.ok a)
  | error {e : ε} (h : Q e) : Verdict P Q (.error e)

namespace Verdict

variable {P : α → Prop} {P' : β → Prop} {Q : ε → Prop}

theorem bind {x : Except ε α} {f : α → Except ε β} (h : Verdict P Q x)
    (hf : ∀ a, P a → Verdict P' Q (f a)) : Verdict P' Q (x >>= f) := by
  cases h with
  | ok h => exact hf _ h
  | error h => exact .error h

theorem mono {P' : α → Prop} {x : Except ε α} (h : Verdict P Q x) (hP : ∀ a, P a → P' a) :
    Verdict P' Q x := by
  cases h with
  | ok h => exact .ok (hP _ h)
  | error h => exact .error h

theorem mono_error {Q' : ε → Prop} {x : Except ε α} (h : Verdict P Q x) (hQ : ∀ e, Q e → Q' e) :
    Verdict P Q' x := by
  cases h with
  | ok h => exact .ok h
  | error h => exact .error (hQ _ h)

theorem of_eq_ok {x : Except ε α} {a : α} (h : Verdict P Q x) (hx : x = .ok a) : P a := by
  subst hx
  cases h with
  | ok h => exact h

theorem of_eq_error {x : Except ε α} {e : ε} (h : Verdict P Q x) (hx : x = .error e) : Q e := by
  subst hx
  cases h with
  | error h => exact h

theorem forM_map {ι κ : Type} {P : κ → Prop} {f : ι → Except ε Unit} {g : κ → ι} {xs : List κ}
    (h : ∀ x ∈ xs, Verdict (fun _ => P x) Q (f (g x))) :
    Verdict (fun _ => ∀ x ∈ xs, P x) Q ((xs.map g).forM f) := by
  induction xs with
  | nil => exact .ok nofun
  | cons x xs ih =>
    change Verdict _ _ (f (g x) >>= fun _ => (xs.map g).forM f)
    refine (h x List.mem_cons_self).bind fun _ hx => ?_
    refine (ih fun x hx => h x (List.mem_cons_of_mem _ hx)).mono fun _ hxs => ?_
    exact List.forall_mem_cons.2 ⟨hx, hxs⟩

theorem forM {ι : Type} {P : ι → Prop} {f : ι → Except ε Unit} {xs : List ι}
    (h : ∀ x ∈ xs, Verdict (fun _ => P x) Q (f x)) :
    Verdict (fun _ => ∀ x ∈ xs, P x) Q (xs.forM f) := by
  have := forM_map (g := id) h
  rwa [List.map_id] at this

/-- One step of a computation with a state. -/
theorem bind_apply {x : ExceptT ε (StateM σ) α} {f : α → ExceptT ε (StateM σ) β} {s : σ}
    (h : Verdict P Q (x s).1) (hf : ∀ a, P a → Verdict P' Q (f a (x s).2).1) :
    Verdict P' Q ((x >>= f) s).1 := by
  rw [GraphAssembly.bind_apply]
  generalize x s = y at h hf
  rcases y with ⟨e | a, s'⟩
  · cases h with
    | error h => exact .error h
  · cases h with
    | ok h => exact hf a h

end Verdict

theorem adapt_apply {δ : Type} (f : ε → δ) (x : ExceptT ε (StateM σ) α) (s : σ) :
    (ExceptT.adapt f x) s = ((x s).1.mapError f, (x s).2) := rfl

theorem lift_apply (x : Except ε α) (s : σ) :
    (ExceptT.mk (pure x) : ExceptT ε (StateM σ) α) s = (x, s) := rfl

theorem duplicate_append {x : α} {xs ys : List α} (hx : x ∈ xs) (hy : x ∈ ys) :
    List.Duplicate x (xs ++ ys) :=
  List.duplicate_iff_sublist.2
    ((List.singleton_sublist.2 hx).append (List.singleton_sublist.2 hy))

/-! ## Members and fragments -/

/-- A field is declared twice among the names. -/
def Twice (parent : String) (names : List String) (e : GraphError) : Prop :=
  ∃ field, e = .duplicateField field parent ∧ List.Duplicate field names

theorem Twice.mono {parent : String} {names names' : List String} {e : GraphError}
    (h : Twice parent names e) (hsub : names.Sublist names') : Twice parent names' e := by
  obtain ⟨field, rfl, h⟩ := h
  exact ⟨field, rfl, h.mono_sublist hsub⟩

theorem checked_verdict (m : Members α) (parent : String) :
    Verdict (fun d => d = m.entries ∧ m.duplicates = []) (Twice parent m.declared)
      (m.checked parent) := by
  unfold Members.checked
  split
  · exact .ok ⟨rfl, ‹_›⟩
  · rename_i field rest hd
    have hmem : field ∈ m.duplicates := hd ▸ List.mem_cons_self
    exact .error ⟨field, rfl, duplicate_append (m.repeated field hmem) hmem⟩

theorem addFields_verdict {parent : String} {fields added : Dict (FieldNode ω)}
    (hf : Dict.Distinct fields) (ha : Dict.Distinct added) :
    Verdict (fun all => all = fields ++ added ∧ Dict.Distinct all)
      (Twice parent (Dict.keys fields ++ Dict.keys added))
      (Fragments.addFields parent fields added) := by
  unfold Fragments.addFields
  split
  · rename_i name node hfind
    have hmem : name ∈ Dict.keys added :=
      List.mem_map_of_mem (f := Prod.fst) (List.mem_of_find?_eq_some hfind)
    have hcontains : Dict.contains fields name = true := by simpa using List.find?_some hfind
    exact .error ⟨name, rfl, duplicate_append (Dict.contains_eq_true_iff.1 hcontains) hmem⟩
  · rename_i hfind
    refine .ok ⟨rfl, ?_⟩
    rw [Dict.Distinct, Dict.keys, List.map_append]
    refine List.nodup_append.2 ⟨hf, ha, fun a ha b hb hab => ?_⟩
    obtain ⟨pair, hpair, rfl⟩ := List.mem_map.1 hb
    have := List.find?_eq_none.1 hfind pair hpair
    rw [Dict.contains_eq_true_iff] at this
    exact this (hab ▸ ha)

/-- The fields of fragments of one sort are added to those that are there. -/
theorem foldlM_addFields {ι : Type} (members : ι → Members β)
    (node : ι → String → β → FieldNode ω) (parent : String) {xs : List ι}
    {add : Dict (FieldNode ω) → ι → Except GraphError (Dict (FieldNode ω))}
    (hadd : ∀ x ∈ xs, ∀ fields, add fields x = do
      let declared ← (members x).checked parent
      Fragments.addFields parent fields (declared.map fun (n, v) => (n, node x n v)))
    {fields : Dict (FieldNode ω)} (hf : Dict.Distinct fields) :
    Verdict (fun all => all = fields ++ (xs.flatMap fun x =>
        (members x).entries.map fun (n, v) => (n, node x n v)) ∧ Dict.Distinct all ∧
        Dict.keys all = Dict.keys fields ++ xs.flatMap fun x => (members x).declared)
      (Twice parent (Dict.keys fields ++ xs.flatMap fun x => (members x).declared))
      (xs.foldlM add fields) := by
  induction xs generalizing fields with
  | nil => exact .ok ⟨by simp, hf, by simp⟩
  | cons x xs ih =>
    have hkeys (entries : Dict β) :
        Dict.keys (entries.map fun (n, v) => (n, node x n v)) = Dict.keys entries := by
      simp [Dict.keys, Function.comp_def]
    rw [List.foldlM_cons, List.flatMap_cons, List.flatMap_cons, hadd x List.mem_cons_self]
    refine Verdict.bind (P := fun all => (all = fields ++
      (members x).entries.map fun (n, v) => (n, node x n v)) ∧ Dict.Distinct all ∧
      Dict.keys all = Dict.keys fields ++ (members x).declared) ?_ ?_
    · refine ((checked_verdict (members x) parent).mono_error fun e he => ?_).bind ?_
      · refine he.mono ?_
        exact (List.sublist_append_left _ _).trans (List.sublist_append_right _ _)
      · rintro _ ⟨rfl, hd⟩
        have hdeclared : (members x).declared = Dict.keys (members x).entries := by
          rw [Members.declared, hd, List.append_nil]
        refine ((addFields_verdict hf ?_).mono_error fun e he => ?_).mono ?_
        · rw [Dict.Distinct, hkeys]
          exact (members x).distinct
        · refine he.mono ?_
          rw [hkeys, hdeclared, ← List.append_assoc]
          exact List.sublist_append_left _ _
        · rintro all ⟨rfl, hall⟩
          refine ⟨rfl, hall, ?_⟩
          rw [hdeclared, ← hkeys, Dict.keys, Dict.keys, Dict.keys, List.map_append]
    · rintro all ⟨rfl, hall, hall'⟩
      rw [← List.append_assoc, ← List.append_assoc, ← hall']
      exact ih (fun x hx => hadd x (List.mem_cons_of_mem _ hx)) hall

namespace Fragments

/-- The fields of the object type that the fragments declare. -/
def nodes (f : Fragments ω) : Dict (FieldNode ω) :=
  (f.definitions.flatMap fun d => d.fields.entries.map fun (n, type) => (n, .plain n type)) ++
    f.implementations.flatMap fun i =>
      i.resolvers.entries.map fun (n, r) => (n, .resolved n r i.bindings)

def node (f : Fragments ω) (name : String) : ObjectNode ω :=
  ⟨name, f.description, f.nodes, f.implements⟩

theorem merge_verdict {f : Fragments ω} {name : String} (hd : ∀ d ∈ f.definitions, d.name = name)
    (hi : ∀ i ∈ f.implementations, i.name = name) :
    Verdict (fun o => o = f.node name ∧ f.declared.Nodup) (Twice name f.declared)
      (f.merge name) := by
  refine ((foldlM_addFields (·.fields) (fun _ n type => .plain n type) name
    (fun d hmem fields => by rw [addDefinition, hd d hmem]) Dict.distinct_nil).mono_error
    fun e he => ?_).bind ?_
  · exact he.mono (List.sublist_append_left _ _)
  · rintro fields ⟨rfl, hdistinct, hkeys⟩
    refine ((foldlM_addFields (·.resolvers) (fun i n r => .resolved n r i.bindings) name
      (fun i hmem fields => by rw [addImplementation, hi i hmem]) hdistinct).mono_error
      fun e he => ?_).bind ?_
    · rw [hkeys] at he
      exact he
    · rintro all ⟨rfl, hall, hallkeys⟩
      refine .ok ⟨rfl, ?_⟩
      rw [hkeys] at hallkeys
      rw [Dict.Distinct, hallkeys] at hall
      exact hall

end Fragments

/-! ## Types -/

namespace Blueprint

/-- The declarations that the parts of a blueprint lead to. -/
inductive Declares (b : Blueprint ω) : Declaration ω → Prop
  | builtin {name : String} (h : name ∈ TypeRef.builtinNames) :
    Declares b (.scalar ⟨name, none, none⟩)
  | interface {i : InterfaceDefinition ω} (hi : i ∈ b.parts.interfaces) :
    Declares b (.interface i.name i.description
      (i.fields.entries.map fun (n, type) => (n, .plain n type)) i.chooser)
  | union {u : UnionDefinition ω} (hu : u ∈ b.parts.unions) : Declares b (.union u)
  | input {i : InputDefinition} (hi : i ∈ b.parts.inputs) :
    Declares b (.input ⟨i.name, i.description,
      i.fields.entries.map fun (n, type) => (n, .make n type)⟩)
  | scalar {s : ScalarDefinition ω} (hs : s ∈ b.parts.scalars) (c : Codec ω) :
    Declares b (.scalar ⟨s.name, s.description, some c⟩)
  | object {name : String} (h : name ∈ b.objectNames) :
    Declares b (.object ((b.fragments name).node name))

/-- A table with the given types, once each. -/
structure Table (b : Blueprint ω) (types : List (String × NodeKind)) (t : Declarations ω) :
    Prop where
  types_eq : t.map (fun e => (e.1, e.2.kind)) = types
  distinct : Dict.Distinct t
  entries : ∀ name d, (name, d) ∈ t → d.name = name ∧ b.Declares d

section Table

variable {b : Blueprint ω} {r : Registry ω} {w : Workshop ω} {types : List (String × NodeKind)}
  {t : Declarations ω}

theorem Table.keys (h : b.Table types t) : Dict.keys t = types.map Prod.fst := by
  rw [← h.types_eq, List.map_map]
  rfl

/-- One more type is declared, unless there is one of its name. -/
theorem Table.declare (h : b.Table types t) {name : String} {kind : NodeKind} {d : Declaration ω}
    (hd : d.name = name ∧ d.kind = kind ∧ b.Declares d)
    (hsub : (types ++ [(name, kind)]).Sublist b.declaredTypes) :
    Verdict (b.Table (types ++ [(name, kind)])) (b.Violation r w) (t.declare d) := by
  obtain ⟨rfl, rfl, hd⟩ := hd
  unfold Declarations.declare
  split
  · rename_i hcontains
    rw [Dict.contains_eq_true_iff, h.keys] at hcontains
    have hduplicate := duplicate_append hcontains (List.mem_singleton_self d.name)
    refine .error (.duplicateType (hduplicate.mono_sublist ?_))
    simpa using hsub.map Prod.fst
  · rename_i hcontains
    rw [Dict.contains_eq_true_iff] at hcontains
    refine .ok ⟨by simp [h.types_eq], Dict.distinct_append_single h.distinct hcontains d, ?_⟩
    intro name d' hmem
    rcases List.mem_append.1 hmem with hmem | hmem
    · exact h.entries name d' hmem
    · obtain ⟨rfl, rfl⟩ : name = d.name ∧ d' = d := by simpa using hmem
      exact ⟨rfl, hd⟩

/-- Types of one kind are declared one after the other. -/
theorem Table.declareAll {ι : Type} {name : ι → String} {kind : NodeKind}
    (add : Declarations ω → ι → Except GraphError (Declarations ω))
    (make : ι → Except GraphError (Declaration ω)) (good : ι → Prop) {xs : List ι}
    (hadd : ∀ t x, add t x = make x >>= t.declare)
    (hmake : ∀ x ∈ xs, Verdict
      (fun d => (d.name = name x ∧ d.kind = kind ∧ b.Declares d) ∧ good x)
      (b.Violation r w) (make x))
    (h : b.Table types t)
    (hsub : (types ++ xs.map fun x => (name x, kind)).Sublist b.declaredTypes) :
    Verdict (fun t' => b.Table (types ++ xs.map fun x => (name x, kind)) t' ∧ ∀ x ∈ xs, good x)
      (b.Violation r w) (xs.foldlM add t) := by
  induction xs generalizing types t with
  | nil => exact .ok ⟨by simpa using h, nofun⟩
  | cons x xs ih =>
    rw [List.map_cons, List.append_cons] at hsub ⊢
    rw [List.foldlM_cons, hadd]
    refine Verdict.bind (P := fun t' => b.Table (types ++ [(name x, kind)]) t' ∧ good x) ?_ ?_
    · refine (hmake x List.mem_cons_self).bind fun d hd => ?_
      have hfirst := (List.sublist_append_left _ _).trans hsub
      exact (h.declare hd.1 hfirst).mono fun t' ht' => ⟨ht', hd.2⟩
    · rintro t' ⟨ht', hx⟩
      refine (ih (fun y hy => hmake y (List.mem_cons_of_mem _ hy)) ht' hsub).mono fun _ h => ?_
      exact ⟨h.1, List.forall_mem_cons.2 ⟨hx, h.2⟩⟩

theorem table_builtins (b : Blueprint ω) :
    b.Table (TypeRef.builtinNames.map fun name => (name, .scalar)) Declarations.builtins where
  types_eq := by simp [Declarations.builtins, Declaration.kind, Function.comp_def]
  distinct := by
    change TypeRef.builtinNames.Nodup
    decide
  entries name d h := by
    obtain ⟨name, hname, h⟩ := List.mem_map.1 h
    obtain ⟨rfl, rfl⟩ := Prod.mk.inj h
    exact ⟨rfl, .builtin hname⟩

theorem ofInterface_verdict {i : InterfaceDefinition ω} (hi : i ∈ b.parts.interfaces) :
    Verdict (fun d => (d.name = i.name ∧ d.kind = .interface ∧ b.Declares d) ∧
      i.fields.declared.Nodup) (b.Violation r w) (Declaration.ofInterface i) := by
  refine ((checked_verdict i.fields i.name).mono_error ?_).bind ?_
  · rintro _ ⟨field, rfl, h⟩
    exact .interfaceField hi h
  · rintro _ ⟨rfl, h⟩
    exact .ok ⟨⟨rfl, rfl, .interface hi⟩, Members.nodup_declared_iff.2 h⟩

theorem ofInput_verdict {i : InputDefinition} (hi : i ∈ b.parts.inputs) :
    Verdict (fun d => (d.name = i.name ∧ d.kind = .input ∧ b.Declares d) ∧
      i.fields.declared.Nodup) (b.Violation r w) (Declaration.ofInput i) := by
  refine ((checked_verdict i.fields i.name).mono_error ?_).bind ?_
  · rintro _ ⟨field, rfl, h⟩
    exact .inputField hi h
  · rintro _ ⟨rfl, h⟩
    exact .ok ⟨⟨rfl, rfl, .input hi⟩, Members.nodup_declared_iff.2 h⟩

theorem merge_fragments_verdict {name : String} (h : name ∈ b.objectNames) :
    Verdict (fun d => (d.name = name ∧ d.kind = .object ∧ b.Declares d) ∧
      (b.fragments name).declared.Nodup) (b.Violation r w)
      ((b.fragments name).merge name >>= fun o => pure (.object o)) := by
  have hd : ∀ d ∈ (b.fragments name).definitions, d.name = name :=
    fun d hd => by simpa using (List.mem_filter.1 hd).2
  have hi : ∀ i ∈ (b.fragments name).implementations, i.name = name :=
    fun i hi => by simpa using (List.mem_filter.1 hi).2
  refine ((Fragments.merge_verdict hd hi).mono_error ?_).bind ?_
  · rintro _ ⟨field, rfl, hd⟩
    exact .objectField h hd
  · rintro o ⟨rfl, hd⟩
    exact .ok ⟨⟨rfl, rfl, .object h⟩, hd⟩

/-- From each state of the registry of which `I` holds, the scalar has a declaration, or an error of
which `Q` holds. -/
def Scalar (b : Blueprint ω) (r : Registry ω) (I : Workshop ω → Prop) (Q : GraphError → Prop)
    (good : Prop) (s : ScalarDefinition ω) : Prop :=
  ∀ w, I w → Verdict (fun d => (d.name = s.name ∧ d.kind = .scalar ∧ b.Declares d) ∧ good) Q
      ((Declaration.ofScalar r s) w).1 ∧ I ((Declaration.ofScalar r s) w).2

/-- The answer for the codec is the one that the registry would have given at first. -/
theorem scalar_reached (hr : r.Deterministic) (hw : r.Reached w) {s : ScalarDefinition ω}
    (hs : s ∈ b.parts.scalars) :
    b.Scalar r r.Reached (b.Violation r w) (r.HasCodec w s.codec) s := by
  intro w' hw'
  have halike := r.resolve_alike hr hw' hw s.codec
  have hreached := hw'.asked s.codec
  rw [Declaration.ofScalar, bind_apply, adapt_apply]
  rcases hanswer : r.resolve s.codec w' with ⟨e | i, w''⟩
  · rw [hanswer] at halike hreached
    exact ⟨.error (.unresolved hs halike.eq_error), hreached⟩
  · rw [hanswer] at halike hreached
    obtain ⟨j, hj, hsame⟩ := halike.exists_ok
    dsimp only [Except.mapError]
    cases hcodec : i.asCodec? with
    | some c =>
      refine ⟨.ok ⟨⟨rfl, rfl, .scalar hs c⟩, j, hj, ?_⟩, hreached⟩
      rw [← hsame.asCodec?, hcodec]
      rfl
    | none =>
      refine ⟨.error (.notCodec hs hj ?_), hreached⟩
      rw [← hsame.asCodec?, hcodec]

/-- Whatever the registry answers, a scalar that is declared has a codec. -/
theorem scalar_any {s : ScalarDefinition ω} (hs : s ∈ b.parts.scalars) :
    b.Scalar r (fun _ => True) (fun _ => True) True s := by
  intro w _
  refine ⟨?_, trivial⟩
  rw [Declaration.ofScalar]
  refine Verdict.bind_apply (P := fun _ => True) ?_ fun i _ => ?_
  · cases h : (ExceptT.adapt GraphError.resolution (r.resolve s.codec) w).1 with
    | ok i => exact .ok trivial
    | error e => exact .error trivial
  · cases i.asCodec? with
    | some c => exact .ok ⟨⟨rfl, rfl, .scalar hs c⟩, trivial⟩
    | none => exact .error trivial

section Scalars

variable {I : Workshop ω → Prop} {Q : GraphError → Prop}

theorem Table.addScalar {good : Prop} (hQ : ∀ e, b.Violation r w e → Q e)
    {s : ScalarDefinition ω} (hs : b.Scalar r I Q good s) {w' : Workshop ω} (hw' : I w')
    (h : b.Table types t)
    (hsub : (types ++ [(s.name, NodeKind.scalar)]).Sublist b.declaredTypes) :
    Verdict (fun t' => b.Table (types ++ [(s.name, .scalar)]) t' ∧ good) Q
      ((Declarations.addScalar r t s) w').1 ∧ I ((Declarations.addScalar r t s) w').2 := by
  obtain ⟨hverdict, hI⟩ := hs w' hw'
  constructor
  · refine hverdict.bind_apply fun d hd => ?_
    rw [lift_apply]
    exact ((h.declare hd.1 hsub).mono fun t' ht' => ⟨ht', hd.2⟩).mono_error hQ
  · rw [Declarations.addScalar, bind_apply]
    generalize Declaration.ofScalar r s w' = answer at hI
    rcases answer with ⟨e | d, w''⟩ <;> exact hI

theorem Table.addScalars {good : ScalarDefinition ω → Prop}
    (hQ : ∀ e, b.Violation r w e → Q e) {xs : List (ScalarDefinition ω)}
    (hxs : ∀ s ∈ xs, b.Scalar r I Q (good s) s) {w' : Workshop ω} (hw' : I w')
    (h : b.Table types t)
    (hsub : (types ++ xs.map fun s => (s.name, NodeKind.scalar)).Sublist b.declaredTypes) :
    Verdict (fun t' => b.Table (types ++ xs.map fun s => (s.name, .scalar)) t' ∧
      ∀ s ∈ xs, good s) Q ((xs.foldlM (Declarations.addScalar r) t) w').1 := by
  induction xs generalizing types t w' with
  | nil => exact .ok ⟨by simpa using h, nofun⟩
  | cons s xs ih =>
    rw [List.map_cons, List.append_cons] at hsub ⊢
    have hfirst := (List.sublist_append_left _ _).trans hsub
    obtain ⟨hverdict, hI⟩ := h.addScalar hQ (hxs s List.mem_cons_self) hw' hfirst
    rw [List.foldlM_cons]
    refine hverdict.bind_apply fun t' ht' => ?_
    refine (ih (fun x hx => hxs x (List.mem_cons_of_mem _ hx)) hI ht'.1 hsub).mono ?_
    exact fun _ h => ⟨h.1, List.forall_mem_cons.2 ⟨ht'.2, h.2⟩⟩

theorem ofParts_verdict_of {good : ScalarDefinition ω → Prop} (hQ : ∀ e, b.Violation r w e → Q e)
    (hs : ∀ s ∈ b.parts.scalars, b.Scalar r I Q (good s) s) {w' : Workshop ω} (hw' : I w') :
    Verdict (fun t => b.Table b.declaredTypes t ∧
      (∀ i ∈ b.parts.interfaces, i.fields.declared.Nodup) ∧
      (∀ i ∈ b.parts.inputs, i.fields.declared.Nodup) ∧
      (∀ s ∈ b.parts.scalars, good s) ∧
      ∀ name ∈ b.objectNames, (b.fragments name).declared.Nodup)
      Q ((Declarations.ofParts r b.parts) w').1 := by
  have hall : b.declaredTypes.Sublist b.declaredTypes := List.Sublist.refl _
  have hscalars := (List.sublist_append_left _ _).trans hall
  have hinputs := (List.sublist_append_left _ _).trans hscalars
  have hunions := (List.sublist_append_left _ _).trans hinputs
  have hinterfaces := (List.sublist_append_left _ _).trans hunions
  refine Verdict.bind_apply (((table_builtins b).declareAll Declarations.addInterface _ _
    (fun _ _ => rfl) (fun _ => ofInterface_verdict) hinterfaces).mono_error hQ) ?_
  rintro t₁ ⟨ht₁, hinterfaceFields⟩
  refine Verdict.bind_apply ((ht₁.declareAll _ (fun u => .ok (.union u)) (fun _ => True)
    (fun _ _ => rfl) (fun _ hu => .ok ⟨⟨rfl, rfl, .union hu⟩, trivial⟩) hunions).mono_error hQ) ?_
  rintro t₂ ⟨ht₂, -⟩
  refine Verdict.bind_apply ((ht₂.declareAll Declarations.addInput _ _
    (fun _ _ => rfl) (fun _ => ofInput_verdict) hinputs).mono_error hQ) ?_
  rintro t₃ ⟨ht₃, hinputFields⟩
  refine Verdict.bind_apply (ht₃.addScalars hQ hs hw' hscalars) ?_
  rintro t₄ ⟨ht₄, hcodecs⟩
  have hobjects : b.parts.objects = b.objectNames.map fun name => (name, b.fragments name) := rfl
  rw [lift_apply, hobjects, List.foldlM_map]
  refine ((ht₄.declareAll (fun t name => t.addObject (name, b.fragments name)) _ _
    (fun t name => by rw [bind_assoc]; rfl) (fun _ => merge_fragments_verdict) hall).mono
    ?_).mono_error hQ
  exact fun t ⟨ht, h⟩ => ⟨ht, hinterfaceFields, hinputFields, hcodecs, h⟩

end Scalars

theorem ofParts_verdict (hr : r.Deterministic) (hw : r.Reached w) :
    Verdict (fun t => b.Table b.declaredTypes t ∧
      (∀ i ∈ b.parts.interfaces, i.fields.declared.Nodup) ∧
      (∀ i ∈ b.parts.inputs, i.fields.declared.Nodup) ∧
      (∀ s ∈ b.parts.scalars, r.HasCodec w s.codec) ∧
      ∀ name ∈ b.objectNames, (b.fragments name).declared.Nodup)
      (b.Violation r w) ((Declarations.ofParts r b.parts) w).1 :=
  ofParts_verdict_of (fun _ h => h) (fun _ hs => scalar_reached hr hw hs) hw

end Table

end Blueprint

end GraphAssembly
