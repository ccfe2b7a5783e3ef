import GraphAssembly.Proofs.Assembly.Covariance
import GraphAssembly.Proofs.Execution.Internal
import GraphAssembly.Proofs.Routine.Abreast
import Mathlib.Data.Multiset.Bind

/-!
# Null in typed arrays

An array that comes with the hint that its items are of an object type passes the hint on to all of
them. A null among them is then not taken for null: it is completed as if it were of that type, and
leaves an error on the way to the null that the position gets.

1. `Run.Exceeds`: runs that differ in the errors they have recorded, and executions that add nothing
   to the difference.
2. `NullLeaves`: the errors of a null with a hint.
3. Typed arrays and the lists of their entries.
4. Fields of assembled graphs.
-/

namespace GraphAssembly

open Routine

variable {ω : Type}

/-! ## Runs that differ in their errors -/

/-- The first run has recorded the errors of the second one and some more, in any order. -/
def Run.Exceeds (d : Multiset Located) (s t : Run ω) : Prop :=
  s.world = t.world ∧ (s.errors : Multiset Located) = t.errors + d

theorem abreast_inWorld {α : Type} (r : Routine (World ω) α) :
    Abreast Run.Exceeds Eq 0 (Run.inWorld r) (Run.inWorld r) :=
  abreast_zoom (fun _ _ _ h => h.1) (fun _ _ _ _ h => ⟨rfl, h.2⟩) r

theorem abreast_record (e : FieldError) (p : Path) :
    Abreast (Run.Exceeds (ω := ω)) Eq 0 (Run.record e p) (Run.record e p) := by
  refine abreast_modify fun k s t h => ⟨h.1, ?_⟩
  change ((s.errors ++ [⟨e, p⟩] : List Located) : Multiset Located) = _
  rw [← Multiset.coe_add, h.2, ← Multiset.coe_add]
  abel

/-- Different events make no difference. -/
theorem abreast_note (event event' : Event) :
    Abreast (Run.Exceeds (ω := ω)) Eq 0 (Run.note event) (Run.note event') :=
  abreast_modify fun k _ _ h => (add_zero k).symm ▸ h

/-- The routines come to the same, and the first one does not record more than the second. -/
def RunsAbreast (α : Type) (r r' : Routine (Run ω) α) : Prop := Abreast Run.Exceeds Eq 0 r r'

theorem RunsAbreast.join {join : Join (Run ω) Outcome}
    (hjoin : ∀ xs : List (Pair (Run ω) (Run ω) Outcome Outcome (Multiset Located)),
      (∀ x ∈ xs, Abreast Run.Exceeds Eq x.adds x.left x.right) →
        Abreast Run.Exceeds (List.Forall₂ Eq) (xs.map Pair.adds).sum (join (xs.map Pair.left))
          (join (xs.map Pair.right)))
    {rs rs' : List (Routine (Run ω) Outcome)} (h : List.Forall₂ (RunsAbreast Outcome) rs rs') :
    RunsAbreast _ (join rs) (join rs') := by
  obtain ⟨xs, rfl, rfl, hsum, hxs⟩ := exists_pairs h
  have := hjoin xs hxs
  rwa [hsum, List.forall₂_eq_eq_eq] at this

/-- Whatever errors have been recorded before, an execution comes to the same. -/
theorem congruence_abreast (s : Schema ω) (operation : Operation) :
    Congruence (.forOperation s operation) (.forOperation s operation) RunsAbreast where
  graph := rfl
  registry := rfl
  pure _ := abreast_pure rfl
  bind h hf := h.bind_eq hf
  record := abreast_record
  note event := abreast_note event event
  coerce _ _ _ := abreast_inWorld _
  resolve _ _ _ _ := abreast_inWorld _
  serialize _ _ _ := abreast_inWorld _
  typing _ _ _ _ := abreast_inWorld _
  siblings h := by
    refine RunsAbreast.join (fun xs hxs => ?_) h
    unfold Executor.forOperation
    dsimp only
    split
    · exact abreast_concurrently hxs
    · exact abreast_inOrder hxs
  items := RunsAbreast.join fun _ => abreast_concurrently

/-! ## Null with a hint -/

/-- What the codec finds wrong with null: it gives null, or refuses it for one and the same reason.
It does nothing else. -/
inductive Codec.OnNull (c : Codec ω) : List ValueFault → Prop
  | kept (h : ∀ u, c.serialize .null u = (.ok .null, u)) : c.OnNull []
  | refused {reason : String} (h : ∀ u, c.serialize .null u = (.error reason, u)) :
    c.OnNull [.refused reason]

/-- The errors that null leaves at a position of the type, if it comes with the hint that it is of
an object type. -/
inductive NullLeaves (g : Graph ω) (hint : String) : TypeRef → List FieldError → Prop
  | builtin {t : TypeRef} (ht : t.isBuiltin = true) :
    NullLeaves g hint t [.invalidValue t.text (.notBuiltin .null t)]
  | custom {name : String} {n : ScalarNode ω} {c : Codec ω} {faults : List ValueFault}
    (hn : g.node? name = some (.scalar n)) (hc : n.codec = some c) (h : c.OnNull faults) :
    NullLeaves g hint (.named name) (faults.map (.invalidValue (TypeRef.named name).text))
  | object {name : String} {o : ObjectNode ω} (hn : g.node? name = some (.object o)) :
    NullLeaves g hint (.named name) [.invalidValue o.name (.notObject .null)]
  | possible {name : String} {n : Node ω} {y : Typing ω} {o : ObjectNode ω}
    (hn : g.node? name = some n) (hy : n.typing? = some y) (hhint : hint ∈ y.possibleTypes)
    (ho : g.object? hint = some o) :
    NullLeaves g hint (.named name) [.invalidValue o.name (.notObject .null)]
  | impossible {name : String} {n : Node ω} {y : Typing ω} (hn : g.node? name = some n)
    (hy : n.typing? = some y) (hhint : hint ∉ y.possibleTypes) :
    NullLeaves g hint (.named name) [.impossibleType hint y.abstractType]

theorem Codec.OnNull.unique [Nonempty ω] {c : Codec ω} {faults faults' : List ValueFault}
    (h : c.OnNull faults) (h' : c.OnNull faults') : faults = faults' := by
  obtain ⟨u⟩ := ‹Nonempty ω›
  cases h with
  | kept h | refused h =>
    cases h' with
    | kept h' | refused h' =>
      cases (h u).symm.trans (h' u) <;> rfl

theorem NullLeaves.unique [Nonempty ω] {g : Graph ω} {hint : String} {t : TypeRef}
    {errors errors' : List FieldError} (h : NullLeaves g hint t errors)
    (h' : NullLeaves g hint t errors') : errors = errors' := by
  cases h <;> cases h' <;> grind [TypeRef.isBuiltin, Node.typing?, Codec.OnNull.unique]

/-- A null leaves something at each position that values may be completed at. -/
theorem exists_nullLeaves {g : Graph ω} (hg : g.Sound) (hint : String) {t : TypeRef}
    (hsingle : t.isSingle = true) (ht : g.Admits .output t)
    (hcodec : ∀ n c, g.node? t.baseName = some (.scalar n) → n.codec = some c →
      ∃ faults, c.OnNull faults) : ∃ errors, NullLeaves g hint t errors := by
  cases t with
  | nonNull | list => cases hsingle
  | named name =>
    obtain ⟨n, hn, hcompletable⟩ := ht
    cases n with
    | scalar n =>
      obtain ⟨c, hc⟩ := Option.isSome_iff_exists.1 hcompletable
      obtain ⟨faults, h⟩ := hcodec n c hn hc
      exact ⟨_, .custom hn hc h⟩
    | object o => exact ⟨_, .object hn⟩
    | input => cases hcompletable
    | interface i =>
      by_cases hhint : hint ∈ i.typing.possibleTypes
      · obtain ⟨o, ho⟩ := hg.possible hn rfl hint hhint
        exact ⟨_, .possible hn rfl hhint ho⟩
      · exact ⟨_, .impossible hn rfl hhint⟩
    | union u =>
      by_cases hhint : hint ∈ u.typing.possibleTypes
      · obtain ⟨o, ho⟩ := hg.possible hn rfl hint hhint
        exact ⟨_, .possible hn rfl hhint ho⟩
      · exact ⟨_, .impossible hn rfl hhint⟩
  | _ => exact ⟨_, .builtin rfl⟩

section Named

variable {e : Executor ω} {onObject : OnObject ω} {name : String} {static : Option String}
  {v : Json} {p : Path}

theorem completeNamed_custom {n : ScalarNode ω} {c : Codec ω}
    (hn : e.graph.node? name = some (.scalar n)) (hc : n.codec = some c) :
    e.completeNamed onObject (.named name) static v p =
      Executor.completeCustom (.named name) c v p := by
  obtain ⟨_, _, _⟩ := n
  obtain rfl : _ = some c := hc
  simp [Executor.completeNamed, TypeRef.isBuiltin, TypeRef.baseName, hn]

theorem completeNamed_object {o : ObjectNode ω} (hn : e.graph.node? name = some (.object o)) :
    e.completeNamed onObject (.named name) static v p =
      Executor.completeObject onObject o v p := by
  simp [Executor.completeNamed, TypeRef.isBuiltin, TypeRef.baseName, hn]

theorem completeNamed_typing {n : Node ω} {y : Typing ω} (hn : e.graph.node? name = some n)
    (hy : n.typing? = some y) : e.completeNamed onObject (.named name) static v p =
      e.completeAbstract onObject (.named name) y static v p := by
  cases n with
  | interface | union =>
    cases hy
    simp [Executor.completeNamed, TypeRef.isBuiltin, TypeRef.baseName, hn]
  | _ => cases hy

end Named

section Nulls

variable {e : Executor ω} {hint : String} {t : TypeRef} {errors : List FieldError}
  {onObject : OnObject ω}

theorem advance_inUser {α : Type} (m : StateM ω α) (s : Run ω) :
    (Run.inUser m).advance s = (.done (m s.world.user).1,
      { s with world := s.world.withUser (m s.world.user).2 }) := rfl

theorem advance_inScope {α : Type} (m : StateM (Scope ω) α) (s : Run ω) :
    (Run.inScope m).advance s = (.done (m s.world.scope).1,
      { s with world := s.world.withScope (m s.world.scope).2 }) := rfl

/-- A hint decides on the type, and the code behind the graph is not asked. -/
theorem resolve_hint (y : Typing ω) (hint : String) (v : Json) (c : Scope ω) :
    y.resolve (some hint) v c = (y.accept (some hint), c) := rfl

theorem complete_single (ht : t.isSingle = true) (label : String) (r : Resolved) (p : Path) :
    e.complete label onObject t r p =
      Executor.absorbed (Executor.unlessNull (e.completeSingle onObject t) r p) := by
  cases t with
  | nonNull | list => cases ht
  | _ => rfl

variable (onObject)

theorem advance_completeNamed_null (h : NullLeaves e.graph hint t errors) (p : Path) (s : Run ω) :
    ∃ out journal, (out = none ∨ out = some .null) ∧
      (e.completeNamed onObject t (some hint) .null p).advance s =
        (.done out, { s with errors := s.errors ++ errors.map (⟨·, p⟩), journal }) := by
  cases h with
  | builtin ht =>
    rw [Executor.completeNamed, if_pos ht, if_neg (by simp)]
    exact ⟨none, s.journal, .inl rfl, rfl⟩
  | @custom name n c faults hn hc h =>
    rw [completeNamed_custom hn hc]
    have hanswer (answer : Except String Json)
        (h : c.serialize .null s.world.user = (answer, s.world.user)) :
        (Run.inUser (c.serialize .null)).advance s = (.done answer, s) := by
      rw [advance_inUser, h]
      rfl
    cases h with
    | kept h =>
      refine ⟨some .null, .serialized p .null :: s.journal, .inr rfl, ?_⟩
      refine (advance_bind s (Run.inUser (c.serialize .null)) _).trans ?_
      rw [hanswer _ (h _), List.map_nil, List.map_nil, List.append_nil]
      rfl
    | refused h =>
      refine ⟨none, s.journal, .inl rfl, ?_⟩
      refine (advance_bind s (Run.inUser (c.serialize .null)) _).trans ?_
      rw [hanswer _ (h _)]
      rfl
  | object hn =>
    rw [completeNamed_object hn]
    exact ⟨none, s.journal, .inl rfl, rfl⟩
  | @possible name n y o hn hy hhint ho =>
    rw [completeNamed_typing hn hy]
    refine ⟨none, .typed p hint :: s.journal, .inl rfl, ?_⟩
    refine (advance_bind s (Run.inScope (y.resolve (some hint) .null)) _).trans ?_
    rw [advance_inScope, resolve_hint, Typing.accept, if_pos hhint]
    dsimp only [Routine.bind]
    refine (advance_bind _ (Run.note (.typed p hint)) _).trans ?_
    rw [ho]
    rfl
  | @impossible name n y hn hy hhint =>
    rw [completeNamed_typing hn hy]
    refine ⟨none, s.journal, .inl rfl, ?_⟩
    refine (advance_bind s (Run.inScope (y.resolve (some hint) .null)) _).trans ?_
    rw [advance_inScope, resolve_hint, Typing.accept, if_neg hhint]
    rfl

theorem advance_complete_null (h : NullLeaves e.graph hint t errors) (ht : t.isSingle = true)
    (label : String) (p : Path) (s : Run ω) : ∃ journal,
      (e.complete label onObject t (.typed hint .null) p).advance s =
        (.done (some .null), { s with errors := s.errors ++ errors.map (⟨·, p⟩), journal }) := by
  let noted : Run ω := { s with journal := .completed p (.typed hint .null) :: s.journal }
  obtain ⟨out, journal, hout, hnamed⟩ :=
    advance_completeNamed_null onObject h p noted
  let content := Executor.unlessNull (e.completeSingle onObject t) (.typed hint .null) p
  have hcontent : content.advance s =
      (.done out, { s with errors := s.errors ++ errors.map (⟨·, p⟩), journal }) := hnamed
  refine ⟨journal, ?_⟩
  rw [complete_single ht]
  refine (advance_bind s content _).trans ?_
  rw [hcontent]
  rcases hout with rfl | rfl <;> rfl

/-- A null with a hint becomes null in the end, as one without does. -/
theorem abreast_complete_null (h : NullLeaves e.graph hint t errors) (ht : t.isSingle = true)
    (label : String) (p : Path) :
    Abreast Run.Exceeds Eq ((errors.map (⟨·, p⟩) : List Located) : Multiset Located)
      (e.complete label onObject t (.typed hint .null) p)
      (e.complete label onObject t .null p) := by
  intro k s s' hs
  obtain ⟨journal, hnull⟩ := advance_complete_null onObject h ht label p s
  rw [hnull, complete_single ht]
  refine .done rfl ⟨hs.1, ?_⟩
  rw [← Multiset.coe_add, hs.2, add_assoc]

end Nulls

/-! ## Arrays -/

/-- An entry of a typed array, as an item of its own: null stays null, and anything else gets the
hint. -/
def Resolved.hinted (hint : String) (v : Json) : Resolved :=
  if v.isNull then .null else .typed hint v

/-- The errors that are left at the null entries of an array. -/
def nullErrors (errors : List FieldError) (p : Path) (vs : List Json) : List Located :=
  (vs.mapIdx fun i v => if v.isNull then errors.map (⟨·, p.join (.index i)⟩) else []).flatten

theorem nullErrors_eq_nil_iff {errors : List FieldError} {p : Path} {vs : List Json} :
    nullErrors errors p vs = [] ↔ .null ∉ vs ∨ errors = [] := by
  have hentry (i : Nat) (hi : i < vs.length) :
      ((if vs[i].isNull then errors.map (⟨·, p.join (.index i)⟩) else [] : List Located) = [] ↔
        vs[i] ≠ .null ∨ errors = []) := by
    by_cases hv : vs[i] = .null <;> simp [hv]
  rw [nullErrors, List.flatten_eq_nil_iff, List.forall_mem_iff_forall_getElem]
  simp only [List.length_mapIdx, List.getElem_mapIdx]
  constructor
  · intro h
    by_cases herrors : errors = []
    · exact .inr herrors
    · refine .inl fun hnull => ?_
      obtain ⟨i, hi, hv⟩ := List.getElem_of_mem hnull
      exact ((hentry i hi).1 (h i hi)).elim (absurd hv) herrors
  · intro h i hi
    refine (hentry i hi).2 (h.imp_left fun hnull hv => ?_)
    exact hnull (List.mem_of_getElem hv)

section Indices

variable {α β γ : Type} (xs : List α)

theorem map_mapIdx (f : Nat → α → β) (g : β → γ) :
    (xs.mapIdx f).map g = xs.mapIdx fun i x => g (f i x) := by
  simp [List.mapIdx_eq_zipIdx_map]

theorem mapIdx_map (f : α → β) (g : Nat → β → γ) :
    (xs.map f).mapIdx g = xs.mapIdx fun i x => g i (f x) := by
  refine List.ext_getElem (by simp) ?_
  simp

end Indices

section Lists

variable {s : Schema ω} {operation : Operation} {hint label : String} {t item : TypeRef}
  {errors : List FieldError} {onObject : OnObject ω}

theorem completeInner_list {e : Executor ω} (hitem : item.isSingle = true) :
    e.completeInner label onObject (.list item) =
      Executor.unlessNull (e.completeList (e.complete label onObject item) (.list item)) := by
  cases item with
  | nonNull | list => cases hitem
  | _ => rfl

variable (operation label)
  (hobject : ∀ o v p, s.graph.Has o → RunsAbreast _ (onObject o v p) (onObject o v p))
  (hitem : item.isSingle = true) (h : NullLeaves s.graph hint item errors)
  (vs : List Json) (p : Path)

include hobject hitem h

theorem abreast_items :
    let e := Executor.forOperation s operation
    let complete (i : Nat) (r : Resolved) := e.complete label onObject item r (p.join (.index i))
    Abreast Run.Exceeds (List.Forall₂ Eq) (nullErrors errors p vs : Multiset Located)
      (e.items ((vs.map (.typed hint)).mapIdx complete))
      (e.items ((vs.map (.hinted hint)).mapIdx complete)) := by
  intro e complete
  let pair (i : Nat) (v : Json) : Pair (Run ω) (Run ω) Outcome Outcome (Multiset Located) := {
    left := complete i (.typed hint v)
    right := complete i (.hinted hint v)
    adds := ((if v.isNull then errors.map (⟨·, p.join (.index i)⟩) else [] : List Located)) }
  have hpairs : ∀ x ∈ vs.mapIdx pair, Abreast Run.Exceeds Eq x.adds x.left x.right := by
    intro x hx
    obtain ⟨i, hi, rfl⟩ := List.mem_mapIdx.1 hx
    dsimp only [pair]
    rw [Resolved.hinted]
    split
    · rename_i hv
      rw [Json.isNull_eq_true.1 hv]
      exact abreast_complete_null (e := e) onObject h hitem label _
    · exact (congruence_abreast s operation).complete hobject label item _ _
  have hsum : ((vs.mapIdx pair).map Pair.adds).sum = (nullErrors errors p vs : Multiset _) := by
    rw [nullErrors, ← Multiset.coe_join, Multiset.join, Multiset.sum_coe, map_mapIdx, map_mapIdx]
  have hjoin := abreast_concurrently hpairs
  rw [hsum, map_mapIdx, map_mapIdx] at hjoin
  rw [mapIdx_map, mapIdx_map]
  exact hjoin

theorem abreast_completeInner :
    let e := Executor.forOperation s operation
    Abreast Run.Exceeds Eq (nullErrors errors p vs : Multiset Located)
      (e.completeInner label onObject (.list item) (.typed hint (.arr vs)) p)
      (e.completeInner label onObject (.list item) (.list (vs.map (.hinted hint))) p) := by
  intro e
  rw [completeInner_list hitem]
  refine (abreast_note _ _).bind_eq fun _ => ?_
  refine (abreast_items operation label hobject hitem h vs p).map fun outs outs' houts => ?_
  rw [List.forall₂_eq_eq_eq] at houts
  rw [houts]

/-- The nulls of a typed array leave their errors, and other than that it is completed as the list
of its entries. -/
theorem abreast_complete_array (ht : t.unmarked = .list item) :
    let e := Executor.forOperation s operation
    Abreast Run.Exceeds Eq (nullErrors errors p vs : Multiset Located)
      (e.complete label onObject t (.typed hint (.arr vs)) p)
      (e.complete label onObject t (.list (vs.map (.hinted hint))) p) := by
  intro e
  have hinner := abreast_completeInner operation label hobject hitem h vs p
  rw [← add_zero (nullErrors errors p vs : Multiset Located)]
  cases t with
  | nonNull inner =>
    obtain rfl : inner = .list item := ht
    refine hinner.bind fun out out' hout => ?_
    subst hout
    cases out with
    | none => exact abreast_pure rfl
    | some v =>
      dsimp only
      split
      · exact (congruence_abreast s operation).fail _ p
      · exact abreast_pure rfl
  | list =>
    obtain rfl := TypeRef.list.inj ht
    refine hinner.bind fun out out' hout => ?_
    subst hout
    cases out <;> exact abreast_pure rfl
  | _ => cases ht

end Lists

/-! ## Fields of assembled graphs -/

theorem TypeRef.unmarked_ofSpec (spec : FieldSpec) :
    (ofSpec spec).unmarked = Blueprint.unmarkedOf spec := by
  have hspec : ofSpec spec = if spec.nullable then Blueprint.unmarkedOf spec
      else .nonNull (Blueprint.unmarkedOf spec) := rfl
  have hbase := Blueprint.isNonNull_unmarkedOf spec
  rw [hspec]
  split
  · cases h : Blueprint.unmarkedOf spec with
    | nonNull =>
      rw [h] at hbase
      cases hbase
    | _ => rfl
  · rfl

/-- The items of a list are never lists, and their types are not marked. -/
theorem TypeRef.isSingle_of_ofSpec {spec : FieldSpec} {item : TypeRef}
    (h : (ofSpec spec).unmarked = .list item) : item.isSingle = true := by
  have hname := isSingle_ofName spec.typeName
  rw [unmarked_ofSpec, Blueprint.unmarkedOf] at h
  split at h
  · exact TypeRef.list.inj h ▸ hname
  · rw [h] at hname
    cases hname

section Assembled

variable {b : Blueprint ω} {r : Registry ω} {c : Configuration} {w : Workshop ω} {s : Schema ω}

/-- A typed array gives what the list of its entries gives, and the errors of both are the same but
for those that the nulls of the array leave. -/
theorem typed_array_completed (h : ((b.assemble r c) w).1 = .ok s.graph) {object field : String}
    {o : ObjectNode ω} {node : FieldNode ω} {item : TypeRef} (ho : s.graph.object? object = some o)
    (hf : Dict.get? o.fields field = some node) (ht : node.type.unmarked = .list item)
    (hcodec : ∀ n c, s.graph.node? item.baseName = some (.scalar n) → n.codec = some c →
      ∃ faults, c.OnNull faults) (operation : Operation) (label : String)
    (selections : List Selection) (hint : String) (vs : List Json) (p : Path) (run : Run ω) :
    let e := Executor.forOperation s operation
    let typed := (e.complete label (e.execute selections) node.type
      (.typed hint (.arr vs)) p).run run
    let plain := (e.complete label (e.execute selections) node.type
      (.list (vs.map (.hinted hint))) p).run run
    ∃ errors, NullLeaves s.graph hint item errors ∧ typed.1 = plain.1 ∧
      typed.2.world = plain.2.world ∧
      typed.2.errors.Perm (plain.2.errors ++ nullErrors errors p vs) ∧
      (typed.2.errors.Perm plain.2.errors ↔ .null ∉ vs ∨ errors = []) := by
  intro e typed plain
  obtain ⟨t, ht', hg⟩ := Blueprint.exists_linked h
  have hassembled : b.Assembled c s.graph t := .of_link ht' hg
  have hadmits : s.graph.Admits .output item := by
    have := (hassembled.sound.object ho node (mem_values.2 ⟨_, Dict.mem_of_get? hf⟩)).type
    rwa [← Graph.admits_unmarked, ht] at this
  have hitem : item.isSingle = true := by
    obtain ⟨-, rfl⟩ := hassembled.eq_node_of_object? ho
    obtain ⟨f, -, -, hnode⟩ := Fragments.exists_field_of_node (Dict.mem_of_get? hf)
    exact TypeRef.isSingle_of_ofSpec (hnode.type ▸ ht)
  obtain ⟨errors, herrors⟩ := exists_nullLeaves hassembled.sound hint hitem hadmits hcodec
  have hobject (o : ObjectNode ω) (v : Json) (p : Path) (ho : s.graph.Has o) :
      RunsAbreast _ (e.execute selections o v p) (e.execute selections o v p) :=
    (congruence_abreast s operation).execute selections ho v p
  have habreast := abreast_complete_array operation label hobject hitem herrors vs p ht
  obtain ⟨hout, hworld, hcount⟩ := habreast.run (k := 0) (s := run) (t := run) ⟨rfl, by simp⟩
  rw [zero_add, Multiset.coe_add, Multiset.coe_eq_coe] at hcount
  refine ⟨errors, herrors, hout, hworld, hcount, ?_⟩
  rw [← nullErrors_eq_nil_iff (p := p)]
  constructor
  · intro hperm
    have := (hperm.symm.trans hcount).length_eq
    rw [List.length_append] at this
    exact List.eq_nil_of_length_eq_zero (Nat.left_eq_add.1 this)
  · intro hnil
    rwa [hnil, List.append_nil] at hcount

/-- A byline of two authors, one of whom is not known. -/
def byline : Blueprint Unit where
  rootQuery := "Query"
  components := [
    .definition { name := "Author", fields := .ofList [("name", { typeName := "String" })] },
    .implementation {
      name := "Query"
      instanceToken := ⟨"Desk"⟩
      resolvers := .ofList [("authors", {
        name := "authors"
        field := { typeName := "Author", list := true, nullable := true }
        instanceToken := ⟨"Desk"⟩
        parameters := []
        bindings := []
        method := fun _ _ =>
          pure (.ok (.typed "Author" (.arr [.obj [("name", .str "Ada")], .null]))) })] }]

def editor : Registry Unit where
  providers := [⟨⟨"Desk"⟩, .value ⟨0, .held "Desk" .null⟩⟩]

/-- The unknown author leaves an error in the typed array that a null in a list does not leave. -/
theorem byline_leaves_error : ∃ g o node, ((byline.assemble editor {}) ⟨[], ()⟩).1 = .ok g ∧
    g.object? "Query" = some o ∧ Dict.get? o.fields "authors" = some node ∧
    node.type.unmarked = .list (.named "Author") ∧
    let e := Executor.forOperation ⟨g, editor, {}⟩ .query
    let array : List Json := [.obj [("name", .str "Ada")], .null]
    let complete r := (e.complete "Query.authors" (e.execute [.field "name" none [] []]) node.type r
      [.key "authors"]).run { world := ⟨{}, [], ()⟩ }
    let typed := complete (.typed "Author" (.arr array))
    let plain := complete (.list (array.map (.hinted "Author")))
    typed.1 = plain.1 ∧
    typed.2.errors.Perm (plain.2.errors ++
      [⟨.invalidValue "Author" (.notObject .null), [.key "authors", .index 1]⟩]) ∧
    ¬ typed.2.errors.Perm plain.2.errors := by
  obtain ⟨g, o, node, hg, ho, hf, ht, author, hauthor, hname⟩ : ∃ g o node,
      ((byline.assemble editor {}) ⟨[], ()⟩).1 = .ok g ∧
      g.object? "Query" = some o ∧ Dict.get? o.fields "authors" = some node ∧
      node.type.unmarked = .list (.named "Author") ∧
      ∃ author, g.node? "Author" = some (.object author) ∧ author.name = "Author" :=
    ⟨_, _, _, rfl, rfl, rfl, rfl, _, rfl, rfl⟩
  have hcodec (n : ScalarNode Unit) (c : Codec Unit) (hn : g.node? "Author" = some (.scalar n)) :
      n.codec = some c → ∃ faults, c.OnNull faults := by
    cases hauthor.symm.trans hn
  obtain ⟨errors, herrors, hout, -, hperm, hiff⟩ := typed_array_completed (s := ⟨g, editor, {}⟩)
    hg ho hf ht hcodec .query "Query.authors" [.field "name" none [] []] "Author"
    [.obj [("name", .str "Ada")], .null] [.key "authors"] { world := ⟨{}, [], ()⟩ }
  obtain rfl := herrors.unique (.object hauthor)
  rw [hname] at hperm
  refine ⟨g, o, node, hg, ho, hf, ht, hout, hperm, fun h => ?_⟩
  rcases hiff.1 h with hnull | hnil
  · exact hnull (.tail _ (.head _))
  · cases hnil

/-- One of the authors is not known, and instead of his name the response has an error. -/
theorem byline_reports_author :
    ∃ g root, ((byline.assemble editor {}) ⟨[], ()⟩).1 = .ok g ∧
      Schema.root? ⟨g, editor, {}⟩ .query = some root ∧
      let (out, run) := Schema.runWith (Executor.forOperation ⟨g, editor, {}⟩ .query) root
        [.field "authors" none [] [.field "name" none [] []]] ⟨{}, [], ()⟩
      out = some (.obj [("authors", .arr [.obj [("name", .str "Ada")], .null])]) ∧
      run.errors =
        [⟨.invalidValue "Author" (.notObject .null), [.key "authors", .index 1]⟩] := by
  refine ⟨_, _, rfl, rfl, ?_⟩
  decide +kernel

end Assembled

end GraphAssembly
