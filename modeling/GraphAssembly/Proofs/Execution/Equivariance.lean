import GraphAssembly.Proofs.Execution.Renaming
import GraphAssembly.Proofs.Execution.Serial
import GraphAssembly.Proofs.Routine.Lockstep

/-!
# Executions under renamed response keys

With renamed response keys an execution does the same, step by step, at the renamed paths. Response
keys occur in three places only: they group the selected fields, they lead to the positions below an
object, and they are the keys of that object when it is put together.

1. `Renames` and `RenamesAt`: routines that do the same under renamed keys.
2. Completion.
3. Fields.
4. The selections of an object, by induction on what is selected.
5. Requests.
-/

namespace GraphAssembly

open Routine Layout

variable {ω α α' : Type} {L : Layout ω} {r : String → String} {p : Path}

/-! ## Routines under renamed keys -/

/-- The layout goes by the object types that have been found so far. -/
def Layout.Follows (L : Layout ω) (s : Run ω) : Prop :=
  ∀ q name, .typed q name ∈ s.journal → L.runtimeType? q = some name

/-- The second routine does under renamed keys what the first one does. -/
def Renames (L : Layout ω) (r : String → String) (Q : α → α' → Prop) :
    Routine (Run ω) α → Routine (Run ω) α' → Prop :=
  Lockstep (Run.rename r) L.Follows Q

/-- The value that the second routine gives for the renamed position is that of the first one, with
the keys in it renamed. -/
def RenamesAt (L : Layout ω) (r : String → String) (p : Path) :
    Routine (Run ω) Outcome → Routine (Run ω) Outcome → Prop :=
  Renames L r fun out out' => out' = out.map (L.rename r p)

theorem renames_record (error : FieldError) (p : Path) :
    Renames L r (fun _ _ => True) (Run.record error p) (Run.record error (p.rename r)) := by
  refine lockstep_modify (fun s => ?_) fun _ _ => trivial
  simp [Run.rename, Located.rename]

theorem renames_note {P : Prop} (event : Event)
    (hP : ∀ s : Run ω, L.Follows { s with journal := event :: s.journal } → P) :
    Renames L r (fun _ _ => P) (Run.note event) (Run.note (event.rename r)) :=
  lockstep_modify (fun _ => rfl) hP

/-- Nothing that the code behind the fields is called with depends on a response key. -/
theorem renames_inWorld (x : Routine (World ω) α) :
    Renames L r Eq (Run.inWorld x) (Run.inWorld x) := by
  have hview (s : Run ω) : (s.rename r).world = s.world := rfl
  have hupdate (w : World ω) (s : Run ω) :
      (s.rename r).withWorld w = (s.withWorld w).rename r := rfl
  exact lockstep_zoom hview hupdate x

theorem renamesAt_pure (out : Outcome) :
    RenamesAt L r p (pure out) (pure (out.map (L.rename r p))) := .done rfl

theorem renamesAt_same {v : Json} (hv : L.rename r p v = v) :
    RenamesAt L r p (pure (some v)) (pure (some v)) := .done (congrArg some hv.symm)

theorem renamesAt_fail (error : FieldError) (p : Path) :
    RenamesAt L r p (Run.fail error p) (Run.fail error (p.rename r)) :=
  (renames_record error p).bind fun _ _ _ => renamesAt_pure none

theorem renamesAt_nullFor (t : TypeRef) :
    RenamesAt L r p (pure (Executor.nullFor t)) (pure (Executor.nullFor t)) := by
  unfold Executor.nullFor
  split
  · exact renamesAt_pure none
  · exact renamesAt_pure (some .null)

/-! ## Completion -/

section Nullability

variable {x x' : Routine (Run ω) Outcome}

theorem RenamesAt.required (h : RenamesAt L r p x x') (label : String) :
    RenamesAt L r p (Executor.required label p x) (Executor.required label (p.rename r) x') := by
  refine Lockstep.bind h fun out out' hout => ?_
  subst hout
  cases out with
  | none => exact renamesAt_pure none
  | some v =>
    simp only [Option.map_some, isNull_rename]
    split
    · exact renamesAt_fail _ p
    · exact renamesAt_pure (some v)

theorem RenamesAt.absorbed (h : RenamesAt L r p x x') :
    RenamesAt L r p (Executor.absorbed x) (Executor.absorbed x') := by
  refine Lockstep.bind h fun out out' hout => ?_
  subst hout
  cases out with
  | none => exact renamesAt_pure (some .null)
  | some v => exact renamesAt_pure (some v)

theorem renamesAt_unlessNull {complete complete' : Resolved → Path → Routine (Run ω) Outcome}
    {value : Resolved} (h : RenamesAt L r p (complete value p) (complete' value (p.rename r))) :
    RenamesAt L r p (Executor.unlessNull complete value p)
      (Executor.unlessNull complete' value (p.rename r)) := by
  refine (renames_note (.completed p value) fun _ _ => trivial).bind fun _ _ _ => ?_
  split
  · exact renamesAt_pure (some .null)
  · exact h

end Nullability

section OnObject

variable {e : Executor ω} {selections : List Selection} {onObject onObject' : OnObject ω}
  (hgraph : L.graph = e.graph)
  (hobject : ∀ o v p, L.HasObject p o selections → L.object? p = some o →
    RenamesAt L r p (onObject o v p) (onObject' o v (p.rename r)))

include hobject

/-! ### Named types -/

section Named

variable {t t' : TypeRef} (hslot : L.slot? p = some (.typed t' selections))

include hslot

/-- The position is that of an object of a named type. -/
theorem renamesAt_completeObject {name : String} (hname : t'.bare = .named name) {o : ObjectNode ω}
    (ho : L.objectAt? p name = some o) (v : Json) :
    RenamesAt L r p (Executor.completeObject onObject o v p)
      (Executor.completeObject onObject' o v (p.rename r)) := by
  unfold Executor.completeObject
  split
  · exact hobject o v p (hasObject_of_slot hslot hname ho)
      ((object?_of_slot hslot hname).trans ho)
  · exact renamesAt_fail _ p

include hgraph

theorem renamesAt_completeAbstract {name : String} (hname : t'.bare = .named name) {n : Node ω}
    {y : Typing ω} (hn : e.graph.node? name = some n) (hy : n.typing? = some y)
    (static : Option String) (v : Json) :
    RenamesAt L r p (e.completeAbstract onObject t y static v p)
      (e.completeAbstract onObject' t y static v (p.rename r)) := by
  refine (renames_inWorld _).bind fun answer answer' hanswer => ?_
  subst hanswer
  cases answer with
  | error error => exact renamesAt_fail error p
  | ok runtimeType =>
    have htyped := renames_note (L := L) (r := r) (.typed p runtimeType)
      fun s hs => hs p runtimeType List.mem_cons_self
    refine htyped.bind fun _ _ hfound => ?_
    split
    · rename_i o ho
      refine renamesAt_completeObject hobject hslot hname ?_ v
      rw [objectAt?_of_typing (hgraph ▸ hn) hy, hfound, Option.bind_some, hgraph, ho]
    · exact renamesAt_fail _ p

theorem renamesAt_completeNamed (hbare : t'.bare = t) (ht : t.isSingle = true)
    (static : Option String) (v : Json) :
    RenamesAt L r p (e.completeNamed onObject t static v p)
      (e.completeNamed onObject' t static v (p.rename r)) := by
  have hleaf (hnone : ∀ name, t = .named name → L.objectAt? p name = none) (w : Json) :
      L.rename r p w = w :=
    rename_leaf hslot (hbare ▸ ht) (fun name hname => hnone name (hbare.symm.trans hname)) w
  unfold Executor.completeNamed
  by_cases hb : t.isBuiltin = true
  · rw [if_pos hb, if_pos hb]
    split
    · refine renamesAt_same (hleaf (fun name hname => ?_) v)
      rw [hname] at hb
      cases hb
    · exact renamesAt_fail _ p
  · have hname : t = .named t.baseName := TypeRef.eq_named ht (by simpa using hb)
    rw [if_neg hb, if_neg hb]
    split
    · rename_i c hn
      refine (renames_inWorld _).bind fun answer answer' hanswer => ?_
      subst hanswer
      cases answer with
      | error reason => exact renamesAt_fail _ p
      | ok out =>
        refine (renames_note (.serialized p out) fun _ _ => trivial).bind fun _ _ _ => ?_
        refine renamesAt_same (hleaf (fun name hname' => ?_) out)
        obtain rfl := TypeRef.named.inj (hname'.symm.trans hname)
        simp only [objectAt?, hgraph, hn]
    · rename_i o hn
      refine renamesAt_completeObject hobject hslot (hbare.trans hname) ?_ v
      simp only [objectAt?, hgraph, hn]
    · rename_i n hn
      exact renamesAt_completeAbstract hgraph hobject hslot (hbare.trans hname) hn rfl static v
    · rename_i n hn
      exact renamesAt_completeAbstract hgraph hobject hslot (hbare.trans hname) hn rfl static v
    · exact renamesAt_fail _ p

theorem renamesAt_completeSingle (hbare : t'.bare = t) (ht : t.isSingle = true) (value : Resolved) :
    RenamesAt L r p (e.completeSingle onObject t value p)
      (e.completeSingle onObject' t value (p.rename r)) := by
  cases value with
  | list items => exact renamesAt_fail _ p
  | value v => exact renamesAt_completeNamed hgraph hobject hslot hbare ht none v
  | typed name v => exact renamesAt_completeNamed hgraph hobject hslot hbare ht (some name) v

end Named

/-! ### Lists -/

omit hobject

/-- The results of several positions put together. -/
theorem gather_of_pointwise {fs : List (Json → Json)} {outs outs' : List Outcome}
    (h : Pointwise (fs.map Option.map) outs outs') :
    Executor.gather outs' =
      (Executor.gather outs).map fun vs => List.zipWith (fun f v => f v) fs vs := by
  obtain ⟨hlength, rfl⟩ := h
  induction outs generalizing fs with
  | nil =>
    cases fs with
    | nil => rfl
    | cons f fs => cases hlength
  | cons out outs ih =>
    cases fs with
    | nil => cases hlength
    | cons f fs =>
      have htail : outs.length = (fs.map Option.map).length := by simpa using hlength
      cases out with
      | none => rfl
      | some v =>
        rw [List.map_cons, List.zipWith_cons_cons, Option.map_some, gather_some_cons, ih htail,
          gather_some_cons, Option.map_map, Option.map_map]
        rfl

theorem renamesAt_completeItems (hitems : Uniform e.items e.items)
    {complete complete' : Resolved → Path → Routine (Run ω) Outcome} (rs : List Resolved)
    (hc : ∀ (i : Nat) value, RenamesAt L r (p.join (.index i))
      (complete value (p.join (.index i))) (complete' value ((p.join (.index i)).rename r))) :
    RenamesAt L r p (e.completeItems complete rs p)
      (e.completeItems complete' rs (p.rename r)) := by
  have hsteps : AllInStep (Run.rename r) L.Follows
      ((rs.mapIdx fun i _ => L.rename r (p.join (.index i))).map Option.map)
      (rs.mapIdx fun i value => complete value (p.join (.index i)))
      (rs.mapIdx fun i value => complete' value ((p.rename r).join (.index i))) := by
    simp only [List.mapIdx_eq_zipIdx_map, List.map_map]
    refine allInStep_map fun x _ => ?_
    have := hc x.2 x.1
    rwa [Path.rename_join] at this
  refine (hitems hsteps).bind fun outs outs' houts => .done ?_
  rw [gather_of_pointwise houts]
  cases hvs : Executor.gather outs with
  | none => rfl
  | some vs =>
    obtain rfl := gather_eq_some_iff.1 hvs
    have hlength : vs.length = rs.length := by simpa using houts.length
    simp only [Option.map_some, rename_arr]
    refine congrArg (fun vs => some (Json.arr vs)) (List.ext_getElem ?_ fun i _ _ => ?_)
    · simp [hlength]
    · simp

theorem renamesAt_completeList (hitems : Uniform e.items e.items)
    {complete complete' : Resolved → Path → Routine (Run ω) Outcome} (t : TypeRef)
    (value : Resolved) (hc : ∀ (i : Nat) value, RenamesAt L r (p.join (.index i))
      (complete value (p.join (.index i))) (complete' value ((p.join (.index i)).rename r))) :
    RenamesAt L r p (e.completeList complete t value p)
      (e.completeList complete' t value (p.rename r)) := by
  unfold Executor.completeList
  split
  · exact renamesAt_fail _ p
  · exact renamesAt_completeItems hitems _ hc

/-! ### Any type -/

include hobject hgraph

theorem renamesAt_completeInner (hitems : Uniform e.items e.items) (label : String) (t : TypeRef)
    {t' : TypeRef} (hslot : L.slot? p = some (.typed t' selections)) (hbare : t'.bare = t.bare)
    (value : Resolved) :
    RenamesAt L r p (e.completeInner label onObject t value p)
      (e.completeInner label onObject' t value (p.rename r)) := by
  induction t using Executor.completeInner.induct generalizing p t' value with
  | case1 inner ih => exact renamesAt_unlessNull ((ih hslot hbare value).required label)
  | case2 item ih =>
    refine renamesAt_unlessNull (renamesAt_completeList hitems _ value fun i value => ?_)
    exact (ih (slot?_item hslot hbare i) rfl value).required label
  | case3 item _ ih =>
    cases item with
    | nonNull item => simp_all
    | _ =>
      refine renamesAt_unlessNull (renamesAt_completeList hitems _ value fun i value => ?_)
      exact (ih (slot?_item hslot hbare i) rfl value).absorbed
  | case4 t h₁ h₂ h₃ =>
    cases t with
    | nonNull inner => exact absurd rfl (h₁ inner)
    | list item => exact absurd rfl (h₃ item)
    | _ =>
      exact renamesAt_unlessNull
        (renamesAt_completeSingle hgraph hobject hslot hbare rfl value)

theorem renamesAt_complete (hitems : Uniform e.items e.items) (label : String) {t : TypeRef}
    (hslot : L.slot? p = some (.typed t selections)) (value : Resolved) :
    RenamesAt L r p (e.complete label onObject t value p)
      (e.complete label onObject' t value (p.rename r)) := by
  cases t with
  | nonNull inner =>
    exact (renamesAt_completeInner hgraph hobject hitems label inner hslot rfl value).required label
  | _ => exact (renamesAt_completeInner hgraph hobject hitems label _ hslot rfl value).absorbed

end OnObject

/-! ## Fields -/

theorem renames_resolveField (e : Executor ω) (node : FieldNode ω) (source : Json)
    (given : Dict Json) (p : Path) :
    Renames L r Eq (e.resolveField node source given p)
      (e.resolveField node source given (p.rename r)) := by
  refine (renames_inWorld _).bind fun coerced coerced' hcoerced => ?_
  subst hcoerced
  cases coerced with
  | error error => exact .done rfl
  | ok args =>
    refine (renames_inWorld _).bind fun outcome outcome' houtcome => ?_
    subst houtcome
    exact (renames_note (.resolved p outcome) fun _ _ => trivial).bind fun _ _ _ => .done rfl

section Fields

variable {e : Executor ω} {o : ObjectNode ω} {onObject onObject' : OnObject ω} {f : SelectedField}
  {rest : List SelectedField} (hgraph : L.graph = e.graph) (hitems : Uniform e.items e.items)
  (hobject : ∀ o v p, L.HasObject p o (Selection.nested (f :: rest)) → L.object? p = some o →
    RenamesAt L r p (onObject o v p) (onObject' o v (p.rename r)))
  (hslot : L.slot? p = Slot.ofGroup o (f :: rest))

include hgraph hitems hobject hslot

theorem renamesAt_executeField (source : Json) :
    RenamesAt L r p (e.executeField o source f onObject p)
      (e.executeField o source (f.rename r) onObject' (p.rename r)) := by
  have hsame : (f.rename r).name = f.name := rfl
  unfold Executor.executeField
  rw [hsame]
  by_cases hname : f.name = Executor.typenameField
  · rw [if_pos hname, if_pos hname]
    exact renamesAt_pure (some (.str o.name))
  · rw [if_neg hname, if_neg hname]
    rw [Slot.ofGroup, if_neg hname] at hslot
    cases hnode : Dict.get? o.fields f.name with
    | none => exact (renames_record _ p).bind fun _ _ _ => renamesAt_pure (some .null)
    | some node =>
      rw [hnode] at hslot
      refine (renames_resolveField e node source f.arguments p).bind fun outcome _ houtcome => ?_
      subst houtcome
      cases outcome with
      | error error =>
        refine (renames_record error p).bind fun _ _ _ => ?_
        exact renamesAt_nullFor node.type
      | ok value => exact renamesAt_complete hgraph hobject hitems _ hslot value

end Fields

/-! ## Selections -/

theorem zip_map_zipWith (f : String → Json → Json) (keys : List String) (vs : List Json) :
    (keys.map r).zip (List.zipWith (fun g v => g v) (keys.map f) vs) =
      (keys.zip vs).map fun x => (r x.1, f x.1 x.2) := by
  induction keys generalizing vs with
  | nil => rfl
  | cons key keys ih =>
    cases vs with
    | nil => rfl
    | cons v vs => exact congrArg _ (ih vs)

theorem assembleObject_of_pointwise {o : ObjectNode ω} (ho : L.object? p = some o)
    {keys : List String} {outs outs' : List Outcome}
    (h : Pointwise ((keys.map fun key => L.rename r (p.join (.key key))).map Option.map)
      outs outs') :
    Executor.assembleObject (keys.map r) outs' =
      (Executor.assembleObject keys outs).map (L.rename r p) := by
  unfold Executor.assembleObject
  rw [gather_of_pointwise h]
  cases Executor.gather outs with
  | none => rfl
  | some vs =>
    simp only [Option.map_some]
    rw [rename_obj (Option.isSome_of_eq_some ho), zip_map_zipWith]

section Execution

variable {e : Executor ω} (hgraph : L.graph = e.graph) (hitems : Uniform e.items e.items)
  (hr : Function.Injective r)

include hgraph hitems hr

/-- The fields under one key, where what they select together is executed under renamed keys. -/
theorem renamesAt_executeGroup {selections : List Selection} {o : ObjectNode ω}
    (hobject : L.HasObject p o selections) {key : String}
    (hkey : key ∈ firstOccurrences ((e.graph.selectedOn o selections).map (·.responseKey)))
    (hbelow : ∀ f rest, (key, f :: rest) ∈ e.graph.groupsOn o selections →
      ∀ o v p, L.HasObject p o (Selection.nested (f :: rest)) → L.object? p = some o →
        RenamesAt L r p (e.execute (Selection.nested (f :: rest)) o v p)
          (e.execute (Selection.renameAll r (Selection.nested (f :: rest))) o v (p.rename r)))
    (source : Json) :
    RenamesAt L r (p.join (.key key))
      (e.executeGroup o source (p.join (.key key))
        ((e.graph.selectedOn o selections).filter (·.responseKey = key)))
      (e.executeGroup o source ((p.rename r).join (.key (r key)))
        ((e.graph.selectedOn o (Selection.renameAll r selections)).filter
          (·.responseKey = r key))) := by
  obtain ⟨f, rest, hmem, hfields⟩ := Selection.exists_group hkey
  have hslot : L.slot? (p.join (.key key)) = Slot.ofGroup o (f :: rest) := by
    rw [hobject key, hgraph]
    exact congrArg (·.bind (Slot.ofGroup o))
      (Dict.get?_of_mem (Selection.distinct_collect _ selections) hmem)
  have hfield := renamesAt_executeField hgraph hitems (hbelow f rest hmem) hslot source
  rw [Path.rename_join, ← Selection.nested_map_rename] at hfield
  rw [Graph.selectedOn_renameAll, filter_map_rename hr]
  rw [Graph.selectedOn, hfields]
  exact hfield

/-- Induction on what is selected: a step for the fields of one object. -/
theorem renamesAt_execute (hsiblings : Uniform e.siblings e.siblings) (selections : List Selection)
    {o : ObjectNode ω} (source : Json) {p : Path} (hobject : L.HasObject p o selections)
    (ho : L.object? p = some o) :
    RenamesAt L r p (e.execute selections o source p)
      (e.execute (Selection.renameAll r selections) o source (p.rename r)) := by
  let keys := firstOccurrences ((e.graph.selectedOn o selections).map (·.responseKey))
  have hsteps := allInStep_map fun key (hkey : key ∈ keys) =>
    renamesAt_executeGroup hgraph hitems hr hobject hkey (fun f rest hmem o v p hobject ho => by
      have := Selection.sizeAll_lt_of_mem_collect hmem
      exact renamesAt_execute hsiblings (Selection.nested (f :: rest)) v hobject ho) source
  rw [Executor.execute_eq_siblings, Executor.execute_eq_siblings, Graph.keys_renameAll hr,
    List.map_map]
  refine (hsiblings hsteps).map fun outs outs' houts => ?_
  exact assembleObject_of_pointwise ho (by rwa [List.map_map])
termination_by Selection.sizeAll selections

end Execution

/-! ## Requests -/

/-- Routines in lockstep stay in lockstep where the executor joins them, so the order in which
siblings and items go on is not one of response keys. -/
structure Executor.JoinsUniformly (e : Executor ω) : Prop where
  siblings : Uniform e.siblings e.siblings
  items : Uniform e.items e.items

theorem joinsUniformly_forOperation (s : Schema ω) (operation : Operation) :
    (Executor.forOperation s operation).JoinsUniformly where
  siblings := by
    unfold Executor.forOperation
    dsimp only
    split
    · exact uniform_concurrently
    · exact uniform_inOrder
  items := uniform_concurrently

theorem joinsUniformly_itemByItem (s : Schema ω) : (Executor.itemByItem s).JoinsUniformly :=
  ⟨uniform_inPasses, uniform_inOrder⟩

theorem respond_rename (data : Outcome) (run : Run ω) :
    Schema.respond (data.map (L.rename r [])) (run.rename r) =
      L.renameResponse r (Schema.respond data run) := by
  have hdata : some ((data.map (L.rename r [])).getD .null) =
      (some (data.getD .null)).map (L.rename r []) := by
    cases data <;> rfl
  rw [Schema.respond, hdata, renameResponse, Schema.respond, Run.rename, List.map_map, List.map_map]
  rfl

section Requests

variable {e : Executor ω} (he : e.Schedules) {operation : Operation} {root : ObjectNode ω}
  (hroot : e.schema.root? operation = some root) (selections : List Selection) (w : World ω)

include hroot

theorem object?_root : (e.layout operation selections w).object? [] = some root := by
  obtain ⟨name, hobject, hslot⟩ := slot?_root hroot selections w
  rw [object?_of_slot hslot rfl]
  simp only [objectAt?, Executor.layout, Graph.object?_eq_some_iff.1 hobject]

include he

/-- What was found on the way is in the journal of the request. -/
theorem follows_layout {t : Run ω} {d : Trace}
    (h : (Schema.runWith e root selections w).2.trace = t.trace + d) :
    (e.layout operation selections w).Follows t := by
  intro q name hmem
  refine runtimeType?_of_journal he hroot selections w ?_
  have hjournal := congrArg Prod.snd h
  rw [Executor.journal, hroot, ← Multiset.mem_coe]
  refine (congrArg (Event.typed q name ∈ ·) hjournal).mpr ?_
  exact Multiset.mem_add.2 (.inl hmem)

theorem runWith_renameAll (hjoins : e.JoinsUniformly) (hr : Function.Injective r) :
    let original := Schema.runWith e root selections w
    Schema.runWith e root (Selection.renameAll r selections) w =
      (original.1.map ((e.layout operation selections w).rename r []), original.2.rename r) := by
  intro original
  have hadds := leaves_execute he.siblings.transparent he.items.transparent selections root .null []
    { world := w }
  have hsteps := renamesAt_execute (e := e) rfl hjoins.items hr hjoins.siblings selections .null
    (hasObject_root hroot selections w) (object?_root hroot selections w)
  obtain ⟨hdata, hrun⟩ := hsteps.run hadds fun _ _ => follows_layout he hroot selections w
  exact Prod.ext hdata hrun

omit hroot in
theorem answer_renameAll (hjoins : e.JoinsUniformly) (operation : Operation)
    (hr : Function.Injective r) :
    e.answer operation (Selection.renameAll r selections) w =
      ((e.layout operation selections w).renameResponse r (e.answer operation selections w).1,
        (e.answer operation selections w).2) := by
  unfold Executor.answer
  cases hroot : e.schema.root? operation with
  | none => rfl
  | some root =>
    dsimp only
    rw [runWith_renameAll he hroot selections w hjoins hr]
    exact Prod.ext (respond_rename _ _) rfl

end Requests

end GraphAssembly
