import GraphAssembly.Execution
import Mathlib.Data.List.Forall2

/-!
# Executions of the same shape

Two executors for the same graph differ in how they join siblings and items. A relation between
routines holds of their executions if it holds of the joins, of the code behind the fields, and of
routines that are put together from routines of which it holds.

1. `Executor.executeBy`: an execution that completes values in a way of its own.
2. `Compatible`, and `Congruence`, which is about siblings too.
3. Completion, fields, and the selections of an object.
-/

namespace GraphAssembly

variable {ω : Type}

/-- The schema with another configuration of its executions. -/
def Schema.withConcurrentFields (s : Schema ω) (concurrentFields : Bool) : Schema ω :=
  { s with configuration := { s.configuration with execution := { concurrentFields } } }

/-! ## Executions by a completion -/

/-- How a resolved value is completed at the type of a field. -/
abbrev Completion (ω : Type) :=
  String → OnObject ω → TypeRef → Resolved → Path → Routine (Run ω) Outcome

namespace Executor

def executeNodeBy (e : Executor ω) (k : Completion ω) (o : ObjectNode ω) (node : FieldNode ω)
    (source : Json) (f : SelectedField) (onObject : OnObject ω) (p : Path) :
    Routine (Run ω) Outcome := do
  match ← e.resolveField node source f.arguments p with
  | .error error => do
    Run.record error p
    pure (nullFor node.type)
  | .ok r => k s!"{o.name}.{node.name}" onObject node.type r p

def executeFieldBy (e : Executor ω) (k : Completion ω) (o : ObjectNode ω) (source : Json)
    (f : SelectedField) (onObject : OnObject ω) (p : Path) : Routine (Run ω) Outcome :=
  if f.name = typenameField then pure (some (.str o.name))
  else match Dict.get? o.fields f.name with
    | none => do
      Run.record (.unknownField f.name o.name) p
      pure (some .null)
    | some node => e.executeNodeBy k o node source f onObject p

/-- An execution in which values are completed by `k`. -/
def executeBy (e : Executor ω) (k : Completion ω) (selections : List Selection) : OnObject ω :=
  fun o source p => do
    let groups := e.graph.groupsOn o selections
    let outcomes ← e.siblings <| groups.attach.map fun
      | ⟨(key, f :: rest), _collected⟩ =>
        e.executeFieldBy k o source f (e.executeBy k (Selection.nested (f :: rest)))
          (p.join (.key key))
      | ⟨(_, []), _⟩ => pure (some .null)
    pure (assembleObject (Dict.keys groups) outcomes)
termination_by Selection.sizeAll selections
decreasing_by exact Selection.sizeAll_lt_of_mem_collect _collected

theorem executeBy_complete (e : Executor ω) (selections : List Selection) :
    e.executeBy e.complete selections = e.execute selections := by
  funext o source p
  rw [executeBy, execute]
  refine congrArg (fun routines => e.siblings routines >>= _) (List.map_congr_left ?_)
  rintro ⟨⟨key, fields⟩, collected⟩ _
  cases fields with
  | nil => rfl
  | cons f rest =>
    have := Selection.sizeAll_lt_of_mem_collect collected
    dsimp only
    rw [executeBy_complete e (Selection.nested (f :: rest))]
    rfl
termination_by Selection.sizeAll selections

end Executor

/-! ## Congruences -/

/-- The object type is one of the graph. -/
def Graph.Has (g : Graph ω) (o : ObjectNode ω) : Prop := ∃ name, g.object? name = some o

/-- A graph whose only type is the root of queries. -/
def Graph.ofQuery (fields : Dict (FieldNode ω)) : Graph ω where
  nodes := [("Query", .object { name := "Query", description := none, fields, implements := [] })]
  query := "Query"
  mutation := none

theorem Graph.node?_ofQuery {fields : Dict (FieldNode ω)} {name : String} {n : Node ω}
    (h : (Graph.ofQuery fields).node? name = some n) : ∃ o : ObjectNode ω,
      n = .object o ∧ o.fields = fields := by
  obtain ⟨_, rfl⟩ := Prod.mk.inj (List.mem_singleton.1 (Dict.mem_of_get? h))
  exact ⟨_, rfl, rfl⟩

theorem Graph.Has.fields_ofQuery {fields : Dict (FieldNode ω)} {o : ObjectNode ω}
    (h : (Graph.ofQuery fields).Has o) : o.fields = fields := by
  obtain ⟨name, ho⟩ := h
  obtain ⟨_, ⟨⟩, hfields⟩ := node?_ofQuery (object?_eq_some_iff.1 ho)
  exact hfields

theorem has_root {s : Schema ω} {operation : Operation} {root : ObjectNode ω}
    (h : s.root? operation = some root) : s.graph.Has root := by
  cases operation with
  | query => exact ⟨_, h⟩
  | mutation =>
    obtain ⟨name, -, h⟩ := Option.bind_eq_some_iff.1 h
    exact ⟨name, h⟩

/-- Relations between routines of two executors that are kept by what executors do with one
field. -/
structure Compatible (e e' : Executor ω)
    (R : ∀ α : Type, Routine (Run ω) α → Routine (Run ω) α → Prop) : Prop where
  graph : e'.graph = e.graph
  registry : e'.schema.registry = e.schema.registry
  pure {α : Type} (a : α) : R α (pure a) (pure a)
  bind {α β : Type} {r r' : Routine (Run ω) α} {f f' : α → Routine (Run ω) β} :
    R α r r' → (∀ a, R β (f a) (f' a)) → R β (r >>= f) (r' >>= f')
  record (error : FieldError) (p : Path) : R Unit (Run.record error p) (Run.record error p)
  note (event : Event) : R Unit (Run.note event) (Run.note event)
  coerce {o : ObjectNode ω} {node : FieldNode ω} (ho : e.graph.Has o)
    (hnode : node ∈ Dict.values o.fields) (given : Dict Json) :
    R _ (Run.inUser (e.graph.coerceArguments node given).run)
      (Run.inUser (e.graph.coerceArguments node given).run)
  resolve {o : ObjectNode ω} {node : FieldNode ω} (ho : e.graph.Has o)
    (hnode : node ∈ Dict.values o.fields) (source : Json) (args : Dict Json) :
    R _ (Run.inWorld (node.resolve e.schema.registry source args).run)
      (Run.inWorld (node.resolve e.schema.registry source args).run)
  serialize {name : String} {n : ScalarNode ω} {c : Codec ω}
    (hn : e.graph.node? name = some (.scalar n)) (hc : n.codec = some c) (v : Json) :
    R _ (Run.inUser (c.serialize v)) (Run.inUser (c.serialize v))
  typing {name : String} {n : Node ω} {y : Typing ω} (hn : e.graph.node? name = some n)
    (hy : n.typing? = some y) (static : Option String) (v : Json) :
    R _ (Run.inScope (y.resolve static v)) (Run.inScope (y.resolve static v))
  items {rs rs' : List (Routine (Run ω) Outcome)} :
    List.Forall₂ (R Outcome) rs rs' → R _ (e.items rs) (e'.items rs')

/-- The relations that are kept by all that executors do. -/
structure Congruence (e e' : Executor ω)
    (R : ∀ α : Type, Routine (Run ω) α → Routine (Run ω) α → Prop) : Prop
    extends Compatible e e' R where
  siblings {rs rs' : List (Routine (Run ω) Outcome)} :
    List.Forall₂ (R Outcome) rs rs' → R _ (e.siblings rs) (e'.siblings rs')

variable {e e' : Executor ω} {R : ∀ α : Type, Routine (Run ω) α → Routine (Run ω) α → Prop}
  {k k' : Completion ω}

namespace Compatible

variable (h : Compatible e e' R)

include h

theorem fail (error : FieldError) (p : Path) : R _ (Run.fail error p) (Run.fail error p) :=
  h.bind (h.record error p) fun _ => h.pure none

/-! ## Completion -/

theorem required {r r' : Routine (Run ω) Outcome} (label : String) (p : Path)
    (hr : R _ r r') : R _ (Executor.required label p r) (Executor.required label p r') := by
  refine h.bind hr fun out => ?_
  cases out with
  | none => exact h.pure none
  | some v =>
    dsimp only
    split
    · exact h.fail _ p
    · exact h.pure _

theorem absorbed {r r' : Routine (Run ω) Outcome} (hr : R _ r r') :
    R _ (Executor.absorbed r) (Executor.absorbed r') := by
  refine h.bind hr fun out => ?_
  cases out <;> exact h.pure _

section OnObject

variable {onObject onObject' : OnObject ω}
  (hobject : ∀ o v p, e.graph.Has o → R _ (onObject o v p) (onObject' o v p))

include hobject

theorem completeObject {o : ObjectNode ω} (ho : e.graph.Has o) (v : Json) (p : Path) :
    R _ (Executor.completeObject onObject o v p) (Executor.completeObject onObject' o v p) := by
  unfold Executor.completeObject
  split
  · exact hobject o v p ho
  · exact h.fail _ p

theorem completeAbstract {name : String} {n : Node ω} {y : Typing ω}
    (hn : e.graph.node? name = some n) (hy : n.typing? = some y) (t : TypeRef)
    (static : Option String) (v : Json) (p : Path) :
    R _ (e.completeAbstract onObject t y static v p)
      (e'.completeAbstract onObject' t y static v p) := by
  refine h.bind (h.typing hn hy static v) fun answer => ?_
  cases answer with
  | error error => exact h.fail error p
  | ok runtimeType =>
    refine h.bind (h.note _) fun _ => ?_
    rw [h.graph]
    split
    · rename_i o ho
      exact h.completeObject hobject ⟨runtimeType, ho⟩ v p
    · exact h.fail _ p

theorem completeNamed (t : TypeRef) (static : Option String) (v : Json) (p : Path) :
    R _ (e.completeNamed onObject t static v p) (e'.completeNamed onObject' t static v p) := by
  unfold Executor.completeNamed
  rw [h.graph]
  split
  · split
    · exact h.pure _
    · exact h.fail _ p
  · split
    · rename_i hn
      refine h.bind (h.serialize hn rfl v) fun answer => ?_
      cases answer with
      | error reason => exact h.fail _ p
      | ok out => exact h.bind (h.note _) fun _ => h.pure _
    · rename_i o hn
      exact h.completeObject hobject ⟨_, Graph.object?_eq_some_iff.2 hn⟩ v p
    · rename_i n hn
      exact h.completeAbstract hobject hn rfl t static v p
    · rename_i n hn
      exact h.completeAbstract hobject hn rfl t static v p
    · exact h.fail _ p

theorem completeSingle (t : TypeRef) (r : Resolved) (p : Path) :
    R _ (e.completeSingle onObject t r p) (e'.completeSingle onObject' t r p) := by
  cases r with
  | list rs => exact h.fail _ p
  | value v => exact h.completeNamed hobject t none v p
  | typed name v => exact h.completeNamed hobject t (some name) v p

omit hobject

theorem unlessNull {complete complete' : Resolved → Path → Routine (Run ω) Outcome}
    (hc : ∀ r p, R _ (complete r p) (complete' r p)) (r : Resolved) (p : Path) :
    R _ (Executor.unlessNull complete r p) (Executor.unlessNull complete' r p) := by
  refine h.bind (h.note _) fun _ => ?_
  split
  · exact h.pure _
  · exact hc r p

theorem completeList {complete complete' : Resolved → Path → Routine (Run ω) Outcome}
    (hc : ∀ r p, R _ (complete r p) (complete' r p)) (t : TypeRef) (r : Resolved) (p : Path) :
    R _ (e.completeList complete t r p) (e'.completeList complete' t r p) := by
  unfold Executor.completeList
  split
  · exact h.fail _ p
  · refine h.bind (h.items ?_) fun _ => h.pure _
    rw [List.forall₂_iff_get]
    simp only [List.length_mapIdx, List.get_eq_getElem, List.getElem_mapIdx, true_and]
    exact fun i _ _ => hc _ _

include hobject

theorem completeInner (label : String) (t : TypeRef) (r : Resolved) (p : Path) :
    R _ (e.completeInner label onObject t r p) (e'.completeInner label onObject' t r p) := by
  induction t using Executor.completeInner.induct generalizing r p with
  | case1 inner ih => exact h.unlessNull (fun r p => h.required label p (ih r p)) r p
  | case2 item ih =>
    exact h.unlessNull (h.completeList (fun r p => h.required label p (ih r p)) _) r p
  | case3 item _ ih =>
    cases item with
    | nonNull item => simp_all
    | _ => exact h.unlessNull (h.completeList (fun r p => h.absorbed (ih r p)) _) r p
  | case4 t h₁ h₂ h₃ =>
    cases t with
    | nonNull inner => exact absurd rfl (h₁ inner)
    | list item => exact absurd rfl (h₃ item)
    | _ => exact h.unlessNull (h.completeSingle hobject _) r p

theorem complete (label : String) (t : TypeRef) (r : Resolved) (p : Path) :
    R _ (e.complete label onObject t r p) (e'.complete label onObject' t r p) := by
  cases t with
  | nonNull inner => exact h.required label p (h.completeInner hobject label inner r p)
  | _ => exact h.absorbed (h.completeInner hobject label _ r p)

end OnObject

/-! ## Fields -/

theorem resolveField {o : ObjectNode ω} {node : FieldNode ω} (ho : e.graph.Has o)
    (hnode : node ∈ Dict.values o.fields) (source : Json) (given : Dict Json) (p : Path) :
    R _ (e.resolveField node source given p) (e'.resolveField node source given p) := by
  unfold Executor.resolveField
  rw [h.graph, h.registry]
  refine h.bind (h.coerce ho hnode given) fun coerced => ?_
  cases coerced with
  | error error => exact h.pure _
  | ok args =>
    refine h.bind (h.resolve ho hnode source args) fun outcome => ?_
    exact h.bind (h.note _) fun _ => h.pure outcome

variable {onObject onObject' : OnObject ω}
  (hobject : ∀ o v p, e.graph.Has o → R _ (onObject o v p) (onObject' o v p))

theorem executeFieldBy {o : ObjectNode ω} (ho : e.graph.Has o)
    (hk : ∀ node ∈ Dict.values o.fields, ∀ label r p,
      R _ (k label onObject node.type r p) (k' label onObject' node.type r p))
    (source : Json) (f : SelectedField) (p : Path) :
    R _ (e.executeFieldBy k o source f onObject p)
      (e'.executeFieldBy k' o source f onObject' p) := by
  unfold Executor.executeFieldBy
  split
  · exact h.pure _
  · split
    · exact h.bind (h.record _ p) fun _ => h.pure _
    · rename_i node hnode
      have hmem : node ∈ Dict.values o.fields :=
        List.mem_map_of_mem (f := Prod.snd) (Dict.mem_of_get? hnode)
      refine h.bind (h.resolveField ho hmem source f.arguments p) fun outcome => ?_
      cases outcome with
      | error error => exact h.bind (h.record error p) fun _ => h.pure _
      | ok r => exact hk node hmem _ r p

include hobject

theorem executeField {o : ObjectNode ω} (ho : e.graph.Has o) (source : Json) (f : SelectedField)
    (p : Path) :
    R _ (e.executeField o source f onObject p) (e'.executeField o source f onObject' p) :=
  h.executeFieldBy ho (fun node _ label r p => h.complete hobject label node.type r p) source f p

end Compatible

/-! ## Selections -/

namespace Congruence

variable (h : Congruence e e' R)

include h

theorem executeBy (hk : ∀ o node, e.graph.Has o → node ∈ Dict.values o.fields →
      ∀ onObject onObject' : OnObject ω,
        (∀ o v p, e.graph.Has o → R _ (onObject o v p) (onObject' o v p)) →
          ∀ label r p, R _ (k label onObject node.type r p) (k' label onObject' node.type r p))
    (selections : List Selection) {o : ObjectNode ω} (ho : e.graph.Has o) (source : Json)
    (p : Path) :
    R _ (e.executeBy k selections o source p) (e'.executeBy k' selections o source p) := by
  rw [Executor.executeBy, Executor.executeBy, h.graph]
  refine h.bind (h.siblings ?_) fun outcomes => h.pure _
  rw [List.forall₂_map_left_iff, List.forall₂_map_right_iff, List.forall₂_same]
  rintro ⟨⟨key, fields⟩, collected⟩ _
  cases fields with
  | nil => exact h.pure _
  | cons f rest =>
    have := Selection.sizeAll_lt_of_mem_collect collected
    exact h.executeFieldBy ho (fun node hnode => hk o node ho hnode _ _ fun o v p ho =>
      executeBy hk (Selection.nested (f :: rest)) ho v p) source f _
termination_by Selection.sizeAll selections

theorem execute (selections : List Selection) {o : ObjectNode ω} (ho : e.graph.Has o)
    (source : Json) (p : Path) :
    R _ (e.execute selections o source p) (e'.execute selections o source p) := by
  rw [← Executor.executeBy_complete, ← Executor.executeBy_complete]
  exact h.executeBy (fun _ node _ _ _ _ hobject label r p =>
    h.complete hobject label node.type r p) selections ho source p

end Congruence

end GraphAssembly
