import GraphAssembly.Execution
import GraphAssembly.Proofs.Routine.Joins
import Mathlib.Algebra.Group.Prod
import Mathlib.Algebra.Order.Group.Multiset

/-!
# How an execution may end

What is left when a position has been completed: the errors and events recorded on the way, and an
outcome. The rules follow the execution, one for each of its steps. The code behind the fields is
free to answer anything that it can answer at all, so the rules do not mention the state of the
world, and neither do they depend on the order in which siblings and items go on.

1. Traces and endings.
2. Completion: named types, lists, and any type.
3. Fields, and the selections of an object.
-/

namespace GraphAssembly

/-- The errors and the events of a run, in any order. -/
abbrev Trace := Multiset Located × Multiset Event

def Trace.error (e : FieldError) (p : Path) : Trace := ({⟨e, p⟩}, 0)

def Trace.event (e : Event) : Trace := (0, {e})

/-- The ways in which something may end. -/
abbrev Ending := Trace → Outcome → Prop

variable {ω : Type}

def Run.trace (s : Run ω) : Trace := (s.errors, s.journal)

/-- The ways in which the selections of a position may end on an object with some value. -/
abbrev ObjectEnding (ω : Type) := ObjectNode ω → Json → Path → Ending

/-! ## Completion -/

/-- What a position makes of what its content left. -/
inductive Settles (label : String) (p : Path) (d : Trace) : (marked : Bool) → Outcome → Ending
  | missing : Settles label p d true none d none
  | null : Settles label p d true (some .null) (d + .error (.nullValue label) p) none
  | value {v : Json} (h : v ≠ .null) : Settles label p d true (some v) d (some v)
  | absorbed : Settles label p d false none d (some .null)
  | kept (v : Json) : Settles label p d false (some v) d (some v)

/-- The content of a position ends and is settled. -/
def Settled (marked : Bool) (label : String) (p : Path) (content : Ending) : Ending :=
  fun d out => ∃ d' out', content d' out' ∧ Settles label p d' marked out' d out

inductive ObjectEnds (onObject : ObjectEnding ω) (o : ObjectNode ω) (v : Json) (p : Path) : Ending
  | notObject (h : v.isObject = false) :
    ObjectEnds onObject o v p (.error (.invalidValue o.name (.notObject v)) p) none
  | object {d : Trace} {out : Outcome} (h : v.isObject = true) (ho : onObject o v p d out) :
    ObjectEnds onObject o v p d out

/-- Whether values may be completed at the node. -/
def Node.isCompletable : Node ω → Bool
  | .scalar n => n.codec.isSome
  | .input _ => false
  | _ => true

inductive NamedEnds (g : Graph ω) (onObject : ObjectEnding ω) (t : TypeRef)
    (static : Option String) (v : Json) (p : Path) : Ending
  | builtin (ht : t.isBuiltin = true) (hv : t.accepts v = true) :
    NamedEnds g onObject t static v p 0 (some v)
  | notBuiltin (ht : t.isBuiltin = true) (hv : t.accepts v = false) :
    NamedEnds g onObject t static v p (.error (.invalidValue t.text (.notBuiltin v t)) p) none
  | serialized {n : ScalarNode ω} {c : Codec ω} {w : Json} (ht : t.isBuiltin = false)
    (hn : g.node? t.baseName = some (.scalar n)) (hc : n.codec = some c)
    (hw : ∃ u, (c.serialize v u).1 = .ok w) :
    NamedEnds g onObject t static v p (.event (.serialized p w)) (some w)
  | refused {n : ScalarNode ω} {c : Codec ω} {reason : String} (ht : t.isBuiltin = false)
    (hn : g.node? t.baseName = some (.scalar n)) (hc : n.codec = some c)
    (hw : ∃ u, (c.serialize v u).1 = .error reason) :
    NamedEnds g onObject t static v p (.error (.invalidValue t.text (.refused reason)) p) none
  | object {o : ObjectNode ω} {d : Trace} {out : Outcome} (ht : t.isBuiltin = false)
    (hn : g.node? t.baseName = some (.object o)) (ho : ObjectEnds onObject o v p d out) :
    NamedEnds g onObject t static v p d out
  | untyped {n : Node ω} {y : Typing ω} {e : FieldError} (ht : t.isBuiltin = false)
    (hn : g.node? t.baseName = some n) (hy : n.typing? = some y)
    (he : ∃ c, (y.resolve static v c).1 = .error e) :
    NamedEnds g onObject t static v p (.error e p) none
  | typed {n : Node ω} {y : Typing ω} {name : String} {o : ObjectNode ω} {d : Trace}
    {out : Outcome} (ht : t.isBuiltin = false) (hn : g.node? t.baseName = some n)
    (hy : n.typing? = some y) (hname : ∃ c, (y.resolve static v c).1 = .ok name)
    (hobject : g.object? name = some o) (ho : ObjectEnds onObject o v p d out) :
    NamedEnds g onObject t static v p (.event (.typed p name) + d) out
  | notObjectType {n : Node ω} {y : Typing ω} {name : String} (ht : t.isBuiltin = false)
    (hn : g.node? t.baseName = some n) (hy : n.typing? = some y)
    (hname : ∃ c, (y.resolve static v c).1 = .ok name) (hobject : g.object? name = none) :
    NamedEnds g onObject t static v p
      (.event (.typed p name) + .error (.invalidValue t.text (.notObjectType name)) p) none
  | notOutputType (ht : t.isBuiltin = false)
    (hn : ∀ n, g.node? t.baseName = some n → n.isCompletable = false) :
    NamedEnds g onObject t static v p (.error (.invalidValue t.text .notOutputType) p) none

inductive SingleEnds (g : Graph ω) (onObject : ObjectEnding ω) (t : TypeRef) :
    Resolved → Path → Ending
  | unexpectedList (rs : List Resolved) (p : Path) :
    SingleEnds g onObject t (.list rs) p (.error (.invalidValue t.text .unexpectedList) p) none
  | value {v : Json} {p : Path} {d : Trace} {out : Outcome}
    (h : NamedEnds g onObject t none v p d out) : SingleEnds g onObject t (.value v) p d out
  | typed {name : String} {v : Json} {p : Path} {d : Trace} {out : Outcome}
    (h : NamedEnds g onObject t (some name) v p d out) :
    SingleEnds g onObject t (.typed name v) p d out

inductive ListEnds (item : Resolved → Path → Ending) (t : TypeRef) : Resolved → Path → Ending
  | expectedList {r : Resolved} {p : Path} (h : Executor.items? r = none) :
    ListEnds item t r p (.error (.invalidValue t.text .expectedList) p) none
  | items {r : Resolved} {rs : List Resolved} {p : Path} {d : Trace} {outs : List Outcome}
    (h : Executor.items? r = some rs)
    (hd : Routine.Together (rs.mapIdx fun i r => item r (p.join (.index i))) d outs) :
    ListEnds item t r p d ((Executor.gather outs).map .arr)

inductive UnlessNull (content : Resolved → Path → Ending) : Resolved → Path → Ending
  | null (p : Path) : UnlessNull content .null p (.event (.completed p .null)) (some .null)
  | content {r : Resolved} {p : Path} {d : Trace} {out : Outcome} (h : r ≠ .null)
    (hd : content r p d out) : UnlessNull content r p (.event (.completed p r) + d) out

/-- The content of a position, before it is settled. -/
def InnerEnds (g : Graph ω) (onObject : ObjectEnding ω) (label : String) :
    TypeRef → Resolved → Path → Ending
  | .nonNull inner => UnlessNull fun r p =>
    Settled true label p (InnerEnds g onObject label inner r p)
  | .list (.nonNull item) => UnlessNull <| ListEnds
    (fun r p => Settled true label p (InnerEnds g onObject label item r p)) (.list (.nonNull item))
  | .list item => UnlessNull <| ListEnds
    (fun r p => Settled false label p (InnerEnds g onObject label item r p)) (.list item)
  | t => UnlessNull (SingleEnds g onObject t)

/-- The type without the mark that it may not be null. -/
def TypeRef.unmarked : TypeRef → TypeRef
  | .nonNull inner => inner
  | t => t

/-- A position of some type. -/
def Ends (g : Graph ω) (onObject : ObjectEnding ω) (label : String) (t : TypeRef) (r : Resolved)
    (p : Path) : Ending :=
  Settled t.isNonNull label p (InnerEnds g onObject label t.unmarked r p)

theorem TypeRef.sizeOf_unmarked_le (t : TypeRef) : sizeOf t.unmarked ≤ sizeOf t := by
  cases t <;> simp [unmarked]

theorem TypeRef.eq_named {t : TypeRef} (ht : t.isSingle = true) (hb : t.isBuiltin = false) :
    t = .named t.baseName := by
  cases t with
  | named name => rfl
  | nonNull _ | list _ => cases ht
  | _ => cases hb

/-- Along the contents of positions: the content of an item does without its mark. -/
theorem TypeRef.contentInduction {P : TypeRef → Prop} (nonNull : ∀ t, P t → P (.nonNull t))
    (list : ∀ item, P item.unmarked → P (.list item)) (single : ∀ t, t.isSingle = true → P t)
    (t : TypeRef) : P t := by
  match t with
  | .nonNull inner => exact nonNull inner (contentInduction nonNull list single inner)
  | .list item =>
    have := item.sizeOf_unmarked_le
    exact list item (contentInduction nonNull list single item.unmarked)
  | .named _ | .string | .int | .float | .id | .boolean => exact single _ rfl
termination_by sizeOf t
decreasing_by all_goals simp only [TypeRef.nonNull.sizeOf_spec, TypeRef.list.sizeOf_spec]; omega

theorem innerEnds_nonNull (g : Graph ω) (onObject : ObjectEnding ω) (label : String)
    (inner : TypeRef) : InnerEnds g onObject label (.nonNull inner) =
      UnlessNull fun r p => Settled true label p (InnerEnds g onObject label inner r p) := rfl

theorem innerEnds_single (g : Graph ω) (onObject : ObjectEnding ω) (label : String) {t : TypeRef}
    (ht : t.isSingle = true) :
    InnerEnds g onObject label t = UnlessNull (SingleEnds g onObject t) := by
  cases t with
  | nonNull _ | list _ => cases ht
  | _ => rfl

theorem innerEnds_list (g : Graph ω) (onObject : ObjectEnding ω) (label : String)
    (item : TypeRef) : InnerEnds g onObject label (.list item) =
      UnlessNull (ListEnds (Ends g onObject label item) (.list item)) := by
  cases item <;> rfl

/-! ## Fields and selections -/

inductive FieldEnds (s : Schema ω) (onObject : ObjectEnding ω) (o : ObjectNode ω) (source : Json)
    (f : SelectedField) (p : Path) : Ending
  | typename (h : f.name = Executor.typenameField) :
    FieldEnds s onObject o source f p 0 (some (.str o.name))
  | unknown (h : f.name ≠ Executor.typenameField) (hf : Dict.get? o.fields f.name = none) :
    FieldEnds s onObject o source f p (.error (.unknownField f.name o.name) p) (some .null)
  | badArguments {node : FieldNode ω} {e : FieldError} (h : f.name ≠ Executor.typenameField)
    (hf : Dict.get? o.fields f.name = some node)
    (he : ∃ u, ((s.graph.coerceArguments node f.arguments).run u).1 = .error e) :
    FieldEnds s onObject o source f p (.error e p) (Executor.nullFor node.type)
  | failed {node : FieldNode ω} {args : Dict Json} {e : FieldError}
    (h : f.name ≠ Executor.typenameField) (hf : Dict.get? o.fields f.name = some node)
    (hargs : ∃ u, ((s.graph.coerceArguments node f.arguments).run u).1 = .ok args)
    (he : Routine.Returns (node.resolve s.registry source args).run (.error e)) :
    FieldEnds s onObject o source f p (.event (.resolved p (.error e)) + .error e p)
      (Executor.nullFor node.type)
  | resolved {node : FieldNode ω} {args : Dict Json} {r : Resolved} {d : Trace} {out : Outcome}
    (h : f.name ≠ Executor.typenameField) (hf : Dict.get? o.fields f.name = some node)
    (hargs : ∃ u, ((s.graph.coerceArguments node f.arguments).run u).1 = .ok args)
    (hr : Routine.Returns (node.resolve s.registry source args).run (.ok r))
    (hd : Ends s.graph onObject s!"{o.name}.{node.name}" node.type r p d out) :
    FieldEnds s onObject o source f p (.event (.resolved p (.ok r)) + d) out

/-- The fields of an object, each at its response key. `onNested` stands for what the fields of a
group select together. -/
def GroupEnds (s : Schema ω) (onNested : List SelectedField → ObjectEnding ω) (o : ObjectNode ω)
    (source : Json) (p : Path) : String × List SelectedField → Ending
  | (key, f :: rest) => FieldEnds s (onNested (f :: rest)) o source f (p.join (.key key))
  | (_, []) => fun d out => d = 0 ∧ out = some .null

def Executes (s : Schema ω) (selections : List Selection) : ObjectEnding ω :=
  fun o source p d out =>
    let groups := s.graph.groupsOn o selections
    ∃ outs, Routine.Together (groups.attach.map fun
      | ⟨(key, f :: rest), _collected⟩ =>
        FieldEnds s (Executes s (Selection.nested (f :: rest))) o source f (p.join (.key key))
      | ⟨(_, []), _⟩ => fun d out => d = 0 ∧ out = some .null) d outs ∧
      out = Executor.assembleObject (Dict.keys groups) outs
termination_by Selection.sizeAll selections
decreasing_by exact Selection.sizeAll_lt_of_mem_collect _collected

theorem executes_iff {s : Schema ω} {selections : List Selection} {o : ObjectNode ω}
    {source : Json} {p : Path} {d : Trace} {out : Outcome} :
    Executes s selections o source p d out ↔
      ∃ outs, Routine.Together ((s.graph.groupsOn o selections).map
          (GroupEnds s (fun fields => Executes s (Selection.nested fields)) o source p)) d outs ∧
        out = Executor.assembleObject (Dict.keys (s.graph.groupsOn o selections)) outs := by
  rw [Executes]
  refine exists_congr fun outs => and_congr_left fun _ => iff_of_eq ?_
  refine congrArg (fun Qs => Routine.Together Qs d outs) ?_
  refine Eq.trans (List.map_congr_left fun group _ => ?_) List.attach_map_val
  obtain ⟨⟨key, fields⟩, _⟩ := group
  cases fields <;> rfl

end GraphAssembly
