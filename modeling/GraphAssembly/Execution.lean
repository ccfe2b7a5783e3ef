import GraphAssembly.Execution.Coercion
import GraphAssembly.Execution.Collection
import GraphAssembly.Execution.Completion
import GraphAssembly.Response
import GraphAssembly.Routine.Rotation

/-!
# Execution

A request is executed from the root object of its operation. On every object the selected fields are
collected by response key, each is resolved and completed, and the results are put together in the
order of the keys. A failing field does not keep its siblings from running.

1. One field.
2. The selections of an object. What is selected gets smaller from an object to those below it.
3. A whole request. The siblings of a query run concurrently, if the configuration allows it; those
   of a mutation one after the other; the items of a list always concurrently.
-/

namespace GraphAssembly

/-- The fields selected on an object. -/
def Graph.groupsOn {ω : Type} (g : Graph ω) (o : ObjectNode ω) (selections : List Selection) :
    Groups :=
  Selection.collect (fun condition => g.isSubtype condition o.name) selections

namespace Executor

variable {ω : Type}

/-! ## Fields -/

def typenameField : String := "__typename"

/-- Coerces the arguments of a field and resolves it. -/
def resolveField (e : Executor ω) (node : FieldNode ω) (source : Json) (given : Dict Json)
    (p : Path) : Routine (Run ω) (Except FieldError Resolved) := do
  match ← Run.inUser (e.graph.coerceArguments node given).run with
  | .error error => pure (.error error)
  | .ok args => do
    let outcome ← Run.inWorld (node.resolve e.schema.registry source args).run
    Run.note (.resolved p outcome)
    pure outcome

/-- Resolves and completes a field that the object has. -/
def executeNode (e : Executor ω) (o : ObjectNode ω) (node : FieldNode ω) (source : Json)
    (f : SelectedField) (onObject : OnObject ω) (p : Path) : Routine (Run ω) Outcome := do
  match ← e.resolveField node source f.arguments p with
  | .error error => do
    Run.record error p
    pure (nullFor node.type)
  | .ok r => e.complete s!"{o.name}.{node.name}" onObject node.type r p

/-- The first field of a group stands for all of them; `onObject` executes what they select
together. -/
def executeField (e : Executor ω) (o : ObjectNode ω) (source : Json) (f : SelectedField)
    (onObject : OnObject ω) (p : Path) : Routine (Run ω) Outcome :=
  if f.name = typenameField then pure (some (.str o.name))
  else match Dict.get? o.fields f.name with
    | none => do
      Run.record (.unknownField f.name o.name) p
      pure (some .null)
    | some node => e.executeNode o node source f onObject p

theorem executeField_of_get? {e : Executor ω} {o : ObjectNode ω} {node : FieldNode ω}
    {f : SelectedField} (h : f.name ≠ typenameField) (hf : Dict.get? o.fields f.name = some node)
    (source : Json) (onObject : OnObject ω) (p : Path) :
    e.executeField o source f onObject p = e.executeNode o node source f onObject p := by
  rw [executeField, if_neg h, hf]

/-! ## Selections -/

/-- An object from its keys and their outcomes, in order. -/
def assembleObject (keys : List String) (outcomes : List Outcome) : Outcome :=
  (gather outcomes).map fun vs => .obj (keys.zip vs)

def execute (e : Executor ω) (selections : List Selection) : OnObject ω := fun o source p => do
  let groups := e.graph.groupsOn o selections
  let outcomes ← e.siblings <| groups.attach.map fun
    | ⟨(key, f :: rest), _collected⟩ =>
      e.executeField o source f (e.execute (Selection.nested (f :: rest))) (p.join (.key key))
    | ⟨(_, []), _⟩ => pure (some .null)
  pure (assembleObject (Dict.keys groups) outcomes)
termination_by Selection.sizeAll selections
decreasing_by exact Selection.sizeAll_lt_of_mem_collect _collected

/-- A field without siblings. -/
theorem execute_toSelection (e : Executor ω) (f : SelectedField) (o : ObjectNode ω) (source : Json)
    (p : Path) :
    e.execute [f.toSelection] o source p =
      e.siblings [e.executeField o source f (e.execute f.selections) (p.join (.key f.responseKey))]
        >>= fun outcomes => pure (assembleObject [f.responseKey] outcomes) := by
  have hnested : Selection.nested [f] = f.selections := List.append_nil _
  rw [execute, ← hnested]
  rfl

/-- The executor of an operation. -/
def forOperation (s : Schema ω) (operation : Operation) : Executor ω where
  schema := s
  siblings :=
    if operation = .query ∧ s.configuration.execution.concurrentFields then Routine.concurrently
    else Routine.inOrder
  items := Routine.concurrently

end Executor

/-! ## Requests -/

namespace Schema

variable {ω : Type}

/-- The root object of an operation, if the schema supports it. -/
def root? (s : Schema ω) : Operation → Option (ObjectNode ω)
  | .query => s.graph.object? s.graph.query
  | .mutation => s.graph.mutation.bind s.graph.object?

def unsupported (operation : Operation) : Response where
  errors := [Report.make s!"the schema does not support {operation.text} operations" none
    (some "UNSUPPORTED_OPERATION")]

/-- The response that a finished run leaves. -/
def respond (data : Outcome) (run : Run ω) : Response where
  data := some (data.getD .null)
  errors := run.errors.map fun l => l.error.report (some l.path)

/-- Runs selections on a root object with a given executor. -/
def runWith (e : Executor ω) (root : ObjectNode ω) (selections : List Selection) (w : World ω) :
    Outcome × Run ω :=
  (e.execute selections root .null []).run { world := w }

/-- Executes a request, and gives the response and the world it leaves. -/
def execute (s : Schema ω) (operation : Operation) (selections : List Selection) (w : World ω) :
    Response × World ω :=
  match s.root? operation with
  | none => (unsupported operation, w)
  | some root =>
    let (data, run) := runWith (Executor.forOperation s operation) root selections w
    (respond data run, run.world)

theorem execute_of_root {s : Schema ω} {operation : Operation} {root : ObjectNode ω}
    (h : s.root? operation = some root) (selections : List Selection) (w : World ω) :
    s.execute operation selections w =
      let run := runWith (Executor.forOperation s operation) root selections w
      (respond run.1 run.2, run.2.world) := by
  rw [execute, h]

end Schema

end GraphAssembly
