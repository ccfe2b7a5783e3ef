import GraphAssembly.Proofs.Execution.Equivariance
import Mathlib.Logic.Equiv.Basic

/-!
# Recorded calls under renamed response keys

The code behind a schema may be made to write down each call of a middleware, a method or a codec,
with all that it is given, before the call is answered. What it has written after a request does not
depend on the response keys: the calls are the same ones in the same order.

1. `CallRecord`, and the recording of what a schema calls.
2. The statement about requests, and a request that swaps two response keys.
-/

namespace GraphAssembly

deriving instance DecidableEq for Arguments

/-- A call, with all that is handed over. -/
inductive CallRecord where
  | middleware (token : Token) (source : Json) (args : Dict Json) (options : Option Json)
  | method (field : String) (token : Token) (args : Arguments)
  | serialize (scalar : String) (v : Json)
  | parseValue (scalar : String) (v : Json)
  | parseLiteral (scalar : String) (v : Json)
deriving DecidableEq

variable {ω : Type}

/-! ## Recordings -/

section Recording

variable (record : CallRecord → ω → ω)

/-- The call is written down. -/
def CallRecord.entered (call : CallRecord) : Routine (Scope ω) Unit :=
  Routine.modify fun s => { s with user := record call s.user }

def Middleware.recording (t : Token) (m : Middleware ω) : Middleware ω where
  execute source args options := do
    CallRecord.entered record (.middleware t source args options)
    m.execute source args options

def Codec.recording (scalar : String) (c : Codec ω) : Codec ω where
  serialize v := do
    modify (record (.serialize scalar v))
    c.serialize v
  parseValue v := do
    modify (record (.parseValue scalar v))
    c.parseValue v
  parseLiteral v := do
    modify (record (.parseLiteral scalar v))
    c.parseLiteral v

/-- The instance of a token. -/
def Instance.recording (t : Token) (i : Instance ω) : Instance ω :=
  match i.content with
  | .middleware m => { i with content := .middleware (m.recording record t) }
  | _ => i

def Provider.recording (p : Provider ω) : Provider ω where
  token := p.token
  source := match p.source with
    | .value i => .value (i.recording record p.token)
    | .factory dependencies build => .factory dependencies fun ds => do
      pure ((← build ds).map (Instance.recording record p.token))

def Resolver.recording (r : Resolver ω) : Resolver ω :=
  { r with method := fun i args => do
      CallRecord.entered record (.method r.name r.instanceToken args)
      r.method i args }

def FieldNode.recording (f : FieldNode ω) : FieldNode ω :=
  { f with source := match f.source with
      | .property => .property
      | .method r bindings => .method (r.recording record) bindings }

def Node.recording : Node ω → Node ω
  | .scalar n => .scalar { n with codec := n.codec.map (Codec.recording record n.name) }
  | .object n => .object { n with fields := Dict.mapValues (FieldNode.recording record) n.fields }
  | n => n

/-- The same schema, with code that writes down its calls. -/
def Schema.recording (s : Schema ω) : Schema ω where
  graph := { s.graph with nodes := Dict.mapValues (Node.recording record) s.graph.nodes }
  registry := ⟨s.registry.providers.map (Provider.recording record)⟩
  configuration := s.configuration

/-- The same joins, over code that writes down its calls. -/
def Executor.recording (e : Executor ω) : Executor ω :=
  { e with schema := e.schema.recording record }

/-- The instances that are there already write down their calls as well. -/
def World.recording (w : World ω) : World ω :=
  let built := w.workshop.built.map fun x => (x.1, x.2.recording record x.1)
  { w with workshop := { w.workshop with built } }

end Recording

/-! ## Requests -/

theorem answer_equivariant {e : Executor ω} (he : e.Schedules) (hjoins : e.JoinsUniformly)
    (operation : Operation) {r : String → String} (hr : Function.Injective r)
    (selections : List Selection) (w : World ω) :
    let original := e.answer operation selections w
    let renamed := e.answer operation (Selection.renameAll r selections) w
    renamed.1.data = original.1.data.map ((e.layout operation selections w).rename r []) ∧
      renamed.1.errors = original.1.errors.map (Report.rename r) ∧
      renamed.2 = original.2 ∧
      ∀ record : CallRecord → ω → ω,
        ((e.recording record).answer operation (Selection.renameAll r selections)
          (w.recording record)).2 =
          ((e.recording record).answer operation selections (w.recording record)).2 := by
  have hrenamed := answer_renameAll he selections w hjoins operation hr
  refine ⟨?_, ?_, ?_, fun record => ?_⟩
  · rw [hrenamed]
    rfl
  · rw [hrenamed]
    rfl
  · rw [hrenamed]
  · rw [answer_renameAll (e := e.recording record) ⟨he.siblings, he.items⟩ selections _
      ⟨hjoins.siblings, hjoins.items⟩ operation hr]

/-- An injective map on the response keys of a request renames the keys of the objects in its data
and the keys in the paths of its errors, and changes nothing else: neither the world that the
request leaves, nor what is recorded of the calls on the way. This holds in whatever order siblings
and items go on, as long as it is not one of response keys. -/
theorem execute_equivariant (s : Schema ω) (operation : Operation) {r : String → String}
    (hr : Function.Injective r) (selections : List Selection) (w : World ω) :
    (let original := s.execute operation selections w
    let renamed := s.execute operation (Selection.renameAll r selections) w
    renamed.1.data = original.1.data.map ((s.layout operation selections w).rename r []) ∧
      renamed.1.errors = original.1.errors.map (Report.rename r) ∧
      renamed.2 = original.2 ∧
      ∀ record : CallRecord → ω → ω,
        ((s.recording record).execute operation (Selection.renameAll r selections)
          (w.recording record)).2 =
          ((s.recording record).execute operation selections (w.recording record)).2) ∧
    ∀ e : Executor ω, e.schema = s → e.Schedules → e.JoinsUniformly →
      let original := e.answer operation selections w
      let renamed := e.answer operation (Selection.renameAll r selections) w
      renamed.1.data = original.1.data.map ((e.layout operation selections w).rename r []) ∧
        renamed.1.errors = original.1.errors.map (Report.rename r) ∧
        renamed.2 = original.2 ∧
        ∀ record : CallRecord → ω → ω,
          ((e.recording record).answer operation (Selection.renameAll r selections)
            (w.recording record)).2 =
            ((e.recording record).answer operation selections (w.recording record)).2 := by
  constructor
  · simp only [Schema.execute_eq_answer]
    exact answer_equivariant (schedules_forOperation s operation)
      (joinsUniformly_forOperation s operation) operation hr selections w
  · rintro e - he hjoins
    exact answer_equivariant he hjoins operation hr selections w

section Depot

/-- A field that is read from the value of its object. -/
def reading (name : String) (type : TypeRef) : FieldNode (List CallRecord) where
  name
  description := none
  type
  arguments := []
  source := .property

/-- A crate is asked for at a gate. Its tag is a value of a custom scalar. -/
def depot : Schema (List CallRecord) where
  graph := {
    nodes := [
      ("Query", .object {
        name := "Query"
        description := none
        fields := [("crate", { reading "crate" (.nonNull (.named "Crate")) with
          source := .method {
            name := "crate"
            field := { typeName := "Crate" }
            instanceToken := ⟨"Keeper"⟩
            parameters := []
            bindings := []
            method := fun _ _ => pure (.ok (.value (.obj [("label", .str "glass"),
              ("code", .str "G7"), ("tag", .obj [("label", .bool true)])]))) }
            [{ token := ⟨"Gate"⟩ }] })]
        implements := [] }),
      ("Crate", .object {
        name := "Crate"
        description := none
        fields := [("label", reading "label" .string), ("code", reading "code" .int),
          ("tag", reading "tag" (.named "Tag"))]
        implements := [] }),
      ("Tag", .scalar {
        name := "Tag"
        description := none
        codec := some { serialize := fun v => pure (.ok v) } })]
    query := "Query"
    mutation := none }
  registry := ⟨[
    ⟨⟨"Keeper"⟩, .value ⟨0, .held "Keeper" .null⟩⟩,
    ⟨⟨"Gate"⟩, .value ⟨1, .middleware ⟨fun _ _ _ => pure (.ok (.bool true))⟩⟩⟩]⟩
  configuration := {}

theorem depot_equivariant :
    let r := Equiv.swap "label" "code"
    let selections := [.field "crate" none [] [.field "label" none [] [],
      .fragment "Crate" [.field "code" none [] [], .field "tag" none [] []]]]
    let w : World (List CallRecord) := ⟨{}, [], []⟩
    let original := depot.execute .query selections w
    let renamed := depot.execute .query (Selection.renameAll r selections) w
    Function.Injective r ∧
      (renamed.1.data = original.1.data.map ((depot.layout .query selections w).rename r []) ∧
      renamed.1.errors = original.1.errors.map (Report.rename r) ∧
      renamed.2 = original.2 ∧
      ∀ record : CallRecord → List CallRecord → List CallRecord,
        ((depot.recording record).execute .query (Selection.renameAll r selections)
          (w.recording record)).2 =
          ((depot.recording record).execute .query selections (w.recording record)).2) ∧
      let e := Executor.itemByItem depot
      let original := e.answer .query selections w
      let renamed := e.answer .query (Selection.renameAll r selections) w
      e.Schedules ∧ e.JoinsUniformly ∧
        renamed.1.data = original.1.data.map ((e.layout .query selections w).rename r []) ∧
        renamed.1.errors = original.1.errors.map (Report.rename r) ∧
        renamed.2 = original.2 ∧
        ∀ record : CallRecord → List CallRecord → List CallRecord,
          ((e.recording record).answer .query (Selection.renameAll r selections)
            (w.recording record)).2 =
            ((e.recording record).answer .query selections (w.recording record)).2 := by
  intro r selections w original renamed
  have hr : Function.Injective r := (Equiv.swap "label" "code").injective
  have he := schedules_itemByItem depot
  have hjoins := joinsUniformly_itemByItem depot
  obtain ⟨hexecute, hall⟩ := execute_equivariant depot .query hr selections w
  exact ⟨hr, hexecute, he, hjoins, hall _ rfl he hjoins⟩

/-- The tag keeps its keys, and the calls are those of the request for the label and the code. -/
example :
    let r := Equiv.swap "label" "code"
    let selections := [.field "crate" none [] [.field "label" none [] [],
      .fragment "Crate" [.field "code" none [] [], .field "tag" none [] []]]]
    let record : CallRecord → List CallRecord → List CallRecord := fun call calls => calls ++ [call]
    let renamed := (depot.recording record).execute .query (Selection.renameAll r selections)
      (World.recording record ⟨{}, [], []⟩)
    renamed.1.data = some (.obj [("crate", .obj [("code", .str "glass"), ("label", .null),
      ("tag", .obj [("label", .bool true)])])]) ∧
      renamed.1.errors.map (·.path) = [some [.key "crate", .key "label"]] ∧
      renamed.2.user = [.middleware ⟨"Gate"⟩ .null [] none,
        .method "crate" ⟨"Keeper"⟩ (Arguments.expand [] .null []),
        .serialize "Tag" (.obj [("label", .bool true)])] := by
  decide +kernel

end Depot

end GraphAssembly
