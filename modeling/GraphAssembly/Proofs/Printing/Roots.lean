import GraphAssembly.Proofs.Printing.Names

/-!
# Root operations of a printed graph

By convention a document that does not list its root operations has the object types `Query` and
`Mutation` for them, as far as they are defined.

1. The root operations of a document.
2. Which of them the document of a graph has.
3. The statement, and a graph without mutations whose text has them.
-/

namespace GraphAssembly

open Sdl

variable {ω : Type}

/-! ## Documents -/

namespace Sdl

def Definition.operations? : Definition → Option (Dict String)
  | .schema operations => some operations
  | _ => none

/-- Whether the definition is that of the object type. -/
def Definition.isObject (type : String) : Definition → Bool
  | .object _ name _ _ => name = type
  | _ => false

/-- The object type for an operation: the one that is listed, or the one with the usual name if
nothing is listed. -/
def root? (operation usual : String) (ds : List Definition) : Option String :=
  match ds.findSome? Definition.operations? with
  | some operations => Dict.get? operations operation
  | none => if ds.any (Definition.isObject usual) then some usual else none

def queryRoot? : List Definition → Option String := root? "query" "Query"

def mutationRoot? : List Definition → Option String := root? "mutation" "Mutation"

end Sdl

/-! ## Graphs -/

theorem Node.operations?_toDefinition (n : Node ω) : n.toDefinition.operations? = none := by
  cases n <;> rfl

namespace Graph

theorem findSome?_operations (g : Graph ω) :
    g.document.findSome? Definition.operations? = g.listedRoots := by
  have htypes : (((Dict.values g.nodes).filter isPrinted).map Node.toDefinition).findSome?
      Definition.operations? = none := by
    rw [List.findSome?_eq_none_iff]
    intro d hd
    obtain ⟨n, -, rfl⟩ := List.mem_map.1 hd
    exact n.operations?_toDefinition
  rw [document, List.findSome?_append, htypes, Option.or_none]
  cases g.listedRoots <;> rfl

/-- The root that a document gives for an operation, when nothing is listed. -/
theorem root?_document {g : Graph ω} (h : g.listedRoots = none) (operation usual : String) :
    root? operation usual g.document =
      if ((Dict.values g.nodes).filter isPrinted).any (·.toDefinition.isObject usual) then
        some usual else none := by
  rw [root?, findSome?_operations, h, document, h, Option.map_none, Option.toList_none,
    List.nil_append, List.any_map]
  rfl

end Graph

namespace Blueprint

variable {b : Blueprint ω} {r : Registry ω} {w : Workshop ω} {c : Configuration} {g : Graph ω}

/-- An object type is defined in the document just if it is one of the graph. -/
theorem Assembled.any_isObject_iff {t : Declarations ω} (h : b.Assembled c g t) (name : String) :
    ((Dict.values g.nodes).filter Graph.isPrinted).any (·.toDefinition.isObject name) = true ↔
      ∃ o, g.object? name = some o := by
  rw [List.any_eq_true]
  constructor
  · rintro ⟨n, hn, hobject⟩
    have hnode := h.node?_of_mem (List.mem_filter.1 hn).1
    cases n with
    | object o =>
      obtain rfl : o.name = name := of_decide_eq_true hobject
      exact ⟨o, Graph.object?_eq_some_iff.2 hnode⟩
    | _ => cases hobject
  · rintro ⟨o, ho⟩
    have hnode := Graph.object?_eq_some_iff.1 ho
    refine ⟨.object o, List.mem_filter.2 ⟨mem_values.2 ⟨name, Dict.mem_of_get? hnode⟩, rfl⟩, ?_⟩
    exact decide_eq_true (h.name_of_node? hnode)

theorem Assembled.root?_unlisted {t : Declarations ω} (h : b.Assembled c g t)
    (hroots : g.listedRoots = none) (operation : String) {usual : String} {o : ObjectNode ω}
    (ho : g.object? usual = some o) : root? operation usual g.document = some usual := by
  rw [Graph.root?_document hroots, if_pos ((h.any_isObject_iff usual).2 ⟨o, ho⟩)]

end Blueprint

/-! ## The statement -/

/-- The graph has no mutations, but its root operations are not listed, and an object type has the
name that is usual for mutations. -/
structure Graph.ImpliesMutations (g : Graph ω) : Prop where
  query : g.query = "Query"
  mutation : g.mutation = none
  object : ∃ o, g.object? "Mutation" = some o

theorem Graph.queryRoot?_listed {g : Graph ω} {operations : Dict String}
    (h : g.listedRoots = some operations) : queryRoot? g.document = some g.query := by
  obtain ⟨-, hoperations⟩ := Option.ite_none_left_eq_some.1 h
  cases hoperations
  rw [queryRoot?, root?, findSome?_operations, h]
  rfl

theorem Graph.mutationRoot?_listed {g : Graph ω} {operations : Dict String}
    (h : g.listedRoots = some operations) : mutationRoot? g.document = g.mutation := by
  obtain ⟨-, hoperations⟩ := Option.ite_none_left_eq_some.1 h
  cases hoperations
  rw [mutationRoot?, root?, findSome?_operations, h]
  cases g.mutation <;> rfl

namespace Blueprint

variable {b : Blueprint ω} {r : Registry ω} {w : Workshop ω} {c : Configuration} {g : Graph ω}

/-- The text of a graph tells its root operations, but for a graph without mutations that has an
object type with their usual name. -/
theorem toSdl_roots (h : ((b.assemble r c) w).1 = .ok g) (hnames : g.WellNamed) :
    ∃ ds, read g.toSdl = some ds ∧ queryRoot? ds = some g.query ∧
      (¬ g.ImpliesMutations → mutationRoot? ds = g.mutation) ∧
      (g.ImpliesMutations → mutationRoot? ds = some "Mutation") := by
  obtain ⟨t, ht⟩ := exists_assembled h
  obtain ⟨⟨o, ho⟩, hmutation⟩ := object?_roots h
  refine ⟨g.document, read_toSdl_of_assemble h hnames, ?_⟩
  cases hroots : g.listedRoots with
  | some operations =>
    refine ⟨g.queryRoot?_listed hroots, fun _ => g.mutationRoot?_listed hroots, fun himplies => ?_⟩
    obtain ⟨husual, -⟩ := Option.ite_none_left_eq_some.1 hroots
    exact absurd ⟨himplies.query, .inl himplies.mutation⟩ husual
  | none =>
    obtain ⟨hquery, hnone | hsome⟩ : g.query = "Query" ∧
        (g.mutation = none ∨ g.mutation = some "Mutation") := by
      by_contra husual
      cases (if_neg husual).symm.trans hroots
    all_goals
      rw [hquery] at ho ⊢
      refine ⟨ht.root?_unlisted hroots "query" ho, fun himplies => ?_, fun himplies => ?_⟩
    · have hobject : ¬ ∃ o, g.object? "Mutation" = some o :=
        fun hobject => himplies ⟨hquery, hnone, hobject⟩
      rw [mutationRoot?, Graph.root?_document hroots, hnone,
        if_neg ((ht.any_isObject_iff _).not.2 hobject)]
    · obtain ⟨o, ho⟩ := himplies.object
      exact ht.root?_unlisted hroots "mutation" ho
    · obtain ⟨o, ho⟩ := hmutation _ hsome
      rw [hsome]
      exact ht.root?_unlisted hroots "mutation" ho
    · cases hsome.symm.trans himplies.mutation

/-- A ledger of mutations, which are not for requests. -/
def ledger (query : String) : Blueprint Unit where
  rootQuery := query
  components := [
    .definition { name := "Mutation", fields := .ofList [("date", { typeName := "String" })] },
    .definition {
      name := query
      fields := .ofList [("mutations", { typeName := "Mutation", list := true })] }]

theorem ledger_roots : ∃ g ds, (((ledger "Ledger").assemble clockwork {}) ⟨[], ()⟩).1 = .ok g ∧
    g.WellNamed ∧ read g.toSdl = some ds ∧ queryRoot? ds = some "Ledger" ∧
    mutationRoot? ds = none := by
  obtain ⟨g, hg, hnames, hquery, hmutation⟩ : ∃ g,
      (((ledger "Ledger").assemble clockwork {}) ⟨[], ()⟩).1 = .ok g ∧ g.WellNamed ∧
      g.query = "Ledger" ∧ g.mutation = none := ⟨_, rfl, by decide, rfl, rfl⟩
  obtain ⟨ds, hread, hqueryRoot, hmutationRoot, -⟩ := toSdl_roots hg hnames
  have himplies : ¬ g.ImpliesMutations := fun h => absurd (hquery.symm.trans h.query) (by decide)
  exact ⟨g, ds, hg, hnames, hread, hquery ▸ hqueryRoot, hmutation ▸ hmutationRoot himplies⟩

/-- With the usual name for queries, the ledger is read as one that takes mutations. -/
theorem ledger_implies_mutations : ∃ g ds,
    (((ledger "Query").assemble clockwork {}) ⟨[], ()⟩).1 = .ok g ∧ g.WellNamed ∧
    g.mutation = none ∧ read g.toSdl = some ds ∧ mutationRoot? ds = some "Mutation" := by
  obtain ⟨g, hg, hnames, hmutation, hroot⟩ : ∃ g,
      (((ledger "Query").assemble clockwork {}) ⟨[], ()⟩).1 = .ok g ∧ g.WellNamed ∧
      g.mutation = none ∧ mutationRoot? g.document = some "Mutation" :=
    ⟨_, rfl, by decide, rfl, rfl⟩
  exact ⟨g, g.document, hg, hnames, hmutation, read_toSdl_of_assemble hg hnames, hroot⟩

end Blueprint

end GraphAssembly
