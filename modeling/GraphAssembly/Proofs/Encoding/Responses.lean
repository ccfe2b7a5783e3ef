import GraphAssembly.Proofs.Execution.Soundness

/-!
# Responses in JSON

Data that is absent is written as null, and null reads as absent. So what is read of a response is
the response, except for data that is null. A response is written as a JSON value and read from one;
nothing is said about JSON text.

1. Paths: an index reads as an index, and a key as a key, also one that looks like a number.
2. Reports. A member that may be left out is read in both forms.
3. Responses, and those of an execution.
-/

namespace GraphAssembly

/-! ## Paths -/

namespace Path

theorem elementOfJson_elementJson (e : PathElement) : elementOfJson (elementJson e) = .ok e := by
  cases e with
  | index i =>
    have hi : 0 ≤ (i : Int) := Int.natCast_nonneg i
    simp [elementJson, Json.int, elementOfJson, hi]
  | key k => rfl

theorem ofJson_toJson (p : Path) : ofJson p.toJson = .ok p :=
  Json.readList_map elementOfJson_elementJson p

end Path

/-! ## Reports -/

namespace Report

theorem foldlM_path {d : Draft} (hd : d.path = none) (path : Option Path)
    (rest : List (String × Json)) :
    ((match path with
      | some p => [("path", p.toJson)]
      | none => []) ++ rest).foldlM Draft.member d =
      rest.foldlM Draft.member { d with path := path.map some } := by
  cases path with
  | none =>
    rw [Option.map_none, ← hd]
    rfl
  | some p =>
    have hmember : d.member ("path", p.toJson) = .ok { d with path := some (some p) } := by
      have hread : Json.readOption Path.ofJson p.toJson = .ok (some p) :=
        congrArg (Except.map some) p.ofJson_toJson
      change Json.readOption Path.ofJson p.toJson >>= _ = _
      rw [hread]
      rfl
    rw [List.cons_append, List.foldlM_cons, hmember]
    rfl

/-- The extensions of a report are its last member. -/
theorem foldlM_extensions {d : Draft} (hd : d.extensions = none) (extensions : Dict Json) :
    (if extensions.isEmpty then [] else [("extensions", .obj extensions)]).foldlM Draft.member d =
      .ok { d with extensions := if extensions.isEmpty then none else some extensions } := by
  by_cases h : extensions.isEmpty
  · rw [if_pos h, if_pos h, ← hd]
    rfl
  · have hmember : d.member ("extensions", .obj extensions) =
        .ok { d with extensions := some extensions } := by
      change readExtensions (.obj extensions) >>= _ = _
      rw [readExtensions, Json.readDict_ok]
      rfl
    rw [if_neg h, if_neg h, List.foldlM_cons, hmember]
    rfl

theorem ofJson_toJson (r : Report) : ofJson r.toJson = .ok r := by
  obtain ⟨message, path, extensions⟩ := r
  have hmembers := (foldlM_path (d := { message := some message }) rfl path _).trans
    (foldlM_extensions rfl extensions)
  have hfinish : Draft.finish ⟨some message, path.map some,
      if extensions.isEmpty then none else some extensions⟩ = .ok ⟨message, path, extensions⟩ := by
    cases path <;> cases extensions <;> rfl
  rw [← hfinish]
  exact congrArg (· >>= Draft.finish) hmembers

end Report

/-! ## Responses -/

namespace Response

/-- Data that is null becomes absent. -/
def withoutNull (r : Response) : Response :=
  { r with data := r.data.filter (!·.isNull) }

theorem withoutNull_eq_self_iff {r : Response} : r.withoutNull = r ↔ r.data ≠ some .null := by
  obtain ⟨data, errors⟩ := r
  cases data with
  | none => simp [withoutNull]
  | some v => cases v <;> simp [withoutNull, Json.isNull, Option.filter]

theorem readData_getD (data : Option Json) :
    readData (data.getD .null) = data.filter (!·.isNull) := by
  cases data with
  | none => rfl
  | some v => cases v <;> rfl

/-- The errors of a response are its last member. -/
theorem foldlM_errors {r : Response} (hr : r.errors = []) (errors : List Report) :
    (if errors.isEmpty then [] else [("errors", .arr (errors.map Report.toJson))]).foldlM member r =
      .ok { r with errors } := by
  cases errors with
  | nil =>
    obtain ⟨data, errors⟩ := r
    obtain rfl : errors = [] := hr
    rfl
  | cons e errors =>
    have hmember : r.member ("errors", .arr ((e :: errors).map Report.toJson)) =
        .ok { r with errors := e :: errors } := by
      change readErrors (.arr _) >>= _ = _
      rw [readErrors, Json.readList_map Report.ofJson_toJson]
      rfl
    rw [List.isEmpty_cons, if_neg Bool.false_ne_true, List.foldlM_cons, hmember]
    rfl

theorem ofJson_toJson (r : Response) : ofJson r.toJson = .ok r.withoutNull := by
  have hmembers : ofJson r.toJson =
      .ok { data := readData (r.data.getD .null), errors := r.errors } :=
    foldlM_errors rfl r.errors
  rw [hmembers, readData_getD]
  rfl

theorem toJson_withoutNull (r : Response) : r.withoutNull.toJson = r.toJson := by
  obtain ⟨data, errors⟩ := r
  cases data with
  | none => rfl
  | some v => cases v <;> rfl

/-- Two responses are written alike if they differ in whether data is null or absent, and no more
than that. -/
theorem toJson_eq_iff {r r' : Response} :
    r.toJson = r'.toJson ↔ r.withoutNull = r'.withoutNull := by
  constructor
  · intro h
    have hread := r.ofJson_toJson
    rw [h, ofJson_toJson] at hread
    exact (Except.ok.inj hread).symm
  · intro h
    rw [← toJson_withoutNull, h, toJson_withoutNull]

end Response

/-! ## Executions -/

section Executions

variable {ω : Type} (s : Schema ω) (operation : Operation) (selections : List Selection)
  (w : World ω)

theorem runWith_ne_null (root : ObjectNode ω) :
    (Schema.runWith (.forOperation s operation) root selections w).1 ≠ some .null := by
  obtain ⟨outcomes, -, hout⟩ := executes_iff.1 <|
    runWith_ends (schedules_forOperation s operation) root selections w
  rw [hout, Executor.assembleObject]
  intro h
  obtain ⟨vs, -, hvs⟩ := Option.map_eq_some_iff.1 h
  cases hvs

/-- Data is absent if the operation is not supported, and null if nothing is left of the root. -/
theorem execute_data : (s.execute operation selections w).1.data =
    (s.root? operation).map fun root =>
      (Schema.runWith (.forOperation s operation) root selections w).1.getD .null := by
  unfold Schema.execute
  cases s.root? operation <;> rfl

theorem execute_data_eq_none_iff :
    (s.execute operation selections w).1.data = none ↔ s.root? operation = none := by
  rw [execute_data, Option.map_eq_none_iff]

theorem execute_data_eq_null_iff : (s.execute operation selections w).1.data = some .null ↔
    ∃ root, s.root? operation = some root ∧
      (Schema.runWith (.forOperation s operation) root selections w).1 = none := by
  rw [execute_data, Option.map_eq_some_iff]
  refine exists_congr fun root => and_congr_right fun _ => ?_
  have hne := runWith_ne_null s operation selections w root
  cases hout : (Schema.runWith (.forOperation s operation) root selections w).1 with
  | none => exact iff_of_true rfl rfl
  | some v =>
    rw [hout] at hne
    exact iff_of_false (fun hv => hne (congrArg some hv)) nofun

/-- A response reads back as it was, unless an error has left nothing of the root. Then its data is
read as that of an operation that is not supported. -/
theorem execute_readsBack_iff :
    ∃ r w', s.execute operation selections w = (r, w') ∧
      Response.ofJson r.toJson = .ok r.withoutNull ∧
      (Response.ofJson r.toJson = .ok r ↔ r.data ≠ some .null) ∧
      (r.data = none ↔ s.root? operation = none) ∧
      (r.data = some .null ↔ ∃ root, s.root? operation = some root ∧
        (Schema.runWith (.forOperation s operation) root selections w).1 = none) ∧
      ∀ r' : Response, r'.toJson = r.toJson ↔ r'.withoutNull = r.withoutNull := by
  have hnone := execute_data_eq_none_iff s operation selections w
  have hnull := execute_data_eq_null_iff s operation selections w
  generalize s.execute operation selections w = answer at hnone hnull ⊢
  obtain ⟨r, w'⟩ := answer
  have hread : Response.ofJson r.toJson = .ok r.withoutNull := r.ofJson_toJson
  refine ⟨r, w', rfl, hread, ?_, hnone, hnull, fun r' => Response.toJson_eq_iff⟩
  rw [hread, Except.ok.injEq]
  exact Response.withoutNull_eq_self_iff

end Executions

/-- A query for a name, which must not be missing. -/
def signature : Blueprint Unit where
  rootQuery := "Query"
  components := [
    .definition { name := "Query", fields := .ofList [("name", { typeName := "String" })] }]

/-- The name is missing, so the data is null. It is read as absent, like the data of a mutation,
which is not supported. -/
theorem signature_loses_null :
    let selections := [.field "name" none [] []]
    ∃ s w r r' m, Schema.ofBlueprint signature {} ⟨[], ()⟩ = (.ok s, w) ∧
      (s.execute .query selections ⟨{}, w⟩).1 = r ∧ r.data = some .null ∧
      Response.ofJson r.toJson = .ok r' ∧ r'.data = none ∧ r' ≠ r ∧
      (s.execute .mutation selections ⟨{}, w⟩).1 = m ∧ m.data = none ∧
      m.toJson.get? "data" = r.toJson.get? "data" := by
  intro selections
  obtain ⟨s, w, hs, hmutation, hquery⟩ : ∃ s w,
      Schema.ofBlueprint signature {} ⟨[], ()⟩ = (.ok s, w) ∧ s.root? .mutation = none ∧
        (s.execute .query selections ⟨{}, w⟩).1.data = some .null := by
    refine ⟨_, _, rfl, rfl, ?_⟩
    rw [Schema.execute_of_root rfl, Schema.runWith, Executor.execute]
    rfl
  generalize hr : (s.execute .query selections ⟨{}, w⟩).1 = r at hquery
  generalize hm : (s.execute .mutation selections ⟨{}, w⟩).1 = m
  have hnone : m.data = none := by rw [← hm, execute_data_eq_none_iff, hmutation]
  have hread : r.withoutNull.data = none := by
    rw [Response.withoutNull, hquery]
    rfl
  refine ⟨s, w, r, r.withoutNull, m, hs, hr, hquery, r.ofJson_toJson, hread, ?_, hm, hnone, ?_⟩
  · rw [Ne, Response.withoutNull_eq_self_iff]
    exact fun h => h hquery
  · change some (m.data.getD .null) = some (r.data.getD .null)
    rw [hnone, hquery]
    rfl

end GraphAssembly
