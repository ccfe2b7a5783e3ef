import GraphAssembly.Proofs.Assembly.References

/-!
# Parameters of an assembled graph

A field keeps its arguments by name, and an assembly checks the arguments that the fields have kept.
So it has checked the last parameter of each name, and has not seen the earlier ones.

1. `Graph.TakesInput`: the types that literals are coerced to.
2. `FieldDeclaration.Shadows`: a parameter whose name is declared again.
3. The parameters of a resolver whose types are checked.
-/

namespace GraphAssembly

variable {ω : Type}

/-! ## Input types -/

/-- The name is that of a scalar or of an input object. -/
def Graph.TakesInput (g : Graph ω) (type : String) : Prop :=
  (∃ n, g.node? type = some (.scalar n)) ∨ ∃ n, g.node? type = some (.input n)

theorem Blueprint.Assembled.takesInput_iff {b : Blueprint ω} {c : Configuration} {g : Graph ω}
    {t : Declarations ω} (h : b.Assembled c g t) {type : String} :
    g.TakesInput type ↔ b.Suits type .input := by
  constructor
  · rintro (⟨n, hn⟩ | ⟨n, hn⟩)
    all_goals
      obtain ⟨d, hget, hlink⟩ := h.exists_of_node? hn
      obtain ⟨-, hd, hkind⟩ := h.table.of_get? hget
    · cases hd with
      | builtin | scalar => exact ⟨_, hkind, .inl rfl⟩
      | _ => cases hlink
    · cases hd with
      | input => exact ⟨_, hkind, .inr rfl⟩
      | _ => cases hlink
  · rintro ⟨kind, hkind, hallows⟩
    obtain ⟨d, hget, rfl, -, hd⟩ := h.table.exists_get? hkind
    have hnode := (h.node?_eq type).trans (congrArg _ hget)
    cases hd with
    | builtin | scalar => exact .inl ⟨_, hnode⟩
    | input => exact .inr ⟨_, hnode⟩
    | interface | union | object => simp [Usage.Allows, Declaration.kind] at hallows

/-! ## Shadows -/

/-- The field of a resolver. -/
def Resolver.declaration (name : String) (res : Resolver ω) : FieldDeclaration :=
  ⟨name, res.field, res.parameters⟩

namespace FieldDeclaration

/-- The parameter is not the last one of its name. -/
def Shadows (f : FieldDeclaration) (a : Parameter) : Prop :=
  ∃ before after, f.parameters = before ++ a :: after ∧ a.name ∈ after.map (·.name)

variable {f : FieldDeclaration} {a : Parameter}

theorem takes_or_shadows (ha : a ∈ f.parameters) : f.Takes a ∨ f.Shadows a := by
  obtain ⟨before, after, hps⟩ := List.append_of_mem ha
  by_cases hafter : a.name ∈ after.map (·.name)
  · exact .inr ⟨before, after, hps, hafter⟩
  · exact .inl ⟨before, after, hps, hafter⟩

theorem Shadows.mem (h : f.Shadows a) : a ∈ f.parameters := by
  obtain ⟨before, after, hps, -⟩ := h
  exact hps ▸ List.mem_append_right _ List.mem_cons_self

theorem Shadows.not_nodup (h : f.Shadows a) : ¬ (f.parameters.map (·.name)).Nodup := by
  obtain ⟨before, after, hps, hafter⟩ := h
  rw [hps, List.map_append, List.map_cons]
  intro hnodup
  exact (List.nodup_cons.1 hnodup.of_append_right).1 hafter

theorem Takes.get?_inputValues (h : f.Takes a) :
    Dict.get? (Parameter.inputValues f.parameters) a.name = some (.make a.name a.type) := by
  obtain ⟨before, after, hps, hafter⟩ := h
  rw [hps]
  refine Dict.get?_ofList_eq_some_iff.2 ⟨_, _, by rw [List.map_append, List.map_cons], ?_⟩
  simpa [Dict.keys, Function.comp_def] using hafter

end FieldDeclaration

/-! ## Resolvers -/

namespace Blueprint

section Resolvers

variable {b : Blueprint ω} {r : Registry ω} {c : Configuration} {w : Workshop ω} {g : Graph ω}
  {t : Declarations ω} {i : ObjectImplementation ω} {name : String} {res : Resolver ω}

theorem Assembled.takesInput_of_takes (h : b.Assembled c g t) (hi : i ∈ b.parts.implementations)
    (hr : (name, res) ∈ i.resolvers.entries) {a : Parameter} (ha : (res.declaration name).Takes a) :
    g.TakesInput a.type.typeName := by
  have ho : i.name ∈ b.objectNames :=
    mem_firstOccurrences.2 (List.mem_append_right _ (List.mem_map_of_mem hi))
  have hmem : res.declaration name ∈ i.resolvers.entries.map fun e => e.2.declaration e.1 :=
    List.mem_map.2 ⟨_, hr, rfl⟩
  have hfield : res.declaration name ∈ (b.fragments i.name).fields :=
    List.mem_append_right _ (List.mem_flatMap.2 ⟨i, List.mem_filter.2 ⟨hi, by simp⟩, hmem⟩)
  exact h.takesInput_iff.2 (h.table.references h.linked (.argument ho hfield ha))

/-- The last parameter of each name is an argument of the field, and its type takes inputs. So the
types of all parameters do just if those of the shadowed ones do, and if no name is declared twice,
they do. -/
theorem parameters_takeInput (h : ((b.assemble r c) w).1 = .ok g)
    (hi : i ∈ b.parts.implementations) (hr : (name, res) ∈ i.resolvers.entries) :
    (∃ o n, g.object? i.name = some o ∧ Dict.get? o.fields name = some n ∧
      ∀ a, (res.declaration name).Takes a →
        Dict.get? n.arguments a.name = some (.make a.name a.type) ∧
        g.TakesInput a.type.typeName) ∧
    ((∀ a ∈ res.parameters, g.TakesInput a.type.typeName) ↔
      ∀ a, (res.declaration name).Shadows a → g.TakesInput a.type.typeName) ∧
    ((res.parameters.map (·.name)).Nodup →
      ∀ a ∈ res.parameters, g.TakesInput a.type.typeName) := by
  obtain ⟨t, hassembled⟩ := exists_assembled h
  obtain ⟨o, ho, hn⟩ := hassembled.get?_resolved hi hr
  have htakes {a} (ha : (res.declaration name).Takes a) : g.TakesInput a.type.typeName :=
    hassembled.takesInput_of_takes hi hr ha
  refine ⟨⟨o, _, ho, hn, fun a ha => ⟨ha.get?_inputValues, htakes ha⟩⟩,
    ⟨fun hall a ha => hall a ha.mem, fun hshadowed a ha => ?_⟩, fun hnodup a ha => ?_⟩
  · rcases FieldDeclaration.takes_or_shadows (f := res.declaration name) ha with ha | ha
    · exact htakes ha
    · exact hshadowed a ha
  · rcases FieldDeclaration.takes_or_shadows (f := res.declaration name) ha with ha | ha
    · exact htakes ha
    · exact absurd hnodup ha.not_nodup

/-- At the reception, visitors are asked for their names. -/
def receptionist (parameters : List Parameter) : Resolver Unit where
  name := "greeting"
  field := { typeName := "String" }
  instanceToken := ⟨"Desk"⟩
  parameters
  bindings := []
  method := fun _ _ => pure (.ok (.value (.str "Good morning")))

def desk (parameters : List Parameter) : ObjectImplementation Unit where
  name := "Query"
  instanceToken := ⟨"Desk"⟩
  resolvers := .ofList [("greeting", receptionist parameters)]

def reception (parameters : List Parameter) : Blueprint Unit where
  rootQuery := "Query"
  components := [
    .input { name := "Visitor", fields := .ofList [("name", { typeName := "String" })] },
    .implementation (desk parameters)]

/-- The names of the visitor and of the company are different, so both types take inputs. -/
theorem reception_takesInput :
    let visitor := ⟨"visitor", { typeName := "Visitor" }, 1⟩
    let company := ⟨"company", { typeName := "String", nullable := true }, 2⟩
    ∃ g, (((reception [visitor, company]).assemble ⟨[]⟩ {}) ⟨[], ()⟩).1 = .ok g ∧
      g.TakesInput "Visitor" ∧ g.TakesInput "String" := by
  intro visitor company
  refine ⟨_, rfl, ?_⟩
  have hgreeting : ("greeting", receptionist [visitor, company]) ∈
      (desk [visitor, company]).resolvers.entries := List.mem_cons_self
  have hall := (parameters_takeInput (b := reception [visitor, company]) (r := ⟨[]⟩) (c := {})
    (w := ⟨[], ()⟩) rfl List.mem_cons_self hgreeting).2.2 (by decide)
  exact ⟨hall visitor List.mem_cons_self, hall company (.tail _ (.head _))⟩

/-- Nobody declares the type of the first parameter, whose name is declared again. -/
theorem reception_takes_nobody :
    let ps := [⟨"name", { typeName := "Nobody" }, 1⟩, ⟨"name", { typeName := "String" }, 2⟩]
    ∃ g, (((reception ps).assemble ⟨[]⟩ {}) ⟨[], ()⟩).1 = .ok g ∧
      .implementation (desk ps) ∈ (reception ps).components ∧
      ("greeting", receptionist ps) ∈ (desk ps).resolvers.entries ∧
      ⟨"name", { typeName := "Nobody" }, 1⟩ ∈ (receptionist ps).parameters ∧
      g.node? "Nobody" = none ∧ ¬ g.TakesInput "Nobody" := by
  intro ps
  refine ⟨_, rfl, .tail _ (.head _), .head _, .head _, rfl, ?_⟩
  rintro (⟨n, hn⟩ | ⟨n, hn⟩)
  · cases hn
  · cases hn

end Resolvers

end Blueprint

end GraphAssembly
