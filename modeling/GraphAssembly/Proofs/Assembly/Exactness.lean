import GraphAssembly.Proofs.Assembly.Linked

/-!
# Exact assembly

A blueprint has a graph just if it is well formed, and an error of the assembly is one that the
blueprint has. Neither depends on the order of the components, nor on what the registry has been
used for before.

1. The verdict of an assembly.
2. The statement.
-/

namespace GraphAssembly

variable {ω : Type}

namespace Blueprint

variable {b : Blueprint ω} {r : Registry ω} {w : Workshop ω}

theorem Table.link {t : Declarations ω} (ht : b.Table b.declaredTypes t) (c : Configuration) :
    Verdict (fun _ => (∀ d ∈ Dict.values t, b.Linked d) ∧ b.rootQuery ∈ b.objectNames ∧
      ∀ name, b.rootMutation = some name → name ∈ b.objectNames)
      (b.Violation r w) (b.link t c) :=
  ht.checkAll.bind fun _ hlinked => ht.checkRoots.bind fun _ hroots => .ok ⟨hlinked, hroots⟩

theorem assemble_verdict (hr : r.Deterministic) (hw : r.Reached w) (c : Configuration) :
    Verdict (fun _ => b.WellFormed r w) (b.Violation r w) ((b.assemble r c) w).1 := by
  refine Verdict.bind_apply (ofParts_verdict (b := b) hr hw) ?_
  rintro t ⟨ht, hinterfaces, hinputs, hcodecs, hobjects⟩
  rw [lift_apply]
  refine (ht.link c).mono fun _ ⟨hlinked, hquery, hmutation⟩ => ?_
  have hof : ∀ {name d}, Dict.get? t name = some d → b.Linked d :=
    fun hget => hlinked _ (mem_values.2 ⟨_, Dict.mem_of_get? hget⟩)
  exact {
    types := ht.nodup
    interfaceFields := hinterfaces
    inputFields := hinputs
    objectFields := hobjects
    codecs := hcodecs
    references := fun _ _ _ _ => ht.references hlinked
    interfaces := fun object ho => (hof (ht.get?_object ho)).1
    members := fun u hu => hof (ht.get?_union hu)
    query := hquery
    mutation := hmutation }

theorem exists_assemble_iff (hr : r.Deterministic) (hw : r.Reached w) (c : Configuration) :
    (∃ g, ((b.assemble r c) w).1 = .ok g) ↔ b.WellFormed r w := by
  have hverdict := assemble_verdict (b := b) hr hw c
  generalize ((b.assemble r c) w).1 = x at hverdict
  cases hverdict with
  | ok h => exact ⟨fun _ => h, fun _ => ⟨_, rfl⟩⟩
  | error h => exact ⟨nofun, fun hb => absurd hb h.not_wellFormed⟩

/-- An assembly succeeds just for a well-formed blueprint, and its errors are right. -/
theorem assemble_exact (b : Blueprint ω) (hr : r.Deterministic) (hw : r.Reached w)
    (c : Configuration) :
    ((∃ g, ((b.assemble r c) w).1 = .ok g) ↔ b.WellFormed r w) ∧
      ∀ e, ((b.assemble r c) w).1 = .error e → b.Violation r w e := by
  refine ⟨exists_assemble_iff hr hw c, fun e he => ?_⟩
  have hverdict := assemble_verdict (b := b) hr hw c
  rw [he] at hverdict
  cases hverdict with
  | error h => exact h

/-- Heroes have a name, as anything with a name may have. -/
def named : Blueprint Unit where
  rootQuery := "Query"
  components := [
    .interface {
      name := "Named"
      fields := .ofList [("name", { typeName := "String", nullable := true })] },
    .definition {
      name := "Hero"
      fields := .ofList [("name", { typeName := "String" }), ("friend", { typeName := "Anyone" })]
      implements := ["Named"] },
    .union { name := "Anyone", members := ["Hero"] },
    .definition {
      name := "Query"
      fields := .ofList [("hero", { typeName := "Named", list := true })] }]

/-- A codec that is made with the help of a clock. -/
def clockwork : Registry Unit where
  providers := [
    ⟨⟨"Clock"⟩, .value ⟨0, .held "Clock" .null⟩⟩,
    ⟨⟨"DateCodec"⟩, .factory [⟨"Clock"⟩] fun _ =>
      pure (.ok ⟨1, .codec { serialize := fun v => pure (.ok v) }⟩)⟩]

theorem clockwork_deterministic : clockwork.Deterministic := by
  intro p hp dependencies build hs ds ds' u u' _
  rcases List.mem_pair.1 hp with rfl | rfl
  · cases hs
  · cases hs
    exact .ok rfl

theorem named_wellFormed : clockwork.Deterministic ∧ clockwork.Reached ⟨[], ()⟩ ∧
    named.WellFormed clockwork ⟨[], ()⟩ := by
  have hreached : clockwork.Reached ⟨[], ()⟩ := .fresh ()
  exact ⟨clockwork_deterministic, hreached,
    (assemble_exact named clockwork_deterministic hreached {}).1.1 ⟨_, rfl⟩⟩

end Blueprint

end GraphAssembly
