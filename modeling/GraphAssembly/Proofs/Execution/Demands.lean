import GraphAssembly.Proofs.Execution.Coercions

/-!
# Arguments that an interface does not ask for

A field that implements one of an interface has the arguments of that one. It may have others, and
an assembly does not ask whether these must be supplied. So what is enough for the interface is
enough for the field just if they need not be.

1. `FieldNode.Covers`: what the check of an interface ensures for the arguments of its fields.
2. `FieldNode.Suffices` and `FieldNode.Demands`: what is enough for a field, and what another field
   asks for beyond it.
3. Arguments that are missing.
-/

namespace GraphAssembly

variable {ω : Type}

/-! ## The check of an interface -/

/-- The field has the arguments of the other one, of the same types. -/
def FieldNode.Covers (m n : FieldNode ω) : Prop :=
  ∀ key a, Dict.get? n.arguments key = some a →
    ∃ a', Dict.get? m.arguments key = some a' ∧ a'.type = a.type

section Checks

variable {t : Declarations ω} {o : ObjectNode ω} {ε ι α β : Type}

theorem eq_ok_of_bind {x : Except ε α} {f : α → Except ε β} {b : β} (h : x >>= f = .ok b) :
    ∃ a, x = .ok a ∧ f a = .ok b := by
  cases x with
  | error => cases h
  | ok a => exact ⟨a, rfl, h⟩

theorem eq_ok_of_forM {f : ι → Except ε Unit} {xs : List ι} (h : xs.forM f = .ok ()) {x : ι}
    (hx : x ∈ xs) : f x = .ok () := by
  induction xs with
  | nil => cases hx
  | cons y xs ih =>
    obtain ⟨⟨⟩, hy, hxs⟩ := eq_ok_of_bind (f := fun _ => xs.forM f) h
    rcases List.mem_cons.1 hx with rfl | hx
    · exact hy
    · exact ih hxs hx

theorem Declarations.type_of_checkArgument {actual : Dict InputValue} {expected : InputValue}
    (h : checkArgument actual expected = .ok ()) :
    ∃ a, Dict.get? actual expected.name = some a ∧ a.type = expected.type := by
  unfold checkArgument at h
  split at h
  · cases h
  · rename_i a ha
    split at h
    · exact ⟨a, ha, ‹_›⟩
    · cases h

theorem Declarations.covers_of_checkInterfaceField {n : FieldNode ω}
    (hk : InputValue.Keyed n.arguments) (h : t.checkInterfaceField o n = .ok ()) :
    ∃ m, Dict.get? o.fields n.name = some m ∧ m.Covers n := by
  unfold checkInterfaceField at h
  split at h
  · cases h
  · rename_i m hm
    split at h
    · refine ⟨m, hm, fun key a ha => ?_⟩
      have ha := Dict.mem_of_get? ha
      obtain rfl := hk.name_eq key a ha
      exact type_of_checkArgument (eq_ok_of_forM h (mem_values.2 ⟨_, ha⟩))
    · cases h

theorem Declarations.covers_of_checkInterface {interface name : String}
    {description : Option String} {fields : Dict (FieldNode ω)} {chooser : Option (TypeChooser ω)}
    (hi : Dict.get? t interface = some (.interface name description fields chooser))
    (h : t.checkInterface o interface = .ok ()) {n : FieldNode ω} (hn : n ∈ Dict.values fields)
    (hk : InputValue.Keyed n.arguments) :
    ∃ m, Dict.get? o.fields n.name = some m ∧ m.Covers n := by
  rw [checkInterface, hi] at h
  have hfield := eq_ok_of_forM h hn
  cases hcheck : t.checkInterfaceField o n with
  | error =>
    rw [hcheck] at hfield
    cases hfield
  | ok => exact covers_of_checkInterfaceField hk hcheck

end Checks

theorem Graph.field?_of_interface {g : Graph ω} {type field : String} {i : InterfaceNode ω}
    {n : FieldNode ω} (hi : g.node? type = some (.interface i))
    (hn : Dict.get? i.fields field = some n) : g.field? type field = some n := by
  rwa [field?, hi]

theorem Graph.field?_of_object {g : Graph ω} {type field : String} {o : ObjectNode ω}
    {n : FieldNode ω} (ho : g.object? type = some o) (hn : Dict.get? o.fields field = some n) :
    g.field? type field = some n := by
  rwa [field?, object?_eq_some_iff.1 ho]

section Assembled

variable {b : Blueprint ω} {r : Registry ω} {c : Configuration} {w : Workshop ω} {g : Graph ω}

/-- An object type has the fields of its interfaces, and they cover them. -/
theorem Blueprint.assemble_covers (h : ((b.assemble r c) w).1 = .ok g) {interface object : String}
    {i : InterfaceNode ω} {o : ObjectNode ω} (hi : g.node? interface = some (.interface i))
    (ho : g.object? object = some o) (himplements : interface ∈ o.implements) {field : String}
    {n : FieldNode ω} (hn : Dict.get? i.fields field = some n) :
    ∃ m, Dict.get? o.fields field = some m ∧ m.Covers n := by
  obtain ⟨t, ht, hg⟩ := exists_linked h
  have hassembled : b.Assembled c g t := .of_link ht hg
  obtain ⟨⟨⟩, hall, -⟩ := eq_ok_of_bind hg
  have hobject := Dict.mem_of_get? (hassembled.object?_iff.1 ho)
  have hcheck : t.check (.object o) = .ok () := eq_ok_of_forM hall (mem_values.2 ⟨_, hobject⟩)
  obtain ⟨⟨⟩, hinterfaces, -⟩ := eq_ok_of_bind hcheck
  have hk := (hassembled.arguments_of_field? (g.field?_of_interface hi hn)).1
  obtain ⟨d, hd, hlink⟩ := hassembled.exists_of_node? hi
  cases (hassembled.table.of_get? hd).2.1 with
  | interface =>
    cases hlink
    obtain ⟨⟨_, spec⟩, -, hpair⟩ := List.mem_map.1 (Dict.mem_of_get? hn)
    obtain ⟨rfl, rfl⟩ := Prod.mk.inj hpair
    exact Declarations.covers_of_checkInterface hd (eq_ok_of_forM hinterfaces himplements)
      (mem_values.2 ⟨_, Dict.mem_of_get? hn⟩) hk
  | _ => cases hlink

/-- The fields of an interface have no arguments. -/
theorem Blueprint.Assembled.arguments_of_interface {t : Declarations ω} (h : b.Assembled c g t)
    {interface : String} {i : InterfaceNode ω} (hi : g.node? interface = some (.interface i))
    {field : String} {n : FieldNode ω} (hn : Dict.get? i.fields field = some n) :
    n.arguments = [] := by
  obtain ⟨d, hd, hlink⟩ := h.exists_of_node? hi
  cases (h.table.of_get? hd).2.1 with
  | interface =>
    cases hlink
    obtain ⟨_, -, hpair⟩ := List.mem_map.1 (Dict.mem_of_get? hn)
    obtain ⟨rfl, rfl⟩ := Prod.mk.inj hpair
    rfl
  | _ => cases hlink

end Assembled

/-! ## Demands -/

namespace FieldNode

/-- The literals are for arguments of the field, and none that must not be null is left out. -/
structure Suffices (n : FieldNode ω) (given : Dict Json) : Prop where
  declared : ∀ key l, Dict.get? given key = some l → ∃ a, Dict.get? n.arguments key = some a
  required : ∀ key a, Dict.get? n.arguments key = some a → a.type.isNonNull = true →
    ∃ l, Dict.get? given key = some l ∧ l ≠ .null

/-- The field has an argument that must not be null, and the other one does not have it. -/
def Demands (m n : FieldNode ω) (key : String) : Prop :=
  ∃ a, Dict.get? m.arguments key = some a ∧ a.type.isNonNull = true ∧
    Dict.get? n.arguments key = none

end FieldNode

/-! ## Missing arguments -/

section Missing

variable {b : Blueprint ω} {r : Registry ω} {c : Configuration} {w : Workshop ω} {g : Graph ω}

theorem Refused.ne_missingArgument {s : ω} {t : TypeRef} {l : Json} {e : FieldError}
    (h : Refused g s t l e) (key : String) : e ≠ .missingArgument key := by
  induction h with
  | nonNull _ ih | item _ _ ih | single _ _ _ ih | field _ _ _ _ ih => exact ih
  | _ => nofun

/-- An argument is missing if it must not be null and is not supplied, or as null. -/
theorem RefusedAny.missing {s : ω} {declared : Dict InputValue} {given : Dict Json} {key : String}
    (h : RefusedAny g s declared given (.missingArgument key)) :
    ∃ a, Dict.get? declared key = some a ∧ a.type.isNonNull = true ∧
      ∀ l, Dict.get? given key = some l → l = .null := by
  generalize he : FieldError.missingArgument key = e at h
  cases h with
  | absent ha ht hgiven =>
    cases he
    exact ⟨_, ha, ht, fun l hl => by cases hgiven.symm.trans hl⟩
  | null ha ht hgiven =>
    cases he
    exact ⟨_, ha, ht, fun l hl => Option.some.inj (hl.symm.trans hgiven)⟩
  | literal _ _ h => exact absurd he.symm (h.ne_missingArgument key)

/-- Without any literals, nothing but an argument that must not be null is a reason to refuse. -/
theorem RefusedAny.of_nothing {s : ω} {declared : Dict InputValue} {e : FieldError}
    (h : RefusedAny g s declared [] e) : ∃ key, e = .missingArgument key := by
  cases h with
  | absent | null => exact ⟨_, rfl⟩
  | literal _ hl => cases hl

variable {interface object field : String} {i : InterfaceNode ω} {o : ObjectNode ω}
  {n : FieldNode ω}

/-- What is enough for a field of an interface may lack an argument for a field that implements it,
but only one that the interface does not have. That happens just if there is such an argument. -/
theorem implementer_missing (h : ((b.assemble r c) w).1 = .ok g)
    (hi : g.node? interface = some (.interface i)) (ho : g.object? object = some o)
    (himplements : interface ∈ o.implements) (hn : Dict.get? i.fields field = some n) :
    ∃ m, Dict.get? o.fields field = some m ∧ m.Covers n ∧
      (∀ given s key, n.Suffices given →
        ((g.coerceArguments m given) s).1 = .error (.missingArgument key) → m.Demands n key) ∧
      ∀ s, (∃ given key, n.Suffices given ∧
        ((g.coerceArguments m given) s).1 = .error (.missingArgument key)) ↔
          ∃ key, m.Demands n key := by
  obtain ⟨m, hm, hcovers⟩ := Blueprint.assemble_covers h hi ho himplements hn
  obtain ⟨t, hassembled⟩ := Blueprint.exists_assembled h
  obtain ⟨hk, hsound⟩ := hassembled.arguments_of_field? (g.field?_of_object ho hm)
  have hjudged (given : Dict Json) (s : ω) := (coerceArguments_judged hassembled.sound
    hassembled.inputsKeyed hk hsound given s .start).1
  have hdemands {given s key} (hgiven : n.Suffices given)
      (he : ((g.coerceArguments m given) s).1 = .error (.missingArgument key)) :
      m.Demands n key := by
    obtain ⟨a, ha, ht, hnull⟩ := ((hjudged given s).of_eq_error he).missing
    refine ⟨a, ha, ht, Option.eq_none_iff_forall_ne_some.2 fun a' ha' => ?_⟩
    -- an argument of the interface is one of the field, so it has been supplied
    obtain ⟨a'', ha'', ht'⟩ := hcovers key a' ha'
    cases ha.symm.trans ha''
    obtain ⟨l, hl, hne⟩ := hgiven.required key a' ha' (ht' ▸ ht)
    exact hne (hnull l hl)
  refine ⟨m, hm, hcovers, fun given s key => hdemands, fun s => ⟨?_, ?_⟩⟩
  · rintro ⟨given, key, hgiven, he⟩
    exact ⟨key, hdemands hgiven he⟩
  · rintro ⟨key, a, ha, ht, -⟩
    have hnone : n.Suffices [] := by
      have harguments := hassembled.arguments_of_interface hi hn
      exact ⟨nofun, fun key a ha => by cases (harguments ▸ ha : Dict.get? [] key = some a)⟩
    cases he : ((g.coerceArguments m []) s).1 with
    | ok args =>
      obtain ⟨l, hl, -⟩ := ((hjudged [] s).of_eq_ok he).supplies.required key a ha ht
      cases hl
    | error e =>
      obtain ⟨key', rfl⟩ := ((hjudged [] s).of_eq_error he).of_nothing
      exact ⟨[], key', hnone, he⟩

/-- A play in which heroes, but not villains, are asked for their names in some language. -/
def play : Blueprint Unit where
  rootQuery := "Query"
  components := [
    .interface {
      name := "Named"
      fields := .ofList [("name", { typeName := "String", nullable := true })]
      chooser := some fun v => pure (match v with
        | .obj entries => (Dict.get? entries "kind").bind fun
          | .str kind => some kind
          | _ => none
        | _ => none) },
    .implementation {
      name := "Hero"
      instanceToken := ⟨"Stage"⟩
      implements := ["Named"]
      resolvers := .ofList [("name", {
        name := "name"
        field := { typeName := "String", nullable := true }
        instanceToken := ⟨"Stage"⟩
        parameters := [⟨"language", { typeName := "String" }, 1⟩]
        bindings := []
        method := fun _ _ => pure (.ok (.value (.str "Ada"))) })] },
    .definition {
      name := "Villain"
      implements := ["Named"]
      fields := .ofList [("name", { typeName := "String", nullable := true })] },
    .implementation {
      name := "Query"
      instanceToken := ⟨"Stage"⟩
      resolvers := .ofList [("cast", {
        name := "cast"
        field := { typeName := "Named", list := true }
        instanceToken := ⟨"Stage"⟩
        parameters := []
        bindings := []
        method := fun _ _ => pure (.ok (.value (.arr [
          .obj [("kind", .str "Hero")],
          .obj [("kind", .str "Villain"), ("name", .str "Mordred")]]))) })] }]

def stage : Registry Unit where
  providers := [⟨⟨"Stage"⟩, .value ⟨0, .held "Stage" .null⟩⟩]

/-- The name of a hero demands a language, and so it is missing where a name is asked for. -/
theorem play_missing : ∃ g i o n m, ((play.assemble stage {}) ⟨[], ()⟩).1 = .ok g ∧
    g.node? "Named" = some (.interface i) ∧ g.object? "Hero" = some o ∧ "Named" ∈ o.implements ∧
    Dict.get? i.fields "name" = some n ∧ Dict.get? o.fields "name" = some m ∧
    m.Demands n "language" ∧ ∃ given key, n.Suffices given ∧
      ((g.coerceArguments m given) ()).1 = .error (.missingArgument key) := by
  obtain ⟨g, i, o, n, hg, hi, ho, himplements, hn, hdemands⟩ : ∃ g i o n,
      ((play.assemble stage {}) ⟨[], ()⟩).1 = .ok g ∧
      g.node? "Named" = some (.interface i) ∧ g.object? "Hero" = some o ∧ "Named" ∈ o.implements ∧
      Dict.get? i.fields "name" = some n ∧
      ∃ m, Dict.get? o.fields "name" = some m ∧ m.Demands n "language" :=
    ⟨_, _, _, _, rfl, rfl, rfl, List.mem_singleton_self _, rfl, _, rfl, _, rfl, rfl, rfl⟩
  obtain ⟨m, hm, -, -, hiff⟩ := implementer_missing hg hi ho himplements hn
  obtain ⟨m', hm', hdemands⟩ := hdemands
  cases hm.symm.trans hm'
  exact ⟨g, i, o, n, m, hg, hi, ho, himplements, hn, hm, hdemands, (hiff ()).2 ⟨_, hdemands⟩⟩

/-- Asked for the names of the cast, the villain tells his, and the hero does not know how to. -/
theorem play_answers_for_villain :
    ∃ g i o n m a root, ((play.assemble stage {}) ⟨[], ()⟩).1 = .ok g ∧
      g.node? "Named" = some (.interface i) ∧ g.object? "Hero" = some o ∧
      "Named" ∈ o.implements ∧ Dict.get? i.fields "name" = some n ∧
      Dict.get? o.fields "name" = some m ∧ Dict.get? m.arguments "language" = some a ∧
      a.type.isNonNull = true ∧ Dict.get? n.arguments "language" = none ∧
      Schema.root? ⟨g, stage, {}⟩ .query = some root ∧
      let (out, run) := Schema.runWith (Executor.forOperation ⟨g, stage, {}⟩ .query) root
        [.field "cast" none [] [.field "name" none [] []]] ⟨{}, [], ()⟩
      out = some (.obj [("cast", .arr [
        .obj [("name", .null)], .obj [("name", .str "Mordred")]])]) ∧
      run.errors = [⟨.missingArgument "language", [.key "cast", .index 0, .key "name"]⟩] := by
  refine ⟨_, _, _, _, _, _, _, rfl, rfl, rfl, List.mem_singleton_self _, rfl, rfl, rfl, rfl, rfl,
    rfl, ?_⟩
  decide +kernel

end Missing

end GraphAssembly
