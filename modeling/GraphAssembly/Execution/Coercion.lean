import GraphAssembly.Pipeline

/-!
# Input coercion

Arguments are literals. Each is turned into a value of its declared type, or refused.

1. `coerce`: the literal of one type. Input types may refer to themselves, so what gets smaller is
   the literal, and for one literal the type.
2. `coerceArguments`: the arguments of a field, in the order in which they are declared.
-/

namespace GraphAssembly

theorem Dict.sizeOf_lt_of_get? {entries : List (String × Json)} {key : String} {v : Json}
    (h : Dict.get? entries key = some v) : sizeOf v < sizeOf entries := by
  induction entries with
  | nil => simp [Dict.get?] at h
  | cons pair rest ih =>
    obtain ⟨k, w⟩ := pair
    by_cases hk : k = key
    · simp only [Dict.get?, hk, if_true, Option.some.injEq] at h
      subst h
      simp
      omega
    · simp only [Dict.get?, hk, if_false] at h
      have := ih h
      simp
      omega

/-- A coercion may fail and may change the state of the codecs. -/
abbrev Coercing (ω : Type) := ExceptT FieldError (StateM ω)

namespace Graph

variable {ω : Type}

def refuse {α : Type} (type : String) (fault : ValueFault) : Coercing ω α :=
  throw (.invalidValue type fault)

/-- Converts a literal with the codec of a custom scalar. -/
def coerceCustom (type : String) (c : Codec ω) (v : Json) : Coercing ω Json := do
  match ← (c.parseLiteral v : StateM ω _) with
  | .ok w => pure w
  | .error reason => refuse type (.refused reason)

/-- The value of a literal at a type. A single value stands for the list of itself, and an input
object keeps its declared fields only, in the order in which they are declared. -/
def coerce (g : Graph ω) : TypeRef → Json → Coercing ω Json
  | .nonNull inner, v =>
    if v.isNull then refuse (TypeRef.nonNull inner).text .nullNotAllowed else g.coerce inner v
  | .list item, v =>
    match v with
    | .null => pure .null
    | .arr items => do
      pure (.arr (← items.attach.mapM fun ⟨x, _⟩ => g.coerce item x))
    | v => do pure (.arr [← g.coerce item v])
  | .named name, v =>
    if v.isNull then pure .null
    else match g.node? name with
      | some (.scalar ⟨_, _, some c⟩) => coerceCustom name c v
      | some (.input n) =>
        match v with
        | .obj entries => do
          let fields ← (Dict.values n.fields).mapM fun f =>
            match h : Dict.get? entries f.name with
            | none =>
              if f.type.isNonNull then refuse n.name (.missingField f.name) else pure none
            | some x =>
              have _smaller := Dict.sizeOf_lt_of_get? h
              if x.isNull ∧ f.type.isNonNull then refuse n.name (.missingField f.name)
              else do pure (some (f.name, ← g.coerce f.type x))
          pure (.obj (fields.filterMap id))
        | v => refuse n.name (.notObject v)
      | _ => refuse name .notInputType
  | builtin, v =>
    if v.isNull || builtin.accepts v then pure v
    else refuse builtin.text (.notBuiltin v builtin)
termination_by t v => (sizeOf v, sizeOf t)
decreasing_by
  · simp only [TypeRef.nonNull.sizeOf_spec]
    exact Prod.Lex.right _ (by omega)
  · have := List.sizeOf_lt_of_mem ‹x ∈ items›
    exact Prod.Lex.left _ _ (by simp only [Json.arr.sizeOf_spec]; omega)
  · exact Prod.Lex.right _ (by simp only [TypeRef.list.sizeOf_spec]; omega)
  · exact Prod.Lex.left _ _ (by simp only [Json.obj.sizeOf_spec]; omega)

/-- The arguments of a field. One that is not supplied is left out, unless it must not be null. -/
def coerceArguments (g : Graph ω) (f : FieldNode ω) (given : Dict Json) :
    Coercing ω (Dict Json) := do
  let coerced ← (Dict.values f.arguments).mapM fun a =>
    match Dict.get? given a.name with
    | none => if a.type.isNonNull then throw (.missingArgument a.name) else pure none
    | some v =>
      if v.isNull ∧ a.type.isNonNull then throw (.missingArgument a.name)
      else do pure (some (a.name, ← g.coerce a.type v))
  pure (coerced.filterMap id)

end Graph

end GraphAssembly
