import GraphAssembly.Proofs.Execution.Skeletons

/-!
# Values of literals

What a literal may be coerced to, and what it is refused for. Neither says how the coercion goes
about it; the codecs are asked in some state that they have come to.

1. `Supplies`: which of the declared names have values.
2. `Coerces`: the values that a literal may be coerced to; `Refused`: the errors that it may be
   refused with. `CoercesAll` and `RefusedAny`: the same of all that is supplied for declared names.
3. Where null comes from (`coerces_null`), and that nothing is both coerced and refused by codecs
   that do not change their mind (`Refused.not_coerces`).
-/

namespace GraphAssembly

variable {ω : Type}

/-! ## Declared names -/

/-- The values are those of the declared names that are supplied, in the order in which they are
declared; what must not be null is supplied, and not as null. -/
structure Supplies (declared : Dict InputValue) (given coerced : Dict Json) : Prop where
  keys : Dict.keys coerced = (Dict.keys declared).filter (Dict.contains given)
  required : ∀ key a, Dict.get? declared key = some a → a.type.isNonNull = true →
    ∃ l, Dict.get? given key = some l ∧ l ≠ .null

namespace Supplies

variable {declared : Dict InputValue} {given coerced : Dict Json} {key : String} {a : InputValue}
  (h : Supplies declared given coerced) (ha : Dict.get? declared key = some a)

include h

/-- There is a literal for every value. -/
theorem exists_given {v : Json} (hv : (key, v) ∈ coerced) : ∃ l, Dict.get? given key = some l := by
  have hkey : key ∈ Dict.keys coerced := List.mem_map_of_mem (f := Prod.fst) hv
  rw [h.keys, List.mem_filter] at hkey
  exact Option.isSome_iff_exists.1 hkey.2

include ha

/-- A declared name that is supplied has a value. -/
theorem exists_of_given {l : Json} (hl : Dict.get? given key = some l) :
    ∃ v, (key, v) ∈ coerced := by
  have hkey : key ∈ Dict.keys coerced := by
    rw [h.keys, List.mem_filter, Dict.contains, hl]
    exact ⟨List.mem_map_of_mem (f := Prod.fst) (Dict.mem_of_get? ha), rfl⟩
  obtain ⟨⟨_, v⟩, hv, rfl⟩ := List.mem_map.1 hkey
  exact ⟨v, hv⟩

theorem false_of_absent (ht : a.type.isNonNull = true) (hgiven : Dict.get? given key = none) :
    False := by
  obtain ⟨l, hl, -⟩ := h.required key a ha ht
  cases hgiven.symm.trans hl

theorem false_of_null (ht : a.type.isNonNull = true) (hgiven : Dict.get? given key = some .null) :
    False := by
  obtain ⟨l, hl, hne⟩ := h.required key a ha ht
  exact hne (Option.some.inj (hl.symm.trans hgiven))

end Supplies

/-! ## Values and errors -/

/-- The states that a state becomes as the codecs of a graph parse literals. -/
inductive Graph.Parses (g : Graph ω) (s : ω) : ω → Prop
  | start : Parses g s s
  | parse {u : ω} {name : String} {n : ScalarNode ω} {c : Codec ω} (h : Parses g s u)
    (hn : g.node? name = some (.scalar n)) (hc : n.codec = some c) (l : Json) :
    Parses g s (c.parseLiteral l u).2

/-- A literal and a value of a type that it may be coerced to, from a state of the codecs. -/
inductive Coerces (g : Graph ω) (s : ω) : TypeRef → Json → Json → Prop
  | null {t : TypeRef} (ht : t.isNonNull = false) : Coerces g s t .null .null
  | builtin {t : TypeRef} {v : Json} (ht : t.isBuiltin = true) (hv : t.accepts v = true) :
    Coerces g s t v v
  | nonNull {t : TypeRef} {l v : Json} (hl : l ≠ .null) (h : Coerces g s t l v) :
    Coerces g s (.nonNull t) l v
  | list {t : TypeRef} {ls vs : List Json} (hlength : vs.length = ls.length)
    (h : ∀ (i : Nat) l v, ls[i]? = some l → vs[i]? = some v → Coerces g s t l v) :
    Coerces g s (.list t) (.arr ls) (.arr vs)
  /-- A single value stands for the list of itself. -/
  | single {t : TypeRef} {l v : Json} (hnull : l ≠ .null) (harray : ∀ ls, l ≠ .arr ls)
    (h : Coerces g s t l v) : Coerces g s (.list t) l (.arr [v])
  /-- What the codec of the scalar gives for the literal. -/
  | custom {name : String} {n : ScalarNode ω} {c : Codec ω} {l v : Json} {u : ω}
    (hn : g.node? name = some (.scalar n)) (hc : n.codec = some c) (hl : l ≠ .null)
    (hu : g.Parses s u) (hv : (c.parseLiteral l u).1 = .ok v) : Coerces g s (.named name) l v
  | input {name : String} {n : InputNode} {given coerced : Dict Json}
    (hn : g.node? name = some (.input n)) (hs : Supplies n.fields given coerced)
    (h : ∀ key f l v, Dict.get? n.fields key = some f → Dict.get? given key = some l →
      (key, v) ∈ coerced → Coerces g s f.type l v) :
    Coerces g s (.named name) (.obj given) (.obj coerced)

/-- What is wrong with a literal that is not coerced, and the error that says so. -/
inductive Refused (g : Graph ω) (s : ω) : TypeRef → Json → FieldError → Prop
  | builtin {t : TypeRef} {l : Json} (ht : t.isBuiltin = true) (hnull : l ≠ .null)
    (hl : t.accepts l = false) : Refused g s t l (.invalidValue t.text (.notBuiltin l t))
  | null (t : TypeRef) :
    Refused g s (.nonNull t) .null (.invalidValue (TypeRef.nonNull t).text .nullNotAllowed)
  | nonNull {t : TypeRef} {l : Json} {e : FieldError} (h : Refused g s t l e) :
    Refused g s (.nonNull t) l e
  | item {t : TypeRef} {l : Json} {ls : List Json} {e : FieldError} (hl : l ∈ ls)
    (h : Refused g s t l e) : Refused g s (.list t) (.arr ls) e
  | single {t : TypeRef} {l : Json} {e : FieldError} (hnull : l ≠ .null)
    (harray : ∀ ls, l ≠ .arr ls) (h : Refused g s t l e) : Refused g s (.list t) l e
  /-- The codec of the scalar fails for the literal. -/
  | custom {name reason : String} {n : ScalarNode ω} {c : Codec ω} {l : Json} {u : ω}
    (hn : g.node? name = some (.scalar n)) (hc : n.codec = some c) (hl : l ≠ .null)
    (hu : g.Parses s u) (he : (c.parseLiteral l u).1 = .error reason) :
    Refused g s (.named name) l (.invalidValue name (.refused reason))
  | notObject {name : String} {n : InputNode} {l : Json} (hn : g.node? name = some (.input n))
    (hnull : l ≠ .null) (hl : ∀ given, l ≠ .obj given) :
    Refused g s (.named name) l (.invalidValue n.name (.notObject l))
  | absentField {name key : String} {n : InputNode} {f : InputValue} {given : Dict Json}
    (hn : g.node? name = some (.input n)) (hf : Dict.get? n.fields key = some f)
    (ht : f.type.isNonNull = true) (hgiven : Dict.get? given key = none) :
    Refused g s (.named name) (.obj given) (.invalidValue n.name (.missingField key))
  | nullField {name key : String} {n : InputNode} {f : InputValue} {given : Dict Json}
    (hn : g.node? name = some (.input n)) (hf : Dict.get? n.fields key = some f)
    (ht : f.type.isNonNull = true) (hgiven : Dict.get? given key = some .null) :
    Refused g s (.named name) (.obj given) (.invalidValue n.name (.missingField key))
  | field {name key : String} {n : InputNode} {f : InputValue} {given : Dict Json} {l : Json}
    {e : FieldError} (hn : g.node? name = some (.input n)) (hf : Dict.get? n.fields key = some f)
    (hl : Dict.get? given key = some l) (h : Refused g s f.type l e) :
    Refused g s (.named name) (.obj given) e

/-- Values of what is declared, for the literals that are given. -/
structure CoercesAll (g : Graph ω) (s : ω) (declared : Dict InputValue)
    (given coerced : Dict Json) : Prop where
  supplies : Supplies declared given coerced
  coerces : ∀ key a l v, Dict.get? declared key = some a → Dict.get? given key = some l →
    (key, v) ∈ coerced → Coerces g s a.type l v

/-- What is wrong with the literals that are given, and the error that says so. -/
inductive RefusedAny (g : Graph ω) (s : ω) (declared : Dict InputValue) (given : Dict Json) :
    FieldError → Prop
  | absent {key : String} {a : InputValue} (ha : Dict.get? declared key = some a)
    (ht : a.type.isNonNull = true) (hgiven : Dict.get? given key = none) :
    RefusedAny g s declared given (.missingArgument key)
  | null {key : String} {a : InputValue} (ha : Dict.get? declared key = some a)
    (ht : a.type.isNonNull = true) (hgiven : Dict.get? given key = some .null) :
    RefusedAny g s declared given (.missingArgument key)
  | literal {key : String} {a : InputValue} {l : Json} {e : FieldError}
    (ha : Dict.get? declared key = some a) (hl : Dict.get? given key = some l)
    (h : Refused g s a.type l e) : RefusedAny g s declared given e

/-! ## What follows from the rules -/

section Literals

variable {g : Graph ω} {s : ω} {t : TypeRef} {l v : Json} {e : FieldError}

/-- Null is the value of null where it is allowed, or it comes from a codec. -/
theorem coerces_null (h : Coerces g s t l .null) : (l = .null ∧ t.isNonNull = false) ∨
    ∃ n c u, g.node? t.baseName = some (.scalar n) ∧ n.codec = some c ∧ g.Parses s u ∧
      (c.parseLiteral l u).1 = .ok .null := by
  generalize hv : Json.null = v at h
  induction h with
  | null ht => exact .inl ⟨rfl, ht⟩
  | builtin _ hacc =>
    subst hv
    simp at hacc
  | nonNull hl _ ih => exact .inr ((ih hv).resolve_left fun h => hl (h.1.trans hv.symm))
  | custom hn hc _ hu hparse =>
    subst hv
    exact .inr ⟨_, _, _, hn, hc, hu, hparse⟩
  | list | single | input => cases hv

theorem Coerces.of_nonNull (h : Coerces g s (.nonNull t) l v) : l ≠ .null ∧ Coerces g s t l v := by
  cases h with
  | null ht | builtin ht => cases ht
  | nonNull hl h => exact ⟨hl, h⟩

theorem Coerces.of_input {name : String} {n : InputNode} (hn : g.node? name = some (.input n))
    (h : Coerces g s (.named name) l v) (hl : l ≠ .null) :
    ∃ given coerced, l = .obj given ∧ CoercesAll g s n.fields given coerced := by
  cases h with
  | null => exact absurd rfl hl
  | builtin ht => cases ht
  | custom hn' => cases hn.symm.trans hn'
  | input hn' hs h =>
    cases hn.symm.trans hn'
    exact ⟨_, _, rfl, hs, h⟩

/-- If the codecs do not change their mind, what is refused has no value. -/
theorem Refused.not_coerces
    (hcodecs : ∀ name n c, g.node? name = some (.scalar n) → n.codec = some c →
      Stateless c.parseLiteral)
    (h : Refused g s t l e) (v : Json) : ¬ Coerces g s t l v := by
  intro hv
  induction h generalizing v with
  | builtin ht hnull hl =>
    cases hv with
    | null => exact hnull rfl
    | builtin _ hacc => cases hl.symm.trans hacc
    | _ => cases ht
  | null => exact hv.of_nonNull.1 rfl
  | nonNull _ ih => exact ih _ hv.of_nonNull.2
  | @item _ _ ls _ hl _ ih =>
    cases hv with
    | builtin ht => cases ht
    | single _ harray => exact harray _ rfl
    | @list _ _ vs hlength h =>
      obtain ⟨i, hi, rfl⟩ := List.mem_iff_getElem.1 hl
      have hi' : i < vs.length := hlength ▸ hi
      exact ih _ (h i _ _ (List.getElem?_eq_getElem hi) (List.getElem?_eq_getElem hi'))
  | single hnull harray _ ih =>
    cases hv with
    | null => exact hnull rfl
    | builtin ht => cases ht
    | list => exact harray _ rfl
    | single _ _ h => exact ih _ h
  | @custom _ _ _ _ _ u hn hc hl _ he =>
    cases hv with
    | null => exact hl rfl
    | builtin ht => cases ht
    | @custom _ _ _ _ _ u' hn' hc' _ _ hv =>
      cases hn.symm.trans hn'
      cases hc.symm.trans hc'
      rw [(hcodecs _ _ _ hn hc).eq _ u u', hv] at he
      cases he
    | input hn' => cases hn.symm.trans hn'
  | notObject hn hnull hl =>
    obtain ⟨given, _, rfl, -⟩ := hv.of_input hn hnull
    exact hl given rfl
  | absentField hn hf ht hgiven =>
    obtain ⟨_, _, ⟨⟩, hall⟩ := hv.of_input hn nofun
    exact hall.supplies.false_of_absent hf ht hgiven
  | nullField hn hf ht hgiven =>
    obtain ⟨_, _, ⟨⟩, hall⟩ := hv.of_input hn nofun
    exact hall.supplies.false_of_null hf ht hgiven
  | field hn hf hl _ ih =>
    obtain ⟨_, _, ⟨⟩, hall⟩ := hv.of_input hn nofun
    obtain ⟨w, hw⟩ := hall.supplies.exists_of_given hf hl
    exact ih _ (hall.coerces _ _ _ _ hf hl hw)

theorem RefusedAny.not_coercesAll
    (hcodecs : ∀ name n c, g.node? name = some (.scalar n) → n.codec = some c →
      Stateless c.parseLiteral)
    {declared : Dict InputValue} {given : Dict Json} (h : RefusedAny g s declared given e)
    (coerced : Dict Json) : ¬ CoercesAll g s declared given coerced := by
  intro hall
  cases h with
  | absent ha ht hgiven => exact hall.supplies.false_of_absent ha ht hgiven
  | null ha ht hgiven => exact hall.supplies.false_of_null ha ht hgiven
  | literal ha hl h =>
    obtain ⟨v, hv⟩ := hall.supplies.exists_of_given ha hl
    exact h.not_coerces hcodecs v (hall.coerces _ _ _ _ ha hl hv)

end Literals

end GraphAssembly
