import GraphAssembly.Proofs.Assembly.Covariance
import GraphAssembly.Proofs.Execution.Literals

/-!
# Coerced arguments

The arguments that a method is called with are of their declared types, whatever was supplied and
whatever the codecs do. They are refused only if something that was supplied cannot be coerced, or
something that must be supplied is not.

1. Input fields and arguments stand under their names.
2. Coercions are judged by their results, in every state that the codecs may come to.
3. The coercion of one literal, by recursion on it (`coerce_judged`).
4. The arguments of a field (`coerceArguments_exact`).
-/

namespace GraphAssembly

variable {ω : Type}

/-! ## Names -/

/-- Each entry stands under its name, and none twice. -/
structure InputValue.Keyed (d : Dict InputValue) : Prop where
  distinct : Dict.Distinct d
  name_eq : ∀ key a, (key, a) ∈ d → a.name = key

theorem keyed_inputValues (ps : List Parameter) : InputValue.Keyed (Parameter.inputValues ps) where
  distinct := Dict.distinct_ofList _
  name_eq key a ha := by
    have hget := Dict.get?_of_mem (Dict.distinct_ofList _) ha
    obtain ⟨before, after, heq, -⟩ := Dict.get?_ofList_eq_some_iff.1 hget
    have hmem : (key, a) ∈ ps.map fun p => (p.name, InputValue.make p.name p.type) :=
      heq ▸ List.mem_append_right _ List.mem_cons_self
    obtain ⟨p, -, hpair⟩ := List.mem_map.1 hmem
    obtain ⟨rfl, rfl⟩ := Prod.mk.inj hpair
    rfl

/-- The fields of input types stand under their names. -/
def Graph.InputsKeyed (g : Graph ω) : Prop :=
  ∀ name n, g.node? name = some (.input n) → InputValue.Keyed n.fields

namespace Blueprint.Assembled

variable {b : Blueprint ω} {c : Configuration} {g : Graph ω} {t : Declarations ω}
  (h : b.Assembled c g t)

include h

theorem inputsKeyed : g.InputsKeyed := by
  intro name n hn
  obtain ⟨d, hget, heq⟩ := h.exists_of_node? hn
  cases (h.table.of_get? hget).2.1 with
  | @input i =>
    cases heq
    refine ⟨?_, fun key a ha => ?_⟩
    · have hkeys : Dict.keys (i.fields.entries.map fun e => (e.1, InputValue.make e.1 e.2)) =
          Dict.keys i.fields.entries := by simp [Dict.keys, Function.comp_def]
      rw [Dict.Distinct, hkeys]
      exact i.fields.distinct
    · obtain ⟨_, -, hpair⟩ := List.mem_map.1 ha
      obtain ⟨rfl, rfl⟩ := Prod.mk.inj hpair
      rfl
  | _ => cases heq

/-- The arguments of a field stand under their names, and lead to types of inputs. -/
theorem arguments_of_field? {type field : String} {node : FieldNode ω}
    (hf : g.field? type field = some node) :
    InputValue.Keyed node.arguments ∧ node.Sound g := by
  unfold Graph.field? at hf
  split at hf
  · rename_i o hn
    have ho := Graph.object?_eq_some_iff.2 hn
    refine ⟨?_, h.sound.object ho _ (mem_values.2 ⟨_, Dict.mem_of_get? hf⟩)⟩
    obtain ⟨-, rfl⟩ := h.eq_node_of_object? ho
    obtain ⟨x, -, -, hnode⟩ := Fragments.exists_field_of_node (Dict.mem_of_get? hf)
    rw [hnode.arguments]
    exact keyed_inputValues _
  · rename_i i hn
    refine ⟨?_, h.sound.interface hn _ (mem_values.2 ⟨_, Dict.mem_of_get? hf⟩)⟩
    obtain ⟨d, hget, heq⟩ := h.exists_of_node? hn
    cases (h.table.of_get? hget).2.1 with
    | interface =>
      cases heq
      obtain ⟨_, -, hpair⟩ := List.mem_map.1 (Dict.mem_of_get? hf)
      obtain ⟨rfl, rfl⟩ := Prod.mk.inj hpair
      exact ⟨List.nodup_nil, nofun⟩
    | _ => cases heq
  · cases hf

end Blueprint.Assembled

/-! ## Coercions and their results -/

/-- In the states that the codecs come to, a result of the coercion has the one property, and an
error the other. -/
def Coercing.Judged {α : Type} (g : Graph ω) (s : ω) (P : α → Prop) (Q : FieldError → Prop)
    (m : Coercing ω α) : Prop :=
  ∀ u, g.Parses s u → Verdict P Q (m u).1 ∧ g.Parses s (m u).2

namespace Coercing.Judged

variable {α β : Type} {g : Graph ω} {s : ω} {P : α → Prop} {Q : FieldError → Prop}

theorem pure {a : α} (h : P a) : Judged g s P Q (pure a : Coercing ω α) :=
  fun _ hu => ⟨.ok h, hu⟩

theorem throw {e : FieldError} (h : Q e) : Judged g s P Q (throw e : Coercing ω α) :=
  fun _ hu => ⟨.error h, hu⟩

theorem bind {P' : β → Prop} {m : Coercing ω α} {f : α → Coercing ω β} (hm : Judged g s P Q m)
    (hf : ∀ a, P a → Judged g s P' Q (f a)) : Judged g s P' Q (m >>= f) := by
  intro u hu
  obtain ⟨hverdict, hu'⟩ := hm u hu
  rw [bind_apply]
  generalize m u = x at hverdict hu'
  obtain ⟨e | a, u'⟩ := x
  · cases hverdict with
    | error h => exact ⟨.error h, hu'⟩
  · exact hf a (hverdict.of_eq_ok rfl) u' hu'

theorem mono {P' : α → Prop} {Q' : FieldError → Prop} {m : Coercing ω α} (hm : Judged g s P Q m)
    (hP : ∀ a, P a → P' a) (hQ : ∀ e, Q e → Q' e) : Judged g s P' Q' m :=
  fun u hu => ⟨((hm u hu).1.mono hP).mono_error hQ, (hm u hu).2⟩

theorem mapM {R : α → β → Prop} {f : α → Coercing ω β} {xs : List α}
    (h : ∀ x ∈ xs, Judged g s (R x) Q (f x)) :
    Judged g s (List.Forall₂ R xs) Q (xs.mapM f) := by
  induction xs with
  | nil => exact pure .nil
  | cons x xs ih =>
    rw [List.mapM_cons]
    refine (h x List.mem_cons_self).bind fun y hy => ?_
    refine (ih fun x hx => h x (List.mem_cons_of_mem _ hx)).bind fun ys hys => ?_
    exact pure (.cons hy hys)

end Coercing.Judged

/-! ### Declared names -/

/-- What becomes of one declared name: nothing if it is not supplied, else a value. -/
inductive Supplied (g : Graph ω) (s : ω) (given : Dict Json) (a : InputValue) :
    Option (String × Json) → Prop
  | absent (hgiven : Dict.get? given a.name = none) (ht : a.type.isNonNull = false) :
    Supplied g s given a none
  | value {l v : Json} (hl : Dict.get? given a.name = some l)
    (ht : a.type.isNonNull = true → l ≠ .null) (hv : Coerces g s a.type l v) :
    Supplied g s given a (some (a.name, v))

section Supplied

variable {g : Graph ω} {s : ω} {declared : Dict InputValue} {given : Dict Json}
  {ys : List (Option (String × Json))}

theorem keys_supplied (hname : ∀ key a, (key, a) ∈ declared → a.name = key)
    (h : List.Forall₂ (Supplied g s given) (Dict.values declared) ys) :
    Dict.keys (ys.filterMap id) = (Dict.keys declared).filter (Dict.contains given) := by
  induction declared generalizing ys with
  | nil =>
    cases h
    rfl
  | cons entry declared ih =>
    obtain ⟨key, a⟩ := entry
    obtain rfl := hname key a List.mem_cons_self
    cases h with
    | cons hy h =>
      have hrest := ih (fun key a ha => hname key a (List.mem_cons_of_mem _ ha)) h
      cases hy with
      | absent hgiven => simpa [Dict.keys, Dict.contains, hgiven] using hrest
      | value hl => simpa [Dict.keys, Dict.contains, hl] using hrest

/-- The values of all declared names together. -/
theorem coercesAll_of_forall₂ (hk : InputValue.Keyed declared)
    (h : List.Forall₂ (Supplied g s given) (Dict.values declared) ys) :
    CoercesAll g s declared given (ys.filterMap id) := by
  refine ⟨⟨keys_supplied hk.name_eq h, fun key a ha ht => ?_⟩, fun key a l v ha hl hv => ?_⟩
  · obtain ⟨y, -, hy⟩ := Routine.exists_rel_of_mem h (mem_values.2 ⟨key, Dict.mem_of_get? ha⟩)
    obtain rfl := hk.name_eq key a (Dict.mem_of_get? ha)
    cases hy with
    | absent _ ht' => cases ht.symm.trans ht'
    | value hl hne => exact ⟨_, hl, hne ht⟩
  · obtain ⟨y, hy, rfl⟩ := List.mem_filterMap.1 hv
    obtain ⟨a', ha', hsupplied⟩ := Routine.exists_rel_of_mem h.flip hy
    obtain ⟨key', ha'⟩ := mem_values.1 ha'
    obtain rfl := hk.name_eq key' a' ha'
    cases hsupplied with
    | value hl' _ hv =>
      cases (Dict.get?_of_mem hk.distinct ha').symm.trans ha
      cases hl'.symm.trans hl
      exact hv

variable {Q : FieldError → Prop} {a : InputValue} {e : FieldError}

theorem Supplied.judged_none (hget : Dict.get? given a.name = none)
    (hmissing : a.type.isNonNull = true → Q e) :
    Coercing.Judged g s (Supplied g s given a) Q
      (if a.type.isNonNull then throw e else pure none) := by
  split
  · rename_i ht
    exact .throw (hmissing ht)
  · rename_i ht
    exact .pure (.absent hget (by simpa using ht))

theorem Supplied.judged_some {l : Json} (hget : Dict.get? given a.name = some l)
    (hmissing : a.type.isNonNull = true → l = .null → Q e)
    (hl : Coercing.Judged g s (Coerces g s a.type l) Q (g.coerce a.type l)) :
    Coercing.Judged g s (Supplied g s given a) Q
      (if l.isNull ∧ a.type.isNonNull then throw e
        else do pure (some (a.name, ← g.coerce a.type l))) := by
  split
  · rename_i h
    exact .throw (hmissing h.2 (Json.isNull_eq_true.1 h.1))
  · rename_i h
    have hne : a.type.isNonNull = true → l ≠ .null := fun ht hnull =>
      h ⟨Json.isNull_eq_true.2 hnull, ht⟩
    exact hl.bind fun v hv => .pure (.value hget hne hv)

/-- All declared names are gone through, each with its own result. -/
theorem CoercesAll.judged_mapM (hk : InputValue.Keyed declared)
    {f : InputValue → Coercing ω (Option (String × Json))}
    (h : ∀ a, Dict.get? declared a.name = some a →
      Coercing.Judged g s (Supplied g s given a) Q (f a)) :
    Coercing.Judged g s (fun ys => CoercesAll g s declared given (ys.filterMap id)) Q
      ((Dict.values declared).mapM f) := by
  refine (Coercing.Judged.mapM (R := Supplied g s given) fun a ha => h a ?_).mono
    (fun ys hys => coercesAll_of_forall₂ hk hys) fun _ he => he
  obtain ⟨key, hmem⟩ := mem_values.1 ha
  obtain rfl := hk.name_eq key a hmem
  exact Dict.get?_of_mem hk.distinct hmem

end Supplied

/-! ## Literals -/

section Coercion

variable {g : Graph ω} {s : ω}

theorem coerceCustom_judged {name : String} {n : ScalarNode ω} {c : Codec ω} {l : Json}
    (hn : g.node? name = some (.scalar n)) (hc : n.codec = some c) (hl : l ≠ .null) :
    Coercing.Judged g s (Coerces g s (.named name) l) (Refused g s (.named name) l)
      (Graph.coerceCustom name c l) := by
  refine .bind (P := fun answer => ∃ u, g.Parses s u ∧ (c.parseLiteral l u).1 = answer)
    (fun u hu => ⟨.ok ⟨u, hu, rfl⟩, hu.parse hn hc l⟩) fun answer hanswer => ?_
  obtain ⟨u, hu, hparse⟩ := hanswer
  cases answer with
  | ok w => exact .pure (.custom hn hc hl hu hparse)
  | error reason => exact .throw (.custom hn hc hl hu hparse)

theorem coerce_builtin_judged {t : TypeRef} (ht : t.isBuiltin = true) (l : Json) :
    Coercing.Judged g s (Coerces g s t l) (Refused g s t l) (g.coerce t l) := by
  rw [coerce_builtin g ht]
  split
  · rename_i h
    rcases Bool.or_eq_true _ _ ▸ h with hnull | haccepts
    · obtain rfl := Json.isNull_eq_true.1 hnull
      cases t with
      | nonNull => cases ht
      | _ => exact .pure (.null rfl)
    · exact .pure (.builtin ht haccepts)
  · rename_i h
    rw [Bool.or_eq_true, not_or] at h
    refine .throw (.builtin ht (fun hnull => h.1 (Json.isNull_eq_true.2 hnull)) ?_)
    simpa using h.2

theorem coerce_arr_judged {item : TypeRef} {ls : List Json}
    (h : ∀ l ∈ ls,
      Coercing.Judged g s (Coerces g s item l) (Refused g s item l) (g.coerce item l)) :
    Coercing.Judged g s (Coerces g s (.list item) (.arr ls)) (Refused g s (.list item) (.arr ls))
      (g.coerce (.list item) (.arr ls)) := by
  rw [Graph.coerce]
  refine .bind (.mapM (R := fun x v => Coerces g s item x.1 v) fun x _ => ?_) fun vs hvs => ?_
  · exact (h x.1 x.2).mono (fun _ hv => hv) fun _ he => .item x.2 he
  · have hvs : List.Forall₂ (Coerces g s item) ls vs := by
      rwa [← List.forall₂_map_left_iff (f := Subtype.val), List.attach_map_subtype_val] at hvs
    exact .pure (.list hvs.length_eq.symm fun i l v hl hv => Routine.rel_of_getElem? hvs hl hv)

theorem coerce_obj_judged {name : String} {n : InputNode} {given : Dict Json}
    (hn : g.node? name = some (.input n)) (hk : InputValue.Keyed n.fields)
    (h : ∀ f l, Dict.get? n.fields f.name = some f → Dict.get? given f.name = some l →
      Coercing.Judged g s (Coerces g s f.type l) (Refused g s f.type l) (g.coerce f.type l)) :
    Coercing.Judged g s (Coerces g s (.named name) (.obj given))
      (Refused g s (.named name) (.obj given)) (g.coerce (.named name) (.obj given)) := by
  rw [Graph.coerce, hn]
  refine .bind (CoercesAll.judged_mapM hk fun f hf => ?_) fun ys hys =>
    .pure (.input hn hys.supplies hys.coerces)
  split
  · rename_i hgiven
    exact Supplied.judged_none hgiven fun ht => .absentField hn hf ht hgiven
  · rename_i l hl
    -- a field that must not be null is asked for before its literal is coerced
    refine Supplied.judged_some hl (fun ht hnull => .nullField hn hf ht (hnull ▸ hl)) ?_
    exact (h f l hf hl).mono (fun _ hv => hv) fun _ he => .field hn hf hl he

/-- The result of a coercion is a value of the type, and an error has a reason. -/
theorem coerce_judged (hg : g.Sound) (hkeyed : g.InputsKeyed) {t : TypeRef}
    (ht : g.Admits .input t) (l : Json) :
    Coercing.Judged g s (Coerces g s t l) (Refused g s t l) (g.coerce t l) := by
  cases t with
  | nonNull inner =>
    have ht : g.Admits .input inner := ht
    rw [Graph.coerce]
    split
    · rename_i hl
      obtain rfl := Json.isNull_eq_true.1 hl
      exact .throw (.null inner)
    · rename_i hl
      refine (coerce_judged hg hkeyed ht l).mono (fun v hv => .nonNull ?_ hv)
        fun _ he => .nonNull he
      exact fun h => hl (Json.isNull_eq_true.2 h)
  | list item =>
    have ht : g.Admits .input item := ht
    cases l with
    | null =>
      rw [Graph.coerce]
      exact .pure (.null rfl)
    | arr ls =>
      refine coerce_arr_judged fun l hl => ?_
      have := List.sizeOf_lt_of_mem hl
      exact coerce_judged hg hkeyed ht l
    | _ =>
      -- anything else stands for a list of itself
      rw [Graph.coerce]
      · refine .bind ((coerce_judged hg hkeyed ht _).mono (fun _ hv => hv) fun _ he =>
          .single (by simp) (by simp) he) fun v hv => .pure (.single (by simp) (by simp) hv)
      all_goals simp
  | named name =>
    obtain ⟨n, hn, hcoercible⟩ := ht
    by_cases hl : l = .null
    · subst hl
      rw [Graph.coerce]
      exact .pure (.null rfl)
    have hnull : l.isNull = false := by simpa [← Json.isNull_eq_true] using hl
    cases n with
    | scalar n =>
      obtain ⟨_, _, _ | c⟩ := n
      · cases hcoercible
      · rw [Graph.coerce, hnull, hn]
        exact coerceCustom_judged hn rfl hl
    | input n =>
      cases l with
      | obj given =>
        refine coerce_obj_judged hn (hkeyed name n hn) fun f l hf hl => ?_
        have := Dict.sizeOf_lt_of_get? hl
        exact coerce_judged hg hkeyed (hg.input hn f (mem_values.2 ⟨_, Dict.mem_of_get? hf⟩)).1 l
      | null => exact absurd rfl hl
      | _ =>
        rw [Graph.coerce, hn]
        exact .throw (.notObject hn hl (by simp))
    | object | interface | union => cases hcoercible
  | _ => exact coerce_builtin_judged rfl l
termination_by (sizeOf l, sizeOf t)

/-! ## Arguments -/

theorem coerceArguments_judged (hg : g.Sound) (hkeyed : g.InputsKeyed) {node : FieldNode ω}
    (hk : InputValue.Keyed node.arguments) (hnode : node.Sound g) (given : Dict Json) :
    Coercing.Judged g s (CoercesAll g s node.arguments given) (RefusedAny g s node.arguments given)
      (g.coerceArguments node given) := by
  refine .bind (CoercesAll.judged_mapM hk fun a ha => ?_) fun ys hys => .pure hys
  have hadmits := (hnode.arguments a (mem_values.2 ⟨_, Dict.mem_of_get? ha⟩)).1
  split
  · rename_i hgiven
    exact Supplied.judged_none hgiven fun ht => .absent ha ht hgiven
  · rename_i l hl
    refine Supplied.judged_some hl (fun ht hnull => .null ha ht (hnull ▸ hl)) ?_
    exact (coerce_judged hg hkeyed hadmits l).mono (fun _ hv => hv)
      fun _ he => .literal ha hl he

end Coercion

section Arguments

variable {b : Blueprint ω} {r : Registry ω} {c : Configuration} {w : Workshop ω} {g : Graph ω}

/-- The arguments of a field are values of their types, or something is wrong with what is given.
Of a value that is null either the literal is null and may be, or a codec has made it; and if the
codecs do not change their mind, then what is refused has no values at all. -/
theorem coerceArguments_exact (h : ((b.assemble r c) w).1 = .ok g) {type field : String}
    {node : FieldNode ω} (hf : g.field? type field = some node) (given : Dict Json) (s : ω) :
    (∀ args, ((g.coerceArguments node given) s).1 = .ok args →
      CoercesAll g s node.arguments given args) ∧
    (∀ e, ((g.coerceArguments node given) s).1 = .error e →
      RefusedAny g s node.arguments given e) ∧
    (∀ t l, Coerces g s t l .null → (l = .null ∧ t.isNonNull = false) ∨
      ∃ n k u, g.node? t.baseName = some (.scalar n) ∧ n.codec = some k ∧ g.Parses s u ∧
        (k.parseLiteral l u).1 = .ok .null) ∧
    ((∀ name n k, g.node? name = some (.scalar n) → n.codec = some k → Stateless k.parseLiteral) →
      ∀ e, RefusedAny g s node.arguments given e →
      ∀ args, ¬ CoercesAll g s node.arguments given args) := by
  obtain ⟨t, hassembled⟩ := Blueprint.exists_assembled h
  obtain ⟨hk, hnode⟩ := hassembled.arguments_of_field? hf
  have hverdict := (coerceArguments_judged hassembled.sound hassembled.inputsKeyed hk hnode given
    s .start).1
  refine ⟨fun args hargs => hverdict.of_eq_ok hargs, fun e he => hverdict.of_eq_error he,
    fun t l => coerces_null, fun hcodecs e hrefused => hrefused.not_coercesAll hcodecs⟩

/-- Books are found by their labels; a filter may hold a filter. -/
def shelf : Blueprint Nat where
  rootQuery := "Query"
  components := [
    .scalar { name := "Label", codec := ⟨"Labels"⟩ },
    .input {
      name := "Filter"
      fields := .ofList [
        ("labels", { typeName := "Label", list := true }),
        ("without", { typeName := "Filter", nullable := true })] },
    .implementation {
      name := "Query"
      instanceToken := ⟨"Shelf"⟩
      resolvers := .ofList [("count", {
        name := "count"
        field := { typeName := "Int" }
        instanceToken := ⟨"Shelf"⟩
        parameters := [
          ⟨"filter", { typeName := "Filter" }, 1⟩,
          ⟨"limit", { typeName := "Int", nullable := true }, 2⟩,
          ⟨"shelf", { typeName := "ID", nullable := true }, 3⟩]
        bindings := []
        method := fun _ _ => pure (.ok (.value (.num (.int 0)))) })] }]

/-- The labels that are read are replaced by numbers. -/
def numbering : Codec Nat where
  serialize v := pure (.ok v)
  parseLiteral
    | .str _, n => (.ok (.num (.int n)), n + 1)
    | _, n => (.error "not a label", n)

def librarian : Registry Nat where
  providers := [
    ⟨⟨"Shelf"⟩, .value ⟨0, .held "Shelf" .null⟩⟩,
    ⟨⟨"Labels"⟩, .value ⟨1, .codec numbering⟩⟩]

/-- A name that is not declared is dropped, a single label becomes a list, and null stays null. -/
theorem shelf_coerced :
    let given := [("colour", .str "red"), ("limit", .null), ("filter", .obj [
      ("without", .obj [("labels", .str "old")]), ("labels", .arr [.str "new", .null])])]
    let given' := [("filter", .obj [("labels", .arr [.str "new", .bool true])])]
    ∃ g node args e, ((shelf.assemble librarian {}) ⟨[], 0⟩).1 = .ok g ∧
      g.field? "Query" "count" = some node ∧
      ((g.coerceArguments node given) 5).1 = .ok args ∧
      args = [("filter", .obj [("labels", .arr [.num (.int 5), .null]),
        ("without", .obj [("labels", .arr [.num (.int 6)])])]), ("limit", .null)] ∧
      CoercesAll g 5 node.arguments given args ∧
      ((g.coerceArguments node given') 5).1 = .error e ∧
      e = .invalidValue "Label" (.refused "not a label") ∧
      RefusedAny g 5 node.arguments given' e := by
  intro given given'
  obtain ⟨g, hg, node, hnode, harguments, hfilter, hlabel⟩ : ∃ g,
      ((shelf.assemble librarian {}) ⟨[], 0⟩).1 = .ok g ∧ ∃ node,
      g.field? "Query" "count" = some node ∧
      node.arguments = [("filter", ⟨"filter", none, .nonNull (.named "Filter")⟩),
        ("limit", ⟨"limit", none, .int⟩), ("shelf", ⟨"shelf", none, .id⟩)] ∧
      g.node? "Filter" = some (.input {
        name := "Filter"
        description := none
        fields := [("labels", ⟨"labels", none, .nonNull (.list (.named "Label"))⟩),
          ("without", ⟨"without", none, .named "Filter"⟩)] }) ∧
      g.node? "Label" = some (.scalar ⟨"Label", none, some numbering⟩) := by
    -- the codec is resolved by recursion on what the registry has not been asked for
    refine ⟨_, by with_unfolding_all rfl, ?_⟩
    exact ⟨_, rfl, rfl, rfl, rfl⟩
  obtain ⟨hargs, herror⟩ :
      ((g.coerceArguments node given) 5).1 =
        .ok [("filter", .obj [("labels", .arr [.num (.int 5), .null]),
          ("without", .obj [("labels", .arr [.num (.int 6)])])]), ("limit", .null)] ∧
      ((g.coerceArguments node given') 5).1 =
        .error (.invalidValue "Label" (.refused "not a label")) := by
    constructor
    all_goals
      simp only [given, given', Graph.coerceArguments, harguments, Graph.coerce, hfilter, hlabel,
        Json.isNull, Dict.get?, Dict.values, List.map_cons, List.map_nil, List.attach_cons,
        List.attach_nil, List.mapM_cons, List.mapM_nil, Bool.false_eq_true, String.reduceEq,
        ↓reduceIte, ↓dreduceIte, false_and]
      rfl
  exact ⟨g, node, _, _, hg, hnode, hargs, rfl, (coerceArguments_exact hg hnode given 5).1 _ hargs,
    herror, rfl, (coerceArguments_exact hg hnode given' 5).2.1 _ herror⟩

end Arguments

end GraphAssembly
