import GraphAssembly.Proofs.Assembly.Assembled
import GraphAssembly.Schema

/-!
# Providers of a schema

Which provider a schema has for a token, and when it has none.

1. `Blueprint.chosen?` says whose provider a token has: the override, else the first explicit one,
   else the first that a component carries.
2. What a list of providers must be for a registry to take it.
3. The list that a schema registers: its overrides take the place of what the blueprint has.
4. `Blueprint.Brings`: a token that a component names and brings the provider of.
5. The statement, about every schema that is made in this way.
-/

namespace GraphAssembly

variable {ω : Type}

/-! ## Whose provider -/

def Binding.carried? (t : Token) (b : Binding ω) : Option (Provider ω) :=
  b.provider.filter (·.token = t)

/-- The provider that a component carries for a token: of the instance, else of the first binding of
the type, else of the first binding of a resolver. -/
def Component.carried? (t : Token) : Component ω → Option (Provider ω)
  | .implementation i =>
    ((i.provider.filter (·.token = t)).or (i.bindings.findSome? (·.carried? t))).or
      (i.resolvers.entries.findSome? fun r => r.2.bindings.findSome? (·.carried? t))
  | .scalar s => s.provider.filter (·.token = t)
  | _ => none

/-- The provider of a token in a schema that is given overrides. -/
def Blueprint.chosen? (b : Blueprint ω) (overrides : List (Provider ω)) (t : Token) :
    Option (Provider ω) :=
  ((overrides.find? (·.token = t)).or (b.explicitProviders.find? (·.token = t))).or
    (b.components.findSome? (·.carried? t))

section Carried

variable {t : Token}

theorem Provider.find?_toList (p : Option (Provider ω)) :
    p.toList.find? (·.token = t) = p.filter (·.token = t) := by
  cases p with
  | none => rfl
  | some p => by_cases h : p.token = t <;> simp [Option.filter_some, h]

theorem Binding.find?_providers (bindings : List (Binding ω)) :
    (Binding.providers bindings).find? (·.token = t) = bindings.findSome? (·.carried? t) := by
  have hproviders : Binding.providers bindings = bindings.flatMap (·.provider.toList) :=
    List.filterMap_eq_flatMap_toList _ _
  rw [hproviders, List.find?_flatMap]
  exact congrArg (bindings.findSome? ·) (funext fun b => Provider.find?_toList b.provider)

theorem Component.find?_providers (c : Component ω) :
    c.providers.find? (·.token = t) = c.carried? t := by
  cases c with
  | implementation i =>
    simp only [providers, ObjectImplementation.providers, carried?, List.find?_append,
      Provider.find?_toList, Binding.find?_providers, List.find?_flatMap, Dict.values,
      List.findSome?_map]
    rfl
  | scalar s => exact Provider.find?_toList s.provider
  | _ => rfl

theorem Blueprint.find?_offered (b : Blueprint ω) (overrides : List (Provider ω)) :
    (overrides ++ (b.explicitProviders ++ b.components.flatMap Component.providers)).find?
      (·.token = t) = b.chosen? overrides t := by
  simp only [List.find?_append, List.find?_flatMap, Component.find?_providers, chosen?,
    Option.or_assoc]

end Carried

/-! ## Registration -/

namespace Provider

variable {ps : List (Provider ω)} {t : Token}

theorem find?_isSome_iff : (ps.find? (·.token = t)).isSome ↔ t ∈ ps.map (·.token) := by
  simp

/-- Where no token is repeated, a token picks out one provider. -/
theorem filter_eq_toList_find? (h : (ps.map (·.token)).Nodup) :
    ps.filter (·.token = t) = (ps.find? (·.token = t)).toList := by
  induction ps with
  | nil => rfl
  | cons p ps ih =>
    rw [List.map_cons, List.nodup_cons] at h
    by_cases hp : p.token = t
    · have hrest : ps.filter (·.token = t) = [] := by
        refine List.filter_eq_nil_iff.2 fun q hq hqt => h.1 ?_
        rw [hp, ← of_decide_eq_true hqt]
        exact List.mem_map_of_mem hq
      simp [hp, hrest]
    · simpa [hp] using ih h.2

/-- No token is repeated either after a provider for a further token. -/
theorem nodup_append_singleton {p : Provider ω} (h : (ps.map (·.token)).Nodup)
    (hp : ¬ps.any (·.token = p.token)) : ((ps ++ [p]).map (·.token)).Nodup := by
  rw [List.map_append]
  refine List.nodup_append.2 ⟨h, List.nodup_singleton _, fun a ha c hc hac => hp ?_⟩
  obtain ⟨q, hq, rfl⟩ := List.mem_map.1 ha
  refine List.any_eq_true.2 ⟨q, hq, decide_eq_true ?_⟩
  rw [hac, List.mem_singleton.1 hc]

end Provider

namespace Registry

/-- Why a list of providers is refused. -/
inductive Refusal (ps : List (Provider ω)) : RegistrationError → Prop
  | emptyToken {p : Provider ω} (hp : p ∈ ps) (h : p.token.isEmpty) : Refusal ps .emptyToken
  | duplicateToken {t : Token} (h : List.Duplicate t (ps.map (·.token))) :
    Refusal ps (.duplicateToken t)

/-- What a registry that holds some providers says to further ones. -/
theorem register_verdict {r : Registry ω} {ps : List (Provider ω)}
    (hr : (r.providers.map (·.token)).Nodup) :
    Verdict (fun r' => r'.providers = r.providers ++ ps ∧
        ((r.providers ++ ps).map (·.token)).Nodup ∧ ∀ p ∈ ps, p.token.isEmpty = false)
      (Refusal (r.providers ++ ps)) (ps.foldlM register r) := by
  induction ps generalizing r with
  | nil => exact .ok ⟨by simp, by simpa using hr, nofun⟩
  | cons p ps ih =>
    have hmem : p ∈ r.providers ++ p :: ps := List.mem_append_right _ List.mem_cons_self
    rw [List.foldlM_cons]
    by_cases hempty : p.token.isEmpty
    · rw [register, if_pos hempty]
      exact .error (.emptyToken hmem hempty)
    · rw [register, if_neg hempty]
      by_cases hany : r.providers.any (·.token = p.token)
      · rw [if_pos hany]
        refine .error (.duplicateToken ?_)
        obtain ⟨q, hq, hqp⟩ := List.any_eq_true.1 hany
        rw [List.map_append, ← of_decide_eq_true hqp]
        refine duplicate_append (List.mem_map_of_mem hq) ?_
        rw [of_decide_eq_true hqp]
        exact List.mem_cons_self
      · rw [if_neg hany, List.append_cons]
        have hnodup := Provider.nodup_append_singleton hr hany
        refine (ih (r := ⟨r.providers ++ [p]⟩) hnodup).mono fun r' ⟨heq, hall, hne⟩ => ?_
        exact ⟨heq, hall, List.forall_mem_cons.2 ⟨by simpa using hempty, hne⟩⟩

/-- A registry has just the providers it is made from, or it refuses them for a reason. -/
theorem ofProviders_verdict (ps : List (Provider ω)) :
    Verdict (fun r => r.providers = ps ∧ (ps.map (·.token)).Nodup ∧
        ∀ p ∈ ps, p.token.isEmpty = false) (Refusal ps) (ofProviders ps) :=
  register_verdict (r := ⟨[]⟩) List.nodup_nil

end Registry

/-! ## Overrides -/

section Overrides

variable {b : Blueprint ω} {overrides : List (Provider ω)} {t : Token}

/-- Providers that are kept from a list, after those that are kept already. -/
theorem Provider.find?_foldl_keep (ps kept : List (Provider ω)) :
    (ps.foldl (fun kept p => if kept.any (·.token = p.token) then kept else kept ++ [p]) kept).find?
      (·.token = t) = (kept ++ ps).find? (·.token = t) := by
  induction ps generalizing kept with
  | nil => rw [List.foldl_nil, List.append_nil]
  | cons p ps ih =>
    rw [List.foldl_cons, ih]
    split
    · rename_i hany
      rw [List.find?_append, List.find?_append, List.find?_cons]
      split
      · rename_i hp
        rw [of_decide_eq_true hp] at hany
        have hsome : (kept.find? (·.token = t)).isSome :=
          List.find?_isSome.2 (List.any_eq_true.1 hany)
        obtain ⟨q, hq⟩ := Option.isSome_iff_exists.1 hsome
        rw [hq, Option.some_or, Option.some_or]
      · rfl
    · rw [List.append_assoc, List.singleton_append]

theorem Provider.nodup_foldl_keep {ps kept : List (Provider ω)} (h : (kept.map (·.token)).Nodup) :
    ((ps.foldl (fun kept p => if kept.any (·.token = p.token) then kept else kept ++ [p]) kept).map
      (·.token)).Nodup := by
  induction ps generalizing kept with
  | nil => exact h
  | cons p ps ih =>
    rw [List.foldl_cons]
    split
    · exact ih h
    · rename_i hany
      exact ih (nodup_append_singleton h hany)

namespace Blueprint

theorem nodup_providers (b : Blueprint ω) : (b.providers.map (·.token)).Nodup :=
  Provider.nodup_foldl_keep List.nodup_nil

theorem find?_providers (b : Blueprint ω) :
    b.providers.find? (·.token = t) =
      (b.explicitProviders ++ b.components.flatMap Component.providers).find? (·.token = t) :=
  Provider.find?_foldl_keep _ []

/-- An override hides what the blueprint has for its token, and nothing else. -/
theorem find?_providersWith :
    (b.providersWith overrides).find? (·.token = t) = b.chosen? overrides t := by
  rw [← find?_offered, providersWith, List.find?_append, List.find?_append, ← find?_providers,
    List.find?_filter]
  cases hfind : overrides.find? (·.token = t) with
  | some p => rw [Option.some_or, Option.some_or]
  | none =>
    rw [Option.none_or, Option.none_or]
    refine congrArg (b.providers.find? ·) (funext fun p => decide_eq_decide.2 ?_)
    refine ⟨fun h => of_decide_eq_true h.2, fun h => ⟨?_, decide_eq_true h⟩⟩
    rw [h, Bool.not_eq_true', List.any_eq_false]
    exact List.find?_eq_none.1 hfind

theorem mem_providersWith_iff :
    t ∈ (b.providersWith overrides).map (·.token) ↔ (b.chosen? overrides t).isSome := by
  rw [← find?_providersWith, Provider.find?_isSome_iff]

theorem nodup_providersWith_iff :
    ((b.providersWith overrides).map (·.token)).Nodup ↔ (overrides.map (·.token)).Nodup := by
  rw [providersWith, List.map_append]
  refine ⟨fun h => (List.nodup_append.1 h).1, fun h => List.nodup_append.2 ⟨h, ?_, ?_⟩⟩
  · exact b.nodup_providers.sublist (List.filter_sublist.map _)
  · intro a ha c hc hac
    obtain ⟨p, hp, rfl⟩ := List.mem_map.1 ha
    obtain ⟨q, hq, rfl⟩ := List.mem_map.1 hc
    have hnone := (List.mem_filter.1 hq).2
    rw [Bool.not_eq_true', List.any_eq_false] at hnone
    exact hnone p hp (decide_eq_true hac)

/-- Only two overrides for one token, or the empty token, are refused. -/
theorem refusal_iff : (∃ e, Registry.Refusal (b.providersWith overrides) e) ↔
    ¬(overrides.map (·.token)).Nodup ∨ (b.chosen? overrides ⟨""⟩).isSome := by
  rw [← nodup_providersWith_iff (b := b), ← mem_providersWith_iff]
  constructor
  · rintro ⟨_, h⟩
    cases h with
    | @emptyToken p hp h =>
      refine .inr (List.mem_map.2 ⟨p, hp, ?_⟩)
      exact congrArg Token.mk (of_decide_eq_true h)
    | @duplicateToken t h =>
      exact .inl fun hnodup => List.nodup_iff_forall_not_duplicate.1 hnodup t h
  · rintro (h | h)
    · rw [List.nodup_iff_forall_not_duplicate, not_forall] at h
      obtain ⟨t, h⟩ := h
      exact ⟨_, .duplicateToken (not_not.1 h)⟩
    · obtain ⟨p, hp, h⟩ := List.mem_map.1 h
      exact ⟨_, .emptyToken hp (by rw [h]; rfl)⟩

end Blueprint

end Overrides

/-! ## Providers that components bring -/

/-- A component names the token and brings the provider of it. The resolvers of an implementation
are declared one after the other, and one that repeats a name is among them. -/
inductive Blueprint.Brings (b : Blueprint ω) : Token → Prop
  | implementation {i : ObjectImplementation ω} (hi : .implementation i ∈ b.components)
    {p : Provider ω} (hp : i.provider = some p) (ht : p.token = i.instanceToken) :
    Brings b i.instanceToken
  | codec {s : ScalarDefinition ω} (hs : .scalar s ∈ b.components) {p : Provider ω}
    (hp : s.provider = some p) (ht : p.token = s.codec) : Brings b s.codec
  | typeBinding {i : ObjectImplementation ω} (hi : .implementation i ∈ b.components)
    {m : Binding ω} (hm : m ∈ i.bindings) {p : Provider ω} (hp : m.provider = some p)
    (ht : p.token = m.token) : Brings b m.token
  | fieldBinding {i : ObjectImplementation ω} (hi : .implementation i ∈ b.components)
    {declared : List (String × Resolver ω)} (hd : i.resolvers = .ofList declared) {name : String}
    {r : Resolver ω} (hr : (name, r) ∈ declared) {m : Binding ω} (hm : m ∈ r.bindings)
    {p : Provider ω} (hp : m.provider = some p) (ht : p.token = m.token) : Brings b m.token

theorem Binding.mem_providers {bindings : List (Binding ω)} {m : Binding ω} (hm : m ∈ bindings)
    {p : Provider ω} (hp : m.provider = some p) : p ∈ Binding.providers bindings :=
  List.mem_filterMap.2 ⟨m, hm, hp⟩

namespace Blueprint

variable {b : Blueprint ω} {overrides : List (Provider ω)} {t : Token}

theorem chosen?_isSome_of_mem {c : Component ω} (hc : c ∈ b.components) {p : Provider ω}
    (hp : p ∈ c.providers) : (b.chosen? overrides p.token).isSome := by
  rw [← find?_offered, Provider.find?_isSome_iff]
  refine List.mem_map_of_mem (List.mem_append_right _ (List.mem_append_right _ ?_))
  exact List.mem_flatMap.2 ⟨c, hc, hp⟩

/-- What is brought has a provider, once no implementation repeats a resolver. -/
theorem Brings.chosen? (h : b.Brings t)
    (hd : ∀ i, .implementation i ∈ b.components → i.resolvers.duplicates = []) :
    (b.chosen? overrides t).isSome := by
  cases h with
  | implementation hi hp ht =>
    rw [← ht]
    refine chosen?_isSome_of_mem hi (List.mem_append_left _ (List.mem_append_left _ ?_))
    rw [hp]
    exact List.mem_singleton_self _
  | codec hs hp ht =>
    rw [← ht]
    refine chosen?_isSome_of_mem hs ?_
    rw [Component.providers, hp]
    exact List.mem_singleton_self _
  | typeBinding hi hm hp ht =>
    rw [← ht]
    refine chosen?_isSome_of_mem hi (List.mem_append_left _ (List.mem_append_right _ ?_))
    exact Binding.mem_providers hm hp
  | @fieldBinding i hi declared heq name r hr m hm p hp ht =>
    have hentries : i.resolvers.entries = declared := by
      have hnone := hd i hi
      rw [heq] at hnone ⊢
      exact Members.entries_ofList hnone
    rw [← ht]
    refine chosen?_isSome_of_mem hi (List.mem_append_right _ (List.mem_flatMap.2 ⟨r, ?_, ?_⟩))
    · rw [hentries]
      exact mem_values.2 ⟨name, hr⟩
    · exact Binding.mem_providers hm hp

/-! ## Schemas -/

section Schemas

variable {r : Registry ω} {w : Workshop ω} {c : Configuration} {g : Graph ω} {t : Declarations ω}

theorem scalar_unregistered {s : ScalarDefinition ω} (hs : s ∈ b.parts.scalars) :
    b.Scalar r (fun _ => True) (fun e => ∀ e', e ≠ .registration e') True s := by
  intro w _
  refine ⟨?_, trivial⟩
  rw [Declaration.ofScalar]
  refine Verdict.bind_apply (P := fun _ => True) ?_ fun i _ => ?_
  · rw [adapt_apply]
    cases (r.resolve s.codec w).1 with
    | ok i => exact .ok trivial
    | error e => exact .error fun _ h => by cases h
  · cases i.asCodec? with
    | some c => exact .ok ⟨⟨rfl, rfl, .scalar hs c⟩, trivial⟩
    | none => exact .error fun _ h => by cases h

/-- An assembly registers nothing. -/
theorem assemble_unregistered (b : Blueprint ω) (r : Registry ω) (w : Workshop ω)
    (c : Configuration) :
    Verdict (fun _ => True) (fun e => ∀ e', e ≠ .registration e') ((b.assemble r c) w).1 := by
  have hviolation : ∀ e, b.Violation r w e → ∀ e', e ≠ .registration e' := by
    intro e he e' h
    subst h
    cases he
  refine Verdict.bind_apply (P := fun t => b.Table b.declaredTypes t)
    ((ofParts_verdict_of hviolation (fun _ => scalar_unregistered) trivial).mono fun _ h => h.1) ?_
  intro t ht
  rw [lift_apply]
  have hlink : Verdict (fun _ => True) (b.Violation r w) (b.link t c) :=
    ht.checkAll.bind fun _ _ => ht.checkRoots.bind fun _ _ => .ok trivial
  exact hlink.mono_error hviolation

theorem Assembled.duplicates (h : b.Assembled c g t) {i : ObjectImplementation ω}
    (hi : .implementation i ∈ b.components) : i.resolvers.duplicates = [] := by
  have hparts : i ∈ b.parts.implementations := List.mem_filterMap.2 ⟨_, hi, rfl⟩
  have hname : i.name ∈ b.objectNames :=
    mem_firstOccurrences.2 (List.mem_append_right _ (List.mem_map_of_mem hparts))
  refine Members.nodup_declared_iff.1 ((h.objectFields _ hname).sublist ?_)
  refine .trans ?_ (List.sublist_append_right _ _)
  rw [List.flatMap_def]
  refine List.sublist_flatten_of_mem (List.mem_map_of_mem (List.mem_filter.2 ⟨hparts, ?_⟩))
  exact decide_eq_true rfl

end Schemas

end Blueprint

namespace Schema

variable {b : Blueprint ω} {overrides : List (Provider ω)} {c : Configuration}

theorem withRegistry_unregistered (b : Blueprint ω) (r : Registry ω) (c : Configuration)
    (w : Workshop ω) : Verdict (fun s => s.registry = r ∧ ∃ t, b.Assembled c s.graph t)
      (fun e => ∀ e', e ≠ .registration e') ((withRegistry b r c) w).1 := by
  have hassemble := Blueprint.assemble_unregistered b r w c
  rw [withRegistry, bind_apply]
  rcases hanswer : (b.assemble r c) w with ⟨e | g, w'⟩
  · rw [hanswer] at hassemble
    exact .error (hassemble.of_eq_error rfl)
  · exact .ok ⟨rfl, Blueprint.exists_assembled (congrArg Prod.fst hanswer)⟩

/-- The registry has the provider that is chosen for each token, and no other. -/
def Serves (b : Blueprint ω) (overrides : List (Provider ω)) (r : Registry ω) : Prop :=
  ∀ t, r.providers.filter (·.token = t) = (b.chosen? overrides t).toList

theorem serves_of_providers {r : Registry ω} (hr : r.providers = b.providersWith overrides)
    (hnodup : ((b.providersWith overrides).map (·.token)).Nodup) : Serves b overrides r := by
  intro t
  rw [hr, Provider.filter_eq_toList_find? hnodup, Blueprint.find?_providersWith]

theorem Serves.contains {r : Registry ω} (h : Serves b overrides r) {t : Token}
    (ht : (b.chosen? overrides t).isSome) : r.contains t := by
  obtain ⟨p, hp⟩ := Option.isSome_iff_exists.1 ht
  have hmem : p ∈ r.providers.filter (·.token = t) := by
    rw [h t, hp]
    exact List.mem_singleton_self p
  obtain ⟨hmem, htoken⟩ := List.mem_filter.1 hmem
  exact List.find?_isSome.2 ⟨p, hmem, htoken⟩

/-- Providers are refused for two overrides of one token, or for an empty token. A schema goes on
otherwise with a registry in which each token has the provider that is chosen for it, and once it is
there, whatever its components bring is registered. -/
theorem withProviders_registers (b : Blueprint ω) (overrides : List (Provider ω))
    (c : Configuration) (w : Workshop ω) :
    ((∃ e, ((withProviders b overrides c) w).1 = .error (.registration e)) ↔
        ¬(overrides.map (·.token)).Nodup ∨ (b.chosen? overrides ⟨""⟩).isSome) ∧
      ((∀ e, ((withProviders b overrides c) w).1 ≠ .error (.registration e)) →
        ∃ r, withProviders b overrides c = withRegistry b r c ∧ Serves b overrides r) ∧
      ∀ s, ((withProviders b overrides c) w).1 = .ok s →
        Serves b overrides s.registry ∧ ∀ t, b.Brings t → s.registry.contains t := by
  rw [← Blueprint.refusal_iff]
  have hverdict := Registry.ofProviders_verdict (b.providersWith overrides)
  cases hof : Registry.ofProviders (b.providersWith overrides) with
  | error e =>
    have heq : withProviders b overrides c = throw (.registration e) := by
      rw [withProviders, hof]
    rw [heq]
    refine ⟨⟨fun _ => ⟨e, hverdict.of_eq_error hof⟩, fun _ => ⟨e, rfl⟩⟩, fun h => ?_, nofun⟩
    exact absurd rfl (h e)
  | ok r =>
    have heq : withProviders b overrides c = withRegistry b r c := by rw [withProviders, hof]
    obtain ⟨hr, hnodup, hempty⟩ := hverdict.of_eq_ok hof
    have hserves : Serves b overrides r := serves_of_providers hr hnodup
    have hregistry := withRegistry_unregistered b r c w
    rw [heq]
    refine ⟨⟨?_, ?_⟩, fun _ => ⟨r, rfl, hserves⟩, fun s hs => ?_⟩
    · rintro ⟨e, he⟩
      exact absurd rfl (hregistry.of_eq_error he e)
    · rintro ⟨e, he⟩
      cases he with
      | emptyToken hp h => exact absurd h (by rw [hempty _ hp]; exact Bool.false_ne_true)
      | duplicateToken h => exact absurd hnodup h.not_nodup
    · obtain ⟨rfl, t, hassembled⟩ := hregistry.of_eq_ok hs
      refine ⟨hserves, fun t ht => hserves.contains (ht.chosen? fun i hi => ?_)⟩
      exact hassembled.duplicates hi

/-- Users, who are audited when they ask for themselves and authorized for anything else. -/
def guarded : Blueprint Unit where
  rootQuery := "Query"
  components := [.implementation {
    name := "Query"
    instanceToken := ⟨"Users"⟩
    resolvers := .ofList [("me", {
      name := "me"
      field := { typeName := "String" }
      instanceToken := ⟨"Users"⟩
      parameters := []
      bindings := [bringing "Audit"]
      method := fun _ _ => pure (.ok .null) })]
    bindings := [bringing "Auth"]
    provider := some (held "Users") }]
where
  held (name : String) : Provider Unit := ⟨⟨name⟩, .value ⟨0, .held name .null⟩⟩
  bringing (name : String) : Binding Unit := { token := ⟨name⟩, provider := some (held name) }

example : ((withProviders guarded [guarded.held "Auth", guarded.held "Clock"] {}
    ⟨[], ()⟩).1.toOption.map fun s => s.registry.providers.map (·.token.name)) =
      some ["Auth", "Clock", "Users", "Audit"] := rfl

end Schema

end GraphAssembly
