import GraphAssembly.Registry
import Mathlib.Data.List.Forall2

/-!
# What a token resolves to

A registry keeps what it has made, and its factories share a state, so the answer for a token might
depend on what was asked before. If the factories are deterministic, it does not.

1. `Alike`: answers that are the same up to the identity of instances, and deterministic registries.
2. `answerFrom`: the answer of a registry that keeps nothing.
3. `Keeps`: what is kept is what would be made again.
4. `Reached`: the states of a registry in use, and `resolve_alike`.
-/

namespace GraphAssembly

variable {ω ε α β γ δ σ : Type}

/-! ## Answers that are the same -/

/-- Both fail with the same error, or both succeed with related results. -/
inductive Alike (R : α → β → Prop) : Except ε α → Except ε β → Prop
  | ok {a : α} {b : β} (h : R a b) : Alike R (.ok a) (.ok b)
  | error (e : ε) : Alike R (.error e) (.error e)

/-- The same instance, up to its identity. -/
def Instance.Same (i j : Instance ω) : Prop := i.content = j.content

namespace Alike

variable {R : α → β → Prop} {x : Except ε α} {y : Except ε β}

theorem bind {S : γ → δ → Prop} {f : α → Except ε γ} {g : β → Except ε δ} (h : Alike R x y)
    (hfg : ∀ a b, R a b → Alike S (f a) (g b)) : Alike S (x >>= f) (y >>= g) := by
  cases h with
  | ok h => exact hfg _ _ h
  | error e => exact .error e

theorem eq_error {e : ε} (h : Alike R (.error e) y) : y = .error e := by
  cases h
  rfl

theorem exists_ok {a : α} (h : Alike R (.ok a) y) : ∃ b, y = .ok b ∧ R a b := by
  cases h with
  | ok h => exact ⟨_, rfl, h⟩

theorem mapError {ε' : Type} (h : Alike R x y) (f : ε → ε') :
    Alike R (x.mapError f) (y.mapError f) := by
  cases h with
  | ok h => exact .ok h
  | error e => exact .error (f e)

/-- Two answers that are both like a third one. -/
theorem of_same {x y z : Except ε (Instance ω)} (h : Alike Instance.Same x z)
    (h' : Alike Instance.Same y z) : Alike Instance.Same x y := by
  cases h with
  | ok h =>
    cases h' with
    | ok h' => exact .ok (h.trans h'.symm)
  | error e =>
    cases h' with
    | error => exact .error e

end Alike

theorem Instance.Same.asCodec? {i j : Instance ω} (h : i.Same j) : i.asCodec? = j.asCodec? := by
  rw [Instance.asCodec?, Instance.asCodec?, show i.content = j.content from h]

def Dependencies.Same : Dependencies ω → Dependencies ω → Prop :=
  List.Forall₂ fun d d' => d.1 = d'.1 ∧ d.2.Same d'.2

namespace Registry

/-- What a factory makes depends on its dependencies only. -/
def Deterministic (r : Registry ω) : Prop :=
  ∀ p ∈ r.providers, ∀ dependencies build, p.source = .factory dependencies build →
    ∀ ds ds' u u', ds.Same ds' → Alike Instance.Same (build ds u).1 (build ds' u').1

/-! ## Answers without memory -/

/-- What is made for a token in some fixed state, out of answers for its dependencies. -/
def made (u : ω) (dependency : Token → Except ResolutionError (Instance ω)) (t : Token) :
    Source ω → Except ResolutionError (Instance ω)
  | .value i => .ok i
  | .factory dependencies build => do
    let resolved ← dependencies.mapM fun d => do
      pure (d, ← (dependency d).mapError (.dependencyFailed t))
    (build resolved u).1.mapError (.factoryFailed t)

/-- The answer for a token when nothing is kept. -/
def answerFrom (r : Registry ω) (u : ω) (chain : List Token) (t : Token) :
    Except ResolutionError (Instance ω) :=
  match (r.provider? t).attach with
  | none => .error (.unknownToken t)
  | some ⟨p, hp⟩ =>
    if ht : t ∈ chain then .error (.cyclicDependency (chain ++ [t]))
    else
      have _shrinks := r.idle_append_length_lt chain hp ht
      made u (fun d => answerFrom r u (chain ++ [t]) d) t p.source
termination_by (r.idle chain).length
decreasing_by exact _shrinks

section Equations

variable {r : Registry ω} {u : ω} {chain : List Token} {t : Token} {p : Provider ω}

theorem answerFrom_unknown (hp : r.provider? t = none) :
    r.answerFrom u chain t = .error (.unknownToken t) := by
  have h : (r.provider? t).attach = none := by simpa
  rw [answerFrom, h]

theorem answerFrom_cyclic (hp : r.provider? t = some p) (ht : t ∈ chain) :
    r.answerFrom u chain t = .error (.cyclicDependency (chain ++ [t])) := by
  have h : (r.provider? t).attach = some ⟨p, hp⟩ := by simpa
  rw [answerFrom, h]
  exact dif_pos ht

theorem answerFrom_new (hp : r.provider? t = some p) (ht : t ∉ chain) :
    r.answerFrom u chain t = made u (r.answerFrom u (chain ++ [t])) t p.source := by
  have h : (r.provider? t).attach = some ⟨p, hp⟩ := by simpa
  rw [answerFrom, h]
  exact dif_neg ht

end Equations

/-! ## Runs of a resolution -/

section Equations

variable {r : Registry ω} {chain : List Token} {t : Token} {p : Provider ω} {w : Workshop ω}

theorem runFactory_apply (build : StateM ω (Except String (Instance ω))) :
    runFactory t build w =
      ((build w.user).1.mapError (.factoryFailed t), { w with user := (build w.user).2 }) := by
  have hget : (get : Resolving ω (Workshop ω)) w = (.ok w, w) := rfl
  rw [runFactory, bind_apply, hget]
  dsimp only
  rcases build w.user with ⟨_ | _, u⟩ <;> rfl

theorem dependency_apply (d : Token) (m : Resolving ω (Instance ω)) :
    (do pure (d, ← asDependency t m) : Resolving ω (Token × Instance ω)) w =
      (((m w).1.mapError (.dependencyFailed t)).map (d, ·), (m w).2) := by
  rw [bind_apply, show asDependency t m w = ((m w).1.mapError _, (m w).2) from rfl]
  rcases m w with ⟨_ | _, w'⟩ <;> rfl

theorem resolveFrom_unknown (hp : r.provider? t = none) :
    r.resolveFrom chain t w = (.error (.unknownToken t), w) := by
  have h : (r.provider? t).attach = none := by simpa
  rw [resolveFrom, h]
  rfl

theorem resolveFrom_apply (hp : r.provider? t = some p) :
    r.resolveFrom chain t w =
      match w.instance? t with
      | some i => (.ok i, w)
      | none =>
        if t ∈ chain then (.error (.cyclicDependency (chain ++ [t])), w)
        else match make (r.resolveFrom (chain ++ [t])) t p.source w with
          | (.ok i, w') => (.ok i, w'.keep t i)
          | (.error e, w') => (.error e, w') := by
  have h : (r.provider? t).attach = some ⟨p, hp⟩ := by simpa
  have hget : (get : Resolving ω (Workshop ω)) w = (.ok w, w) := rfl
  rw [resolveFrom, h]
  dsimp only
  rw [bind_apply, hget]
  dsimp only
  cases w.instance? t with
  | some i => rfl
  | none =>
    by_cases ht : t ∈ chain
    · simp only [dif_pos ht, if_pos ht]
      rfl
    · simp only [dif_neg ht, if_neg ht]
      rw [bind_apply]
      rcases make (r.resolveFrom (chain ++ [t])) t p.source w with ⟨_ | _, w'⟩ <;> rfl

theorem resolveFrom_kept {i : Instance ω} (hp : r.provider? t = some p)
    (hi : w.instance? t = some i) : r.resolveFrom chain t w = (.ok i, w) := by
  rw [resolveFrom_apply hp, hi]

theorem resolveFrom_cyclic (hp : r.provider? t = some p) (hi : w.instance? t = none)
    (ht : t ∈ chain) :
    r.resolveFrom chain t w = (.error (.cyclicDependency (chain ++ [t])), w) := by
  rw [resolveFrom_apply hp, hi]
  exact if_pos ht

theorem resolveFrom_new (hp : r.provider? t = some p) (hi : w.instance? t = none)
    (ht : t ∉ chain) : r.resolveFrom chain t w =
      match make (r.resolveFrom (chain ++ [t])) t p.source w with
      | (.ok i, w') => (.ok i, w'.keep t i)
      | (.error e, w') => (.error e, w') := by
  rw [resolveFrom_apply hp, hi]
  exact if_neg ht

end Equations

end Registry

/-! ## What is kept -/

namespace Workshop

variable {w w' : Workshop ω} {t s : Token} {i j : Instance ω}

theorem instance?_keep : (w.keep t i).instance? s =
    (w.instance? s).or (if s = t then some i else none) := by
  simp only [keep, instance?, List.lookup_append, List.lookup_cons, List.lookup_nil]
  by_cases h : s = t
  · simp [h]
  · simp [h, beq_eq_false_iff_ne.2 h]

theorem instance?_keep_of_ne (h : s ≠ t) : (w.keep t i).instance? s = w.instance? s := by
  rw [instance?_keep, if_neg h, Option.or_none]

theorem instance?_keep_self (h : w.instance? t = none) : (w.keep t i).instance? t = some i := by
  rw [instance?_keep, h, Option.none_or, if_pos rfl]

/-- Whatever was kept is kept. -/
def Extends (w w' : Workshop ω) : Prop := ∀ t i, w.instance? t = some i → w'.instance? t = some i

/-- Nothing is kept for the tokens. -/
def Lacks (w : Workshop ω) (chain : List Token) : Prop := ∀ t ∈ chain, w.instance? t = none

theorem extends_keep (w : Workshop ω) (t : Token) (i : Instance ω) : w.Extends (w.keep t i) := by
  intro s j h
  rw [instance?_keep, h, Option.some_or]

theorem Extends.lacks (h : w.Extends w') {chain : List Token} (hl : w'.Lacks chain) :
    w.Lacks chain := by
  intro t ht
  cases hw : w.instance? t with
  | none => rfl
  | some i =>
    have := hl t ht
    rw [h t i hw] at this
    cases this

theorem Lacks.append_single {chain : List Token} (h : w.Lacks chain) (ht : w.instance? t = none) :
    w.Lacks (chain ++ [t]) := by
  intro s hs
  rcases List.mem_append.1 hs with hs | hs
  · exact h s hs
  · rwa [List.mem_singleton.1 hs]

end Workshop

namespace Registry

/-- Whatever is kept would be made again, unless something it depends on were under construction. -/
def Keeps (r : Registry ω) (u : ω) (w : Workshop ω) : Prop :=
  ∀ t i, w.instance? t = some i → ∀ chain, w.Lacks chain →
    Alike Instance.Same (.ok i) (r.answerFrom u chain t)

/-- What holds between the states before and after a resolution within a chain. -/
structure Goes (r : Registry ω) (u : ω) (chain : List Token) (w w' : Workshop ω) : Prop where
  keeps : r.Keeps u w'
  lacks : w'.Lacks chain
  onward : w.Extends w'

/-- The answer is the one without memory, and it is kept. -/
structure Answered (r : Registry ω) (u : ω) (chain : List Token) (t : Token) (w : Workshop ω)
    (answer : Except ResolutionError (Instance ω) × Workshop ω) : Prop extends
    Goes r u chain w answer.2 where
  alike : Alike Instance.Same answer.1 (r.answerFrom u chain t)
  kept : ∀ i, answer.1 = .ok i → answer.2.instance? t = some i

/-- The same for the dependencies of a factory. -/
structure AllAnswered (r : Registry ω) (u : ω) (chain : List Token) (t : Token) (ts : List Token)
    (w : Workshop ω) (answer : Except ResolutionError (Dependencies ω) × Workshop ω) : Prop extends
    Goes r u chain w answer.2 where
  alike : Alike Dependencies.Same answer.1 (ts.mapM fun d => do
    pure (d, ← (r.answerFrom u chain d).mapError (.dependencyFailed t)))
  kept : ∀ ds, answer.1 = .ok ds →
    List.Forall₂ (fun d x => x.1 = d ∧ answer.2.instance? d = some x.2) ts ds

section Steps

variable {r : Registry ω} {u : ω} {chain : List Token} {t : Token} {w : Workshop ω}

theorem Goes.refl (hw : r.Keeps u w) (hl : w.Lacks chain) : Goes r u chain w w :=
  ⟨hw, hl, fun _ _ h => h⟩

theorem Goes.trans {w' w'' : Workshop ω} (h : Goes r u chain w w') (h' : Goes r u chain w' w'') :
    Goes r u chain w w'' :=
  ⟨h'.keeps, h'.lacks, fun t i hi => h'.onward t i (h.onward t i hi)⟩

theorem allAnswered (ts : List Token)
    (ih : ∀ d ∈ ts, ∀ w, r.Keeps u w → w.Lacks chain →
      Answered r u chain d w (r.resolveFrom chain d w))
    (hw : r.Keeps u w) (hl : w.Lacks chain) :
    AllAnswered r u chain t ts w ((ts.mapM fun d => do
      pure (d, ← asDependency t (r.resolveFrom chain d)) : Resolving ω (Dependencies ω)) w) := by
  induction ts generalizing w with
  | nil =>
    refine ⟨.refl hw hl, .ok .nil, ?_⟩
    intro ds hds
    cases hds
    exact .nil
  | cons d ts ihts =>
    have hd := ih d List.mem_cons_self w hw hl
    rw [List.mapM_cons, bind_apply, dependency_apply]
    rcases hanswer : r.resolveFrom chain d w with ⟨e | i, w'⟩
    · rw [hanswer] at hd
      refine ⟨hd.toGoes, ?_, nofun⟩
      rw [List.mapM_cons, hd.alike.eq_error]
      exact .error _
    · rw [hanswer] at hd
      have hrest := ihts (fun d hd => ih d (List.mem_cons_of_mem _ hd)) hd.keeps hd.lacks
      dsimp only [Except.mapError, Except.map]
      rw [bind_apply]
      rcases hanswers : (ts.mapM fun d => do
        pure (d, ← asDependency t (r.resolveFrom chain d)) : Resolving ω (Dependencies ω)) w'
        with ⟨e | ds, w''⟩
      · rw [hanswers] at hrest
        refine ⟨hd.toGoes.trans hrest.toGoes, ?_, nofun⟩
        obtain ⟨j, hj, -⟩ := hd.alike.exists_ok
        rw [List.mapM_cons, hj, hrest.alike.eq_error]
        exact .error _
      · rw [hanswers] at hrest
        refine ⟨hd.toGoes.trans hrest.toGoes, ?_, ?_⟩
        · obtain ⟨j, hj, hij⟩ := hd.alike.exists_ok
          obtain ⟨ds', hds', hsame⟩ := hrest.alike.exists_ok
          rw [List.mapM_cons, hj, hds']
          exact .ok (.cons ⟨rfl, hij⟩ hsame)
        · intro ds' hds
          cases hds
          exact .cons ⟨rfl, hrest.onward d i (hd.kept i rfl)⟩ (hrest.kept ds rfl)

/-- Dependencies that are alike give instances that are alike. -/
theorem made_alike (hr : r.Deterministic) {p : Provider ω} (hp : p ∈ r.providers)
    {dependencies : List Token} {build : Dependencies ω → StateM ω (Except String (Instance ω))}
    (hs : p.source = .factory dependencies build)
    {answer : Token → Except ResolutionError (Instance ω)}
    {x : Except ResolutionError (Dependencies ω)}
    (hx : Alike Dependencies.Same x (dependencies.mapM fun d => do
      pure (d, ← (answer d).mapError (.dependencyFailed t)))) (u' : ω) :
    Alike Instance.Same (x >>= fun ds => (build ds u').1.mapError (.factoryFailed t))
      (made u answer t p.source) := by
  rw [hs]
  exact hx.bind fun ds ds' hds => (hr p hp _ _ hs ds ds' u' u hds).mapError _

/-- What is kept for dependencies is what would be made for them. -/
theorem alike_of_kept (hw : r.Keeps u w) {ts : List Token} {ds : Dependencies ω}
    (h : List.Forall₂ (fun d x => x.1 = d ∧ w.instance? d = some x.2) ts ds)
    (hl : w.Lacks chain) : Alike Dependencies.Same (.ok ds) (ts.mapM fun d => do
      pure (d, ← (r.answerFrom u chain d).mapError (ResolutionError.dependencyFailed t))) := by
  induction h with
  | nil => exact .ok .nil
  | @cons d x ts ds hx _ ih =>
    obtain ⟨j, hj, hsame⟩ := (hw d x.2 hx.2 chain hl).exists_ok
    obtain ⟨ds', hds', hsames⟩ := ih.exists_ok
    rw [List.mapM_cons, hj, hds']
    exact .ok (.cons ⟨hx.1, hsame⟩ hsames)

theorem made_answered (hr : r.Deterministic) {p : Provider ω} (hp : p ∈ r.providers)
    (ih : ∀ d w, r.Keeps u w → w.Lacks chain →
      Answered r u chain d w (r.resolveFrom chain d w))
    (hw : r.Keeps u w) (hl : w.Lacks chain) :
    let answer := make (r.resolveFrom chain) t p.source w
    Goes r u chain w answer.2 ∧
      Alike Instance.Same answer.1 (made u (r.answerFrom u chain) t p.source) ∧
      ∀ i, answer.1 = .ok i → ∀ chain', answer.2.Lacks chain' →
        Alike Instance.Same (.ok i) (made u (r.answerFrom u chain') t p.source) := by
  cases hs : p.source with
  | value i =>
    refine ⟨.refl hw hl, .ok rfl, fun j hj _ _ => ?_⟩
    cases hj
    exact .ok rfl
  | factory dependencies build =>
    have hall := allAnswered (t := t) dependencies (fun d _ => ih d) hw hl
    dsimp only [make]
    rw [bind_apply, ← hs]
    rcases hanswers : (dependencies.mapM fun d => do
      pure (d, ← asDependency t (r.resolveFrom chain d)) : Resolving ω (Dependencies ω)) w
      with ⟨e | ds, w'⟩
    · rw [hanswers] at hall
      exact ⟨hall.toGoes, made_alike hr hp hs hall.alike w.user, nofun⟩
    · rw [hanswers] at hall
      dsimp only
      rw [runFactory_apply]
      refine ⟨⟨hall.keeps, hall.lacks, hall.onward⟩, made_alike hr hp hs hall.alike w'.user, ?_⟩
      intro i hi chain' hl'
      have := made_alike (u := u) (t := t) hr hp hs
        (alike_of_kept hall.keeps (hall.kept ds rfl) hl') w'.user
      exact hi ▸ this

/-- An instance that would be made again may be kept. -/
theorem Keeps.keep (hw : r.Keeps u w) {p : Provider ω} (hp : r.provider? t = some p)
    (hnew : w.instance? t = none) {i : Instance ω}
    (hi : ∀ chain', w.Lacks chain' →
      Alike Instance.Same (.ok i) (made u (r.answerFrom u chain') t p.source)) :
    r.Keeps u (w.keep t i) := by
  intro s j hs chain' hl'
  have hold := (w.extends_keep t i).lacks hl'
  by_cases h : s = t
  · subst h
    rw [Workshop.instance?_keep_self hnew] at hs
    cases hs
    -- the token is kept now, so it is not among those under construction
    have hs_chain' : s ∉ chain' := fun hmem => by
      have := (Workshop.instance?_keep_self hnew).symm.trans (hl' s hmem)
      cases this
    rw [answerFrom_new hp hs_chain']
    exact hi _ (hold.append_single hnew)
  · rw [Workshop.instance?_keep_of_ne h] at hs
    exact hw s j hs chain' hold

theorem resolveFrom_answered (hr : r.Deterministic) (chain : List Token) (t : Token)
    (w : Workshop ω) (hw : r.Keeps u w) (hl : w.Lacks chain) :
    Answered r u chain t w (r.resolveFrom chain t w) := by
  cases hp : r.provider? t with
  | none =>
    rw [resolveFrom_unknown hp]
    refine ⟨.refl hw hl, ?_, nofun⟩
    rw [answerFrom_unknown hp]
    exact .error _
  | some p =>
    cases hi : w.instance? t with
    | some i =>
      rw [resolveFrom_kept hp hi]
      refine ⟨.refl hw hl, hw t i hi chain hl, fun j hj => ?_⟩
      cases hj
      exact hi
    | none =>
      by_cases ht : t ∈ chain
      · rw [resolveFrom_cyclic hp hi ht]
        refine ⟨.refl hw hl, ?_, nofun⟩
        rw [answerFrom_cyclic hp ht]
        exact .error _
      · have _shrinks := r.idle_append_length_lt chain hp ht
        obtain ⟨hgoes, halike, hlater⟩ := made_answered (t := t) hr (List.mem_of_find?_eq_some hp)
          (fun d w hw hl => resolveFrom_answered hr (chain ++ [t]) d w hw hl) hw
          (hl.append_single hi)
        rw [resolveFrom_new hp hi ht]
        rcases hmake : make (r.resolveFrom (chain ++ [t])) t p.source w with ⟨e | i, w'⟩
        · rw [hmake] at hgoes halike
          refine ⟨⟨hgoes.keeps, fun c hc => hgoes.lacks c (List.mem_append_left _ hc),
            hgoes.onward⟩, ?_, nofun⟩
          rw [answerFrom_new hp ht]
          exact halike
        · rw [hmake] at hgoes halike hlater
          have hnew : w'.instance? t = none := hgoes.lacks t (by simp)
          -- later chains differ from this one: `hlater` has the instance right for all of them
          refine ⟨⟨hgoes.keeps.keep hp hnew (hlater i rfl), fun c hc => ?_, ?_⟩, ?_, ?_⟩
          · have hne : c ≠ t := fun h => ht (h ▸ hc)
            rw [Workshop.instance?_keep_of_ne hne]
            exact hgoes.lacks c (List.mem_append_left _ hc)
          · exact fun s j hs => w'.extends_keep t i s j (hgoes.onward s j hs)
          · rw [answerFrom_new hp ht]
            exact halike
          · intro j hj
            cases hj
            exact Workshop.instance?_keep_self hnew
termination_by (r.idle chain).length
decreasing_by exact _shrinks

end Steps

/-! ## A registry in use -/

/-- The states of a registry that has been asked for tokens, while the code behind its instances has
done whatever it does to its own state. -/
inductive Reached (r : Registry ω) : Workshop ω → Prop
  | fresh (u : ω) : Reached r ⟨[], u⟩
  | asked {w : Workshop ω} (h : Reached r w) (t : Token) : Reached r (r.resolve t w).2
  | used {w : Workshop ω} (h : Reached r w) (u : ω) : Reached r { w with user := u }

variable {r : Registry ω}

theorem Reached.keeps (hr : r.Deterministic) {w : Workshop ω} (h : r.Reached w) (u : ω) :
    r.Keeps u w := by
  induction h with
  | fresh v => exact fun t i hi => nomatch hi
  | asked h t ih => exact (resolveFrom_answered hr [] t _ ih nofun).keeps
  | used h v ih => exact ih

/-- The answer for a token does not depend on what the registry has been used for. -/
theorem resolve_alike (hr : r.Deterministic) {w w' : Workshop ω} (h : r.Reached w)
    (h' : r.Reached w') (t : Token) :
    Alike Instance.Same (r.resolve t w).1 (r.resolve t w').1 := by
  have hw := resolveFrom_answered hr [] t w (h.keeps hr w.user) nofun
  have hw' := resolveFrom_answered hr [] t w' (h'.keeps hr w.user) nofun
  exact hw.alike.of_same hw'.alike

end Registry

end GraphAssembly
