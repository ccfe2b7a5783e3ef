import GraphAssembly.Proofs.Registry.Log
import Mathlib.Data.List.Induction

/-!
# The history of a registry

A registry is asked for tokens again and again. Whatever it has been asked before, and whether it
succeeded or failed, an answer is the one of a registry that keeps nothing; what differs is only
that each instance is made once.

1. `remake`: an instance is made without a look at what is kept, and is not kept.
2. `History`: what a registry has been asked, and what it has done for that.
3. `history_transparent`: the answers, the instances and the runs of factories after any history.
-/

namespace GraphAssembly.Registry

open Work

variable {ω : Type}

/-! ## Making everything again -/

/-- The instance of a token, made by itself: all it depends on is made as often as it is asked
for. -/
def remakeFrom (r : Registry ω) (chain : List Token) (t : Token) : Resolving ω (Instance ω) :=
  match (r.provider? t).attach with
  | none => throw (.unknownToken t)
  | some ⟨p, hp⟩ =>
    if ht : t ∈ chain then throw (.cyclicDependency (chain ++ [t]))
    else
      have _shrinks := r.idle_append_length_lt chain hp ht
      make (fun d => remakeFrom r (chain ++ [t]) d) t p.source
termination_by (r.idle chain).length
decreasing_by exact _shrinks

def remake (r : Registry ω) (t : Token) : Resolving ω (Instance ω) := r.remakeFrom [] t

section Remaking

variable {r : Registry ω} {u : ω} {chain : List Token} {t : Token} {p : Provider ω} {w : Workshop ω}

theorem remakeFrom_unknown (hp : r.provider? t = none) :
    r.remakeFrom chain t w = (.error (.unknownToken t), w) := by
  have h : (r.provider? t).attach = none := by simpa
  rw [remakeFrom, h]
  rfl

theorem remakeFrom_cyclic (hp : r.provider? t = some p) (ht : t ∈ chain) :
    r.remakeFrom chain t w = (.error (.cyclicDependency (chain ++ [t])), w) := by
  have h : (r.provider? t).attach = some ⟨p, hp⟩ := by simpa
  rw [remakeFrom, h]
  dsimp only
  rw [dif_pos ht]
  rfl

theorem remakeFrom_new (hp : r.provider? t = some p) (ht : t ∉ chain) :
    r.remakeFrom chain t = make (r.remakeFrom (chain ++ [t])) t p.source := by
  have h : (r.provider? t).attach = some ⟨p, hp⟩ := by simpa
  rw [remakeFrom, h]
  exact dif_neg ht

theorem mapM_alike {α β γ : Type} {R : β → γ → Prop} {f : α → Resolving ω β}
    {g : α → Except ResolutionError γ} (h : ∀ a w, Alike R (f a w).1 (g a)) (as : List α) :
    Alike (List.Forall₂ R) (as.mapM f w).1 (as.mapM g) := by
  induction as generalizing w with
  | nil => exact .ok .nil
  | cons a as ih =>
    have ha := h a w
    rw [mapM_cons_apply, List.mapM_cons]
    generalize f a w = answer at ha ⊢
    rcases answer with ⟨e | b, w'⟩
    · rw [ha.eq_error]
      exact .error e
    · obtain ⟨c, hc, hbc⟩ := ha.exists_ok
      have hrest := ih (w := w')
      rw [hc]
      dsimp only
      generalize as.mapM f w' = answers at hrest ⊢
      rcases answers with ⟨e | bs, w''⟩
      · rw [hrest.eq_error]
        exact .error e
      · obtain ⟨cs, hcs, hall⟩ := hrest.exists_ok
        rw [hcs]
        exact .ok (.cons hbc hall)

theorem dependency_alike {m : Resolving ω (Instance ω)} {x : Except ResolutionError (Instance ω)}
    (h : Alike Instance.Same (m w).1 x) (d : Token) :
    Alike (fun y z : Token × Instance ω => y.1 = z.1 ∧ y.2.Same z.2)
      ((do pure (d, ← asDependency t m) : Resolving ω (Token × Instance ω)) w).1
      (do pure (d, ← x.mapError (.dependencyFailed t))) := by
  rw [dependency_apply]
  generalize (m w).1 = answer at h ⊢
  cases h with
  | ok h => exact .ok ⟨rfl, h⟩
  | error e => exact .error _

theorem remakeFrom_alike (hr : r.Deterministic) (chain : List Token) (t : Token) (w : Workshop ω) :
    Alike Instance.Same (r.remakeFrom chain t w).1 (r.answerFrom u chain t) := by
  cases hp : r.provider? t with
  | none =>
    rw [remakeFrom_unknown hp, answerFrom_unknown hp]
    exact .error _
  | some p =>
    by_cases ht : t ∈ chain
    · rw [remakeFrom_cyclic hp ht, answerFrom_cyclic hp ht]
      exact .error _
    · have _shrinks := r.idle_append_length_lt chain hp ht
      rw [remakeFrom_new hp ht, answerFrom_new hp ht]
      cases hs : p.source with
      | value i => exact .ok rfl
      | factory dependencies build =>
        have hall := mapM_alike (w := w)
          (fun d w => dependency_alike (t := t) (remakeFrom_alike hr (chain ++ [t]) d w) d)
          dependencies
        have hmade := made_alike (u := u) (t := t) hr (List.mem_of_find?_eq_some hp) hs hall
        rw [make, bind_apply, ← hs]
        rcases hds : (dependencies.mapM fun d => do
          pure (d, ← asDependency t (r.remakeFrom (chain ++ [t]) d)) :
            Resolving ω (Dependencies ω)) w with ⟨e | ds, w'⟩
        · rw [hds] at hmade
          exact hmade w.user
        · rw [hds] at hmade
          dsimp only
          rw [runFactory_apply]
          exact hmade w'.user
termination_by (r.idle chain).length
decreasing_by exact _shrinks

end Remaking

/-! ## Asking again and again -/

section Asking

variable {r : Registry ω} {t : Token} {w : Workshop ω}

/-- Whatever fails in a construction is reported as a failure of its factory. -/
theorem Finishes.ne_unknown {u u' : ω} {source : Source ω} {x log e} (s : Token)
    (h : Finishes t u source x log (.error e) u') : e ≠ .unknownToken s := by
  cases h <;> nofun

theorem Serves.ne_unknown {p : Provider ω} {log x w'} (h : Serves r [] [t] w log x w')
    (hp : r.provider? t = some p) (s : Token) : x ≠ .error (.unknownToken s) := by
  cases h with
  | refused h =>
    cases h with
    | unknown hnone => cases hp.symm.trans hnone
    | cyclic _ _ ht => cases ht
  | kept _ _ hts =>
    cases hts
    nofun
  | failed _ _ _ _ hf => exact fun h => hf.ne_unknown s (Except.error.inj h)
  | built _ _ _ _ _ hts =>
    cases hts
    nofun

/-- A handler goes on from the state that the failure has left. -/
theorem tryCatch_apply (m : Resolving ω (Instance ω))
    (handle : ResolutionError → Resolving ω (Instance ω)) :
    tryCatch m handle w = match m w with
      | (.ok i, w') => (.ok i, w')
      | (.error e, w') => handle e w' := by
  have hbind : tryCatch m handle = ExceptT.tryCatch m handle := rfl
  rw [hbind, ExceptT.tryCatch]
  rcases hm : m w with ⟨e | i, w'⟩ <;> simp only [ExceptT.mk, bind, StateT.bind, hm]
  rfl

theorem resolveOr_eq (fallback : Instance ω) : r.resolveOr t fallback w =
    if r.contains t then r.resolve t w else (.ok fallback, w) := by
  rw [resolveOr, tryCatch_apply, contains]
  cases hp : r.provider? t with
  | none =>
    rw [resolve, resolveFrom_unknown hp]
    rfl
  | some p =>
    obtain ⟨log, hlog⟩ := r.exists_logs t w
    have hne := hlog.ne_unknown hp
    rw [Option.isSome_some, if_pos rfl]
    generalize r.resolve t w = answer at hne ⊢
    rcases answer with ⟨e | i, w'⟩
    · cases e with
      | unknownToken s => exact absurd rfl (hne s)
      | _ => rfl
    · rfl

theorem resolveAs_eq (typeName : String) : r.resolveAs t typeName w =
    ((r.resolve t w).1.bind fun i => (i.asType? typeName).elim
      (.error (.typeMismatch t typeName)) .ok, (r.resolve t w).2) := by
  rw [resolveAs, bind_apply]
  rcases r.resolve t w with ⟨e | i, w'⟩
  · rfl
  · dsimp only [Except.bind]
    cases i.asType? typeName <;> rfl

end Asking

/-- One use of a registry. -/
inductive Use (ω : Type) where
  | get (t : Token)
  | getOr (t : Token) (fallback : Instance ω)
  | getAs (t : Token) (typeName : String)
  /-- The code behind the instances changes its own state. -/
  | elsewhere (u : ω)

namespace Use

def after (r : Registry ω) (w : Workshop ω) : Use ω → Workshop ω
  | get t => (r.resolve t w).2
  | getOr t fallback => (r.resolveOr t fallback w).2
  | getAs t typeName => (r.resolveAs t typeName w).2
  | elsewhere u => { w with user := u }

/-- What is done for one use. -/
def Logs (r : Registry ω) (w : Workshop ω) : Use ω → List (Work ω) → Prop
  | get t, log => r.Logs t w log
  | getOr t _, log => r.Logs t w log
  | getAs t _, log => r.Logs t w log
  | elsewhere _, log => log = []

section Uses

variable {r : Registry ω} {w : Workshop ω} {log : List (Work ω)}

theorem exists_logs (r : Registry ω) (w : Workshop ω) (use : Use ω) : ∃ log, use.Logs r w log := by
  cases use with
  | get t => exact r.exists_logs t w
  | getOr t => exact r.exists_logs t w
  | getAs t => exact r.exists_logs t w
  | elsewhere => exact ⟨[], rfl⟩

theorem after_getOr (t : Token) (fallback : Instance ω) :
    after r w (getOr t fallback) = (r.resolve t w).2 := by
  rw [after, resolveOr_eq, contains]
  cases hp : r.provider? t with
  | none => rw [resolve, resolveFrom_unknown hp, Option.isSome_none, if_neg Bool.false_ne_true]
  | some p => rw [Option.isSome_some, if_pos rfl]

theorem after_getAs (t : Token) (typeName : String) :
    after r w (getAs t typeName) = (r.resolve t w).2 := by
  rw [after, resolveAs_eq]

theorem Logs.serves {use : Use ω} (h : use.Logs r w log) : ∃ ts x w' u,
    Serves r [] ts w log x w' ∧ use.after r w = { w' with user := u } := by
  cases use with
  | get t => exact ⟨_, _, _, _, h, rfl⟩
  | getOr t fallback => exact ⟨_, _, _, _, h, after_getOr t fallback⟩
  | getAs t typeName => exact ⟨_, _, _, _, h, after_getAs t typeName⟩
  | elsewhere u =>
    cases h
    exact ⟨[], _, w, u, .done, rfl⟩

theorem reached_after (h : r.Reached w) (use : Use ω) : r.Reached (use.after r w) := by
  cases use with
  | get t => exact .asked h t
  | getOr t fallback => exact after_getOr (r := r) t fallback ▸ .asked h t
  | getAs t typeName => exact after_getAs (r := r) t typeName ▸ .asked h t
  | elsewhere u => exact .used h u

end Uses

end Use

/-- What a registry has been asked, and what it has done for that. -/
inductive History (r : Registry ω) (w : Workshop ω) :
    List (Use ω) → List (Work ω) → Workshop ω → Prop
  | start : History r w [] [] w
  | used {uses log w' log'} (h : History r w uses log w') (use : Use ω)
      (hlog : use.Logs r w' log') : History r w (uses ++ [use]) (log ++ log') (use.after r w')

namespace History

variable {r : Registry ω} {w w' : Workshop ω} {uses : List (Use ω)} {log : List (Work ω)}
  {s : Token} {ds : Dependencies ω} {result : Except String (Instance ω)} {i : Instance ω}

theorem exists_log (r : Registry ω) (w : Workshop ω) (uses : List (Use ω)) :
    ∃ log, r.History w uses log (uses.foldl (Use.after r) w) := by
  induction uses using List.reverseRecOn with
  | nil => exact ⟨[], .start⟩
  | append_singleton uses use ih =>
    obtain ⟨log, h⟩ := ih
    obtain ⟨log', h'⟩ := use.exists_logs r (uses.foldl (Use.after r) w)
    rw [List.foldl_append]
    exact ⟨log ++ log', h.used use h'⟩

theorem reached (h : r.History w uses log w') (hw : r.Reached w) : r.Reached w' := by
  induction h with
  | start => exact hw
  | used _ use _ ih => exact use.reached_after ih

theorem onward (h : r.History w uses log w') : w.Extends w' := by
  induction h with
  | start => exact fun _ _ hi => hi
  | used _ _ hlog ih =>
    obtain ⟨_, _, _, _, hserves, hafter⟩ := hlog.serves
    rw [hafter]
    exact fun t i hi => hserves.onward t i (ih t i hi)

theorem handed (h : r.History w uses log w') (hran : .ran s ds result ∈ log) :
    ∀ d ∈ ds, w'.instance? d.1 = some d.2 := by
  induction h with
  | start => cases hran
  | used _ _ hlog ih =>
    obtain ⟨_, _, _, _, hserves, hafter⟩ := hlog.serves
    rw [hafter]
    rcases List.mem_append.1 hran with hran | hran
    · exact fun d hd => hserves.onward _ _ (ih hran d hd)
    · exact hserves.handed hran

theorem kept_of_ran (h : r.History w uses log w') (hran : .ran s ds (.ok i) ∈ log) :
    w'.instance? s = some i := by
  induction h with
  | start => cases hran
  | used _ _ hlog ih =>
    obtain ⟨_, _, _, _, hserves, hafter⟩ := hlog.serves
    rw [hafter]
    rcases List.mem_append.1 hran with hran | hran
    · exact hserves.onward _ _ (ih hran)
    · exact hserves.kept_of_closed (hserves.closed_of_ran hran)

/-- What a factory has made is kept, so nothing makes it run again. -/
theorem ran_once (h : r.History w uses log w') {before after : List (Work ω)}
    (hlog : log = before ++ .ran s ds (.ok i) :: after) : s ∉ produced after := by
  induction h generalizing before after with
  | start => simp at hlog
  | @used _ log w' log' h _ huse ih =>
    obtain ⟨_, _, _, _, hserves, -⟩ := huse.serves
    rcases append_cases hlog with ⟨rest, rfl⟩ | ⟨rest, rfl, rfl⟩
    · obtain rfl : rest ++ log' = after := by simpa using hlog
      rw [produced_append, List.mem_append, not_or]
      refine ⟨ih rfl, fun hs => ?_⟩
      have hkept := h.kept_of_ran (List.mem_append_right before List.mem_cons_self)
      have hnew := (hserves.new_of_mem_entered (hserves.produced_subperm.subset hs)).2
      cases hkept.symm.trans hnew
    · have hnodup := hserves.produced_nodup
      rw [produced_append, produced_ran] at hnodup
      exact (List.nodup_cons.1 (List.nodup_append.1 hnodup).2.1).1

end History

/-! ## After any history -/

/-- What a registry is like that has done this and has come to this state. -/
structure Transparent (r : Registry ω) (log : List (Work ω)) (w : Workshop ω) : Prop where
  /-- The next answer is the one of making everything again. -/
  answers : ∀ t w₀, Alike Instance.Same (r.resolve t w).1 (r.remake t w₀).1
  given : ∀ t i, (r.resolve t w).1 = .ok i → (r.resolve t w).2.instance? t = some i
  givenOr : ∀ t fallback i, r.contains t → (r.resolveOr t fallback w).1 = .ok i →
    (r.resolveOr t fallback w).2.instance? t = some i
  givenAs : ∀ t typeName held, (r.resolveAs t typeName w).1 = .ok held →
    ∃ i, (r.resolveAs t typeName w).2.instance? t = some i ∧ i.asType? typeName = some held
  /-- What is kept is given from then on, in whatever way the token is asked for. -/
  stays : ∀ t i, w.instance? t = some i → ∀ uses log' w', r.History w uses log' w' →
    w'.instance? t = some i ∧ r.resolve t w' = (.ok i, w') ∧
      (∀ fallback, r.resolveOr t fallback w' = (.ok i, w')) ∧
      ∀ typeName, r.resolveAs t typeName w' =
        ((i.asType? typeName).elim (.error (.typeMismatch t typeName)) .ok, w')
  /-- The factories have been handed the instances that are kept. -/
  handed : ∀ s ds result, .ran s ds result ∈ log → ∀ d ∈ ds, w.instance? d.1 = some d.2
  once : ∀ before s ds i after, log = before ++ .ran s ds (.ok i) :: after → s ∉ produced after
  /-- A failure leaves nothing for the token. -/
  refused : ∀ t e, (r.resolve t w).1 = .error e → (r.resolve t w).2.instance? t = none
  failed : ∀ t log', r.Logs t w log' → ∀ s e, .closed s (.error e) ∈ log' →
    (r.resolve t w).2.instance? s = none
  /-- What has been completed is kept, also within a construction that has failed. -/
  completed : ∀ t log', r.Logs t w log' → ∀ s i, .closed s (.ok i) ∈ log' →
    (r.resolve t w).2.instance? s = some i

section Transparency

variable {r : Registry ω} {t : Token} {i : Instance ω} {w : Workshop ω}

theorem kept_of_resolve (h : (r.resolve t w).1 = .ok i) :
    (r.resolve t w).2.instance? t = some i := by
  obtain ⟨log, hlog⟩ := r.exists_logs t w
  rw [Logs, h] at hlog
  exact (List.forall₂_cons.1 (hlog.all_kept rfl)).1

theorem Keeps.exists_provider {u : ω} (hw : r.Keeps u w) (hi : w.instance? t = some i) :
    ∃ p, r.provider? t = some p := by
  cases hp : r.provider? t with
  | none =>
    obtain ⟨j, hj, -⟩ := (hw t i hi [] nofun).exists_ok
    rw [answerFrom_unknown hp] at hj
    cases hj
  | some p => exact ⟨p, rfl⟩

theorem kept_of_resolveAs {typeName : String} {held : Held}
    (h : (r.resolveAs t typeName w).1 = .ok held) :
    ∃ i, (r.resolveAs t typeName w).2.instance? t = some i ∧ i.asType? typeName = some held := by
  rw [resolveAs_eq] at h ⊢
  dsimp only at h ⊢
  cases hanswer : (r.resolve t w).1 with
  | error e =>
    rw [hanswer] at h
    cases h
  | ok i =>
    rw [hanswer] at h
    refine ⟨i, kept_of_resolve hanswer, ?_⟩
    cases htype : i.asType? typeName with
    | none =>
      rw [Except.bind, htype] at h
      cases h
    | some held' =>
      rw [Except.bind, htype] at h
      cases h
      rfl

/-- A token for which something is kept would be answered. -/
theorem lacks_of_resolve (hr : r.Deterministic) {u : ω} (hw : r.Keeps u w) {e : ResolutionError}
    (he : (r.resolve t w).1 = .error e) : (r.resolve t w).2.instance? t = none := by
  have hanswered := resolveFrom_answered hr [] t w hw nofun
  cases hi : (r.resolve t w).2.instance? t with
  | none => rfl
  | some i =>
    obtain ⟨j, hj, -⟩ := (hanswered.keeps t i hi [] nofun).exists_ok
    have halike := hanswered.alike
    rw [show (r.resolveFrom [] t w).1 = .error e from he] at halike
    cases hj.symm.trans halike.eq_error

/-- Whatever has been asked before, and whether it has succeeded or failed. -/
theorem history_transparent (hr : r.Deterministic) (u : ω) (uses : List (Use ω)) :
    (∃ log, r.History ⟨[], u⟩ uses log (uses.foldl (Use.after r) ⟨[], u⟩)) ∧
      ∀ log w, r.History ⟨[], u⟩ uses log w → r.Transparent log w := by
  refine ⟨History.exists_log r _ uses, fun log w h => ?_⟩
  have hw : r.Keeps u w := (h.reached (.fresh u)).keeps hr u
  exact {
    answers := fun t w₀ =>
      (resolveFrom_answered hr [] t w hw nofun).alike.of_same (remakeFrom_alike hr [] t w₀)
    given := fun _ _ => kept_of_resolve
    givenOr := fun t fallback i ht hi => by
      rw [resolveOr_eq, if_pos ht] at hi ⊢
      exact kept_of_resolve hi
    givenAs := fun _ _ _ => kept_of_resolveAs
    stays := fun t i hi more log' w' h' => by
      obtain ⟨p, hp⟩ := hw.exists_provider hi
      have hget : r.resolve t w' = (.ok i, w') := resolveFrom_kept hp (h'.onward t i hi)
      refine ⟨h'.onward t i hi, hget, fun fallback => ?_, fun typeName => ?_⟩
      · rw [resolveOr_eq, contains, hp, Option.isSome_some, if_pos rfl, hget]
      · rw [resolveAs_eq, hget]
        rfl
    handed := fun _ _ _ hran => h.handed hran
    once := fun _ _ _ _ _ hlog => h.ran_once hlog
    refused := fun _ _ => lacks_of_resolve hr hw
    failed := fun _ _ hlog _ _ hs => hlog.lacks_of_closed hs
    completed := fun _ _ hlog _ _ hs => hlog.kept_of_closed hs }

end Transparency

/-- The shop does not open: its clerk is on strike. -/
def shop : Registry Nat where
  providers := [
    ⟨⟨"Till"⟩, .factory [] fun _ n => (.ok ⟨n, .held "Till" .null⟩, n + 1)⟩,
    ⟨⟨"Clerk"⟩, .factory [⟨"Till"⟩] fun _ n => (.error "on strike", n + 1)⟩,
    ⟨⟨"Shop"⟩, .factory [⟨"Till"⟩, ⟨"Clerk"⟩] fun _ n => (.ok ⟨n, .held "Shop" .null⟩, n + 1)⟩]

theorem shop_deterministic : shop.Deterministic := by
  intro p hp dependencies build hsource ds ds' u u' _
  simp only [shop, List.mem_cons, List.not_mem_nil, or_false] at hp
  obtain rfl | rfl | rfl := hp <;> cases hsource
  · exact .ok rfl
  · exact .error _
  · exact .ok rfl

def till : Instance Nat := ⟨7, .held "Till" .null⟩

/-- A day on which someone asks for the shop. -/
def day : List (Work Nat) :=
  let strike := ResolutionError.factoryFailed ⟨"Clerk"⟩ "on strike"
  [.opened ⟨"Shop"⟩,
    .opened ⟨"Till"⟩, .ran ⟨"Till"⟩ [] (.ok till), .closed ⟨"Till"⟩ (.ok till),
    .opened ⟨"Clerk"⟩, .ran ⟨"Clerk"⟩ [(⟨"Till"⟩, till)] (.error "on strike"),
    .closed ⟨"Clerk"⟩ (.error strike),
    .closed ⟨"Shop"⟩ (.error (.dependencyFailed ⟨"Shop"⟩ strike))]

theorem shop_serves : Serves shop [] [⟨"Shop"⟩] ⟨[], 7⟩ day
    (.error (.dependencyFailed ⟨"Shop"⟩ (.factoryFailed ⟨"Clerk"⟩ "on strike")))
    ⟨[(⟨"Till"⟩, till)], 9⟩ := by
  have clerk : Serves shop [⟨"Shop"⟩] [⟨"Clerk"⟩] ⟨[(⟨"Till"⟩, till)], 8⟩ _ _ _ :=
    .failed rfl rfl (by decide) (.kept (t := ⟨"Till"⟩) rfl rfl .done) (.broken rfl)
  have both : Serves shop [⟨"Shop"⟩] [⟨"Till"⟩, ⟨"Clerk"⟩] ⟨[], 7⟩ _ _ _ :=
    .built rfl rfl (by decide) .done (.succeeded rfl) clerk
  have all : Serves shop [] [⟨"Shop"⟩] ⟨[], 7⟩ _ _ _ :=
    .failed rfl rfl List.not_mem_nil both (.starved _)
  exact all

theorem shop_history :
    shop.History ⟨[], 7⟩ [.get ⟨"Shop"⟩] day ⟨[(⟨"Till"⟩, till)], 9⟩ := by
  have h := History.start.used (r := shop) (.get ⟨"Shop"⟩) shop_serves.logs
  rwa [Use.after, shop_serves.resolve_eq.2] at h

theorem shop_transparent : shop.Deterministic ∧
    shop.History ⟨[], 7⟩ [.get ⟨"Shop"⟩] day ⟨[(⟨"Till"⟩, till)], 9⟩ ∧
    shop.Transparent day ⟨[(⟨"Till"⟩, till)], 9⟩ :=
  ⟨shop_deterministic, shop_history,
    (history_transparent shop_deterministic 7 _).2 day _ shop_history⟩

end GraphAssembly.Registry
