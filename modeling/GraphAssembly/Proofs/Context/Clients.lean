import GraphAssembly.Middleware
import GraphAssembly.Proofs.Context.Slots
import GraphAssembly.Proofs.Routine.Schedules

/-!
# Fields that share a context

The fields of a request go on in turns and change one context by calls. What becomes of a result
slot is a matter of the calls alone, in the order in which they were made.

1. `Client`: what the code of a field may do with the scope that it shares.
2. `MiddlewareChain`: the middleware of a field in a row are a client if each of them is.
3. `Booked`: an interleaving of several clients, with a book in which each effect is entered when it
   happens.
4. Whatever a scheduler does is such an interleaving.
5. The statement.
-/

namespace GraphAssembly

open Context

variable {ω α β : Type}

/-! ## Clients -/

/-- One change of a scope. -/
inductive Effect (ω : Type) : Type 1
  | call (call : Call)
  | keep (change : ω → ω)

namespace Effect

def run (s : Scope ω) : Effect ω → Scope ω
  | call c => { s with context := c.run s.context }
  | keep change => { s with user := change s.user }

def call? : Effect ω → Option Call
  | call c => some c
  | keep _ => none

def Spares (slot : String) : Effect ω → Prop
  | call c => c.Spares slot
  | keep _ => True

end Effect

/-- The code of a field. It looks at the scope before a call to learn what the call answers. -/
inductive Client (ω α : Type) : Type 1
  | done (result : α)
  | look (next : Scope ω → Client ω α)
  | act (effect : Effect ω) (next : Client ω α)
  | suspend (next : Client ω α)

namespace Client

def routine : Client ω α → Routine (Scope ω) α
  | done a => .done a
  | look next => .read fun s => (next s).routine
  | act e next => .read fun s => .write (e.run s) next.routine
  | suspend next => .suspend next.routine

/-- No insertion is ever made in place of the slot. -/
def Spares (slot : String) : Client ω α → Prop
  | done _ => True
  | look next => ∀ s, (next s).Spares slot
  | act e next => e.Spares slot ∧ next.Spares slot
  | suspend next => next.Spares slot

protected def bind : Client ω α → (α → Client ω β) → Client ω β
  | done a, f => f a
  | look next, f => look fun s => (next s).bind f
  | act e next, f => act e (next.bind f)
  | suspend next, f => suspend (next.bind f)

theorem routine_bind (c : Client ω α) (f : α → Client ω β) :
    (c.bind f).routine = c.routine.bind fun a => (f a).routine := by
  induction c with
  | done a => rfl
  | look next ih => exact congrArg Routine.read (funext ih)
  | act e next ih => exact congrArg Routine.read (funext fun s => congrArg _ ih)
  | suspend next ih => exact congrArg Routine.suspend ih

theorem spares_bind {slot : String} {c : Client ω α} {f : α → Client ω β} (hc : c.Spares slot)
    (hf : ∀ a, (f a).Spares slot) : (c.bind f).Spares slot := by
  induction c with
  | done a => exact hf a
  | look next ih => exact fun s => ih s (hc s)
  | act e next ih => exact ⟨hc.1, ih hc.2⟩
  | suspend next ih => exact ih hc

end Client

/-! ## Middleware -/

/-- The routine is that of a client which spares the slot. -/
def KeepsToCalls (slot : String) (r : Routine (Scope ω) α) : Prop :=
  ∃ client : Client ω α, client.Spares slot ∧ client.routine = r

namespace KeepsToCalls

variable {slot : String}

theorem done (a : α) : KeepsToCalls slot (.done a : Routine (Scope ω) α) :=
  ⟨.done a, trivial, rfl⟩

theorem bind {r : Routine (Scope ω) α} {f : α → Routine (Scope ω) β} (hr : KeepsToCalls slot r)
    (hf : ∀ a, KeepsToCalls slot (f a)) : KeepsToCalls slot (r.bind f) := by
  obtain ⟨c, hc, rfl⟩ := hr
  choose next hnext hroutine using hf
  refine ⟨c.bind next, Client.spares_bind hc hnext, ?_⟩
  rw [Client.routine_bind]
  exact congrArg _ (funext hroutine)

theorem modify (e : Effect ω) (he : e.Spares slot) {f : Scope ω → Scope ω}
    (hf : ∀ scope, f scope = e.run scope) : KeepsToCalls slot (Routine.modify f) := by
  refine ⟨.act e (.done ()), ⟨he, trivial⟩, ?_⟩
  rw [Client.routine]
  refine congrArg Routine.read (funext fun scope => ?_)
  rw [hf]
  rfl

/-- A step stores the result of its middleware by merging it, into whatever slot. -/
theorem store (s : Step ω) (v : Json) : KeepsToCalls slot (Routine.modify (s.store v)) := by
  cases hname : s.resultName with
  | none =>
    refine modify (.keep id) trivial fun scope => ?_
    rw [Step.store, hname]
    rfl
  | some name =>
    refine modify (.call (.merge name v)) trivial fun scope => ?_
    rw [Step.store, hname]
    rfl

theorem step {s : Step ω} {source : Json} {args : Dict Json}
    (h : KeepsToCalls slot (s.middleware.execute source args s.options)) :
    KeepsToCalls slot (s.run source args) := by
  refine h.bind fun answer => ?_
  cases answer with
  | error reason => exact .done _
  | ok v =>
    dsimp only
    split
    · exact (store s v).bind fun _ => .done _
    · exact .done _

theorem untilError {ε : Type} {rs : List (Routine (Scope ω) (Except ε α))}
    (h : ∀ r ∈ rs, KeepsToCalls slot r) : KeepsToCalls slot (Routine.untilError rs) := by
  induction rs with
  | nil => exact .done _
  | cons r rs ih =>
    refine (h r List.mem_cons_self).bind fun answer => ?_
    cases answer with
    | error e => exact .done _
    | ok a =>
      refine (ih fun q hq => h q (List.mem_cons_of_mem r hq)).bind fun answers => ?_
      cases answers <;> exact .done _

theorem runAll {steps : List (Step ω)} {source : Json} {args : Dict Json}
    (h : ∀ s ∈ steps, KeepsToCalls slot (s.middleware.execute source args s.options)) :
    KeepsToCalls slot (Step.runAll steps source args) := by
  refine untilError fun r hr => ?_
  obtain ⟨s, hs, rfl⟩ := List.mem_map.1 hr
  exact (h s hs).step

end KeepsToCalls

/-- The middleware of a field, with what the field hands to each of them. -/
structure MiddlewareChain (ω : Type) where
  steps : List (Step ω)
  source : Json
  args : Dict Json

namespace MiddlewareChain

def routine (chain : MiddlewareChain ω) : Routine (Scope ω) (Except MiddlewareError (List Json)) :=
  Step.runAll chain.steps chain.source chain.args

/-- Whatever the middleware do to the context they do by calls, none of which inserts into the slot.
Their results may be stored anywhere. -/
def Spares (slot : String) (chain : MiddlewareChain ω) : Prop :=
  ∀ s ∈ chain.steps, KeepsToCalls slot
    (s.middleware.execute chain.source chain.args s.options)

end MiddlewareChain

theorem exists_clients {slot : String} {rs : List (Routine (Scope ω) α)}
    (h : ∀ r ∈ rs, KeepsToCalls slot r) : ∃ clients : List (Client ω α),
      (∀ c ∈ clients, c.Spares slot) ∧ clients.map Client.routine = rs := by
  induction rs with
  | nil => exact ⟨[], nofun, rfl⟩
  | cons r rs ih =>
    obtain ⟨c, hc, rfl⟩ := h r List.mem_cons_self
    obtain ⟨cs, hcs, rfl⟩ := ih fun q hq => h q (List.mem_cons_of_mem _ hq)
    exact ⟨c :: cs, List.forall_mem_cons.2 ⟨hc, hcs⟩, rfl⟩

/-! ## Interleavings -/

/-- The clients go on together from one scope to the other. `turn` is the position of the one that
is going on at present, if there is one, and each effect is entered in the book with the position of
the client it comes from. -/
inductive Booked : (turn : Option Nat) → List (Client ω α) → Scope ω → List (Nat × Effect ω) →
    Scope ω → Prop
  | finished (as : List α) (s : Scope ω) : Booked none (as.map .done) s [] s
  | start (i : Nat) {clients : List (Client ω α)} {s s' : Scope ω} {book : List (Nat × Effect ω)}
    (h : Booked (some i) clients s book s') : Booked none clients s book s'
  | done {i : Nat} {clients : List (Client ω α)} {s s' : Scope ω} {book : List (Nat × Effect ω)}
    {a : α} (hi : clients[i]? = some (.done a)) (h : Booked none clients s book s') :
    Booked (some i) clients s book s'
  | look {i : Nat} {clients : List (Client ω α)} {s s' : Scope ω} {book : List (Nat × Effect ω)}
    {next : Scope ω → Client ω α} (hi : clients[i]? = some (.look next))
    (h : Booked (some i) (clients.set i (next s)) s book s') : Booked (some i) clients s book s'
  | act {i : Nat} {clients : List (Client ω α)} {s s' : Scope ω} {book : List (Nat × Effect ω)}
    {e : Effect ω} {next : Client ω α} (hi : clients[i]? = some (.act e next))
    (h : Booked (some i) (clients.set i next) (e.run s) book s') :
    Booked (some i) clients s ((i, e) :: book) s'
  | suspend {i : Nat} {clients : List (Client ω α)} {s s' : Scope ω}
    {book : List (Nat × Effect ω)} {next : Client ω α} (hi : clients[i]? = some (.suspend next))
    (h : Booked none (clients.set i next) s book s') : Booked (some i) clients s book s'

/-- The calls of a book, in the order in which they were made. -/
def bookedCalls (book : List (Nat × Effect ω)) : List Call := book.filterMap (·.2.call?)

namespace Booked

variable {turn : Option Nat} {clients : List (Client ω α)} {s s' : Scope ω}
  {book : List (Nat × Effect ω)} {slot : String}

/-- Nothing else changes the context. -/
theorem context_eq (h : Booked turn clients s book s') :
    s'.context = Call.runAll (bookedCalls book) s.context := by
  induction h with
  | finished as s => rfl
  | start i _ ih => exact ih
  | done hi _ ih => exact ih
  | look hi _ ih => exact ih
  | @act _ _ _ _ _ e _ hi _ ih => cases e <;> exact ih
  | suspend hi _ ih => exact ih

theorem forall_mem_set {P : Client ω α → Prop} (h : ∀ c ∈ clients, P c) {c : Client ω α}
    (hc : P c) (i : Nat) : ∀ c' ∈ clients.set i c, P c' := by
  intro c' hc'
  rcases List.mem_or_eq_of_mem_set hc' with hc' | rfl
  · exact h c' hc'
  · exact hc

theorem spares (h : Booked turn clients s book s') (hclients : ∀ c ∈ clients, c.Spares slot) :
    ∀ call ∈ bookedCalls book, call.Spares slot := by
  induction h with
  | finished as s => exact nofun
  | start i _ ih => exact ih hclients
  | done hi _ ih => exact ih hclients
  | look hi _ ih =>
    have hlook : (Client.look _).Spares slot := hclients _ (List.mem_of_getElem? hi)
    exact ih (forall_mem_set hclients (hlook _) _)
  | @act _ _ _ _ _ e _ hi _ ih =>
    have hact : (Client.act _ _).Spares slot := hclients _ (List.mem_of_getElem? hi)
    have hrest := ih (forall_mem_set hclients hact.2 _)
    cases e with
    | keep change => exact hrest
    | call c => exact List.forall_mem_cons.2 ⟨hact.1, hrest⟩
  | @suspend _ _ _ _ _ next hi _ ih =>
    have hnext : next.Spares slot := hclients (.suspend next) (List.mem_of_getElem? hi)
    exact ih (forall_mem_set hclients hnext _)

end Booked

/-! ## Schedules -/

section Schedules

variable {c : Client ω α} {clients : List (Client ω α)} {i : Nat}

theorem exists_of_routine {r : Routine (Scope ω) α}
    (hi : (clients.map Client.routine)[i]? = some r) :
    ∃ c, clients[i]? = some c ∧ c.routine = r := by
  rw [List.getElem?_map] at hi
  exact Option.map_eq_some_iff.1 hi

theorem eq_of_getElem?_set {q r : Routine (Scope ω) α} (hlt : i < clients.length)
    (hi : ((clients.map Client.routine).set i q)[i]? = some r) : q = r := by
  rw [List.getElem?_set_self (by rwa [List.length_map])] at hi
  exact Option.some.inj hi

theorem Client.eq_done {a : α} (h : c.routine = .done a) : c = .done a := by
  cases c with
  | done b => cases h; rfl
  | look next | act e next | suspend next => cases h

theorem eq_map_done {as : List α} (h : as.map .done = clients.map Client.routine) :
    clients = as.map .done := by
  induction clients generalizing as with
  | nil => rw [List.map_eq_nil_iff.1 h, List.map_nil]
  | cons c clients ih =>
    cases as with
    | nil => cases h
    | cons a as =>
      obtain ⟨hhead, htail⟩ := List.cons.inj h
      rw [ih htail, Client.eq_done hhead.symm, List.map_cons]

/-- Between looking at the scope and writing what the effect makes of it, the turn of a client does
not end. -/
theorem Routine.Interleaves.exists_booked {turn : Option Nat} {rs : List (Routine (Scope ω) α)}
    {whole : Routine (Scope ω) (List α)} (h : Routine.Interleaves turn rs whole) :
    (∀ clients : List (Client ω α), rs = clients.map Client.routine → ∀ s,
      ∃ book, Booked turn clients s book (whole.run s).2) ∧
    ∀ (clients : List (Client ω α)) i s next, turn = some i →
      rs = (clients.map Client.routine).set i (.write s next.routine) → i < clients.length →
      ∀ s', ∃ book, Booked (some i) (clients.set i next) s book (whole.run s').2 := by
  induction h with
  | finished as =>
    refine ⟨fun clients heq s => ⟨[], ?_⟩, fun _ _ _ _ hturn => nomatch hturn⟩
    rw [eq_map_done heq]
    exact .finished as s
  | pause _ ih =>
    exact ⟨fun clients heq s => ih.1 clients heq s, fun _ _ _ _ hturn => nomatch hturn⟩
  | start i _ ih =>
    refine ⟨fun clients heq s => ?_, fun _ _ _ _ hturn => nomatch hturn⟩
    obtain ⟨book, h⟩ := ih.1 clients heq s
    exact ⟨book, .start i h⟩
  | done hi _ ih =>
    constructor
    · rintro clients rfl s
      obtain ⟨c, hc, hroutine⟩ := exists_of_routine hi
      obtain ⟨book, h⟩ := ih.1 clients rfl s
      exact ⟨book, .done (Client.eq_done hroutine ▸ hc) h⟩
    · rintro clients j s next ⟨⟩ rfl hlt s'
      cases eq_of_getElem?_set hlt hi
  | @read i rs next whole hi _ ih =>
    constructor
    · rintro clients rfl s
      obtain ⟨c, hc, hroutine⟩ := exists_of_routine hi
      cases c with
      | done a | suspend c => cases hroutine
      | look look =>
        cases hroutine
        obtain ⟨book, h⟩ := (ih s).1 (clients.set i (look s)) List.map_set.symm s
        exact ⟨book, .look hc h⟩
      | act e c =>
        cases hroutine
        have hlt := (List.getElem?_eq_some_iff.1 hc).1
        obtain ⟨book, h⟩ := (ih s).2 clients i (e.run s) c rfl rfl hlt s
        exact ⟨_, .act hc h⟩
    · rintro clients j s next ⟨⟩ rfl hlt s'
      cases eq_of_getElem?_set hlt hi
  | @write i rs t rest whole hi _ ih =>
    constructor
    · rintro clients rfl s
      obtain ⟨c, hc, hroutine⟩ := exists_of_routine hi
      cases c <;> cases hroutine
    · rintro clients j s next ⟨⟩ rfl hlt s'
      cases eq_of_getElem?_set hlt hi
      exact ih.1 (clients.set i next) (by rw [List.set_set, List.map_set]) t
  | @suspend i rs rest whole hi _ ih =>
    constructor
    · rintro clients rfl s
      obtain ⟨c, hc, hroutine⟩ := exists_of_routine hi
      cases c with
      | done a | look next | act e c => cases hroutine
      | suspend c =>
        cases hroutine
        obtain ⟨book, h⟩ := ih.1 (clients.set i c) List.map_set.symm s
        exact ⟨book, .suspend hc h⟩
    · rintro clients j s next ⟨⟩ rfl hlt s'
      cases eq_of_getElem?_set hlt hi

/-- Whatever a scheduler does with clients is an interleaving of them. -/
theorem Routine.Scheduling.exists_booked {join : Routine.Join (Scope ω) α}
    (h : Routine.Scheduling join) (clients : List (Client ω α)) (s : Scope ω) :
    ∃ book, Booked none clients s book ((join (clients.map Client.routine)).run s).2 :=
  (h _).exists_booked.1 clients rfl s

end Schedules

/-! ## Slots -/

theorem Booked.slotExact {c : Context} {slot : String} (hslot : c.mergeCount slot = 0) {user : ω}
    {fields : List (Client ω α)} (hfields : ∀ field ∈ fields, field.Spares slot)
    {book : List (Nat × Effect ω)} {s' : Scope ω} (h : Booked none fields ⟨c, user⟩ book s') :
    SlotExact c slot (bookedCalls book) s'.context := by
  rw [h.context_eq]
  exact slotExact_runAll hslot (h.spares hfields)

/-- A slot that nothing has been merged into yet comes to hold the results that are merged into it,
one as it is and more as the list of them in their order, whatever else is called on the context:
by a sequence of calls, by any interleaving of the fields that share it, and so by whatever a
scheduler makes of these fields, or of the chains of middleware in front of them. Every other entry
is what it would be without these results. -/
theorem merges_slotExact (c : Context) (slot : String) (hslot : c.mergeCount slot = 0) :
    (∀ calls : List Call, (∀ call ∈ calls, call.Spares slot) →
      SlotExact c slot calls (Call.runAll calls c)) ∧
    (∀ (user : ω) (fields : List (Client ω α)), (∀ field ∈ fields, field.Spares slot) →
      (∀ book s', Booked none fields ⟨c, user⟩ book s' →
        SlotExact c slot (bookedCalls book) s'.context) ∧
      ∀ join, Routine.Scheduling join →
        ∃ book, Booked none fields ⟨c, user⟩ book
          ((join (fields.map Client.routine)).run ⟨c, user⟩).2) ∧
    ∀ (user : ω) (chains : List (MiddlewareChain ω)), (∀ chain ∈ chains, chain.Spares slot) →
      ∀ join, Routine.Scheduling join →
        let s' := ((join (chains.map MiddlewareChain.routine)).run ⟨c, user⟩).2
        ∃ fields book, fields.map Client.routine = chains.map MiddlewareChain.routine ∧
          Booked none fields ⟨c, user⟩ book s' ∧
          SlotExact c slot (bookedCalls book) s'.context := by
  refine ⟨fun _ => slotExact_runAll hslot, fun user fields hfields => ⟨?_, ?_⟩,
    fun user chains hchains join hjoin => ?_⟩
  · exact fun book s' h => h.slotExact hslot hfields
  · exact fun join hjoin => hjoin.exists_booked fields ⟨c, user⟩
  · obtain ⟨fields, hfields, hroutines⟩ : ∃ fields : List (Client ω _),
        (∀ field ∈ fields, field.Spares slot) ∧
          fields.map Client.routine = chains.map MiddlewareChain.routine := by
      refine exists_clients (List.forall_mem_map.2 fun chain hchain => ?_)
      exact KeepsToCalls.runAll (hchains chain hchain)
    obtain ⟨book, h⟩ := hjoin.exists_booked fields ⟨c, user⟩
    rw [hroutines] at h
    exact ⟨fields, book, hroutines, h, h.slotExact hslot hfields⟩

/-- The roles of two groups, either of which is a list, and the name of the user. -/
def roleCalls : List Call := [
  .merge "roles" (.arr [.str "admin"]),
  .insert Shape.string "user" "Bob",
  .merge "roles" (.arr [.str "editor"])]

example : (Call.runAll roleCalls .empty).getValue? "roles" =
    some (.arr [.arr [.str "admin"], .arr [.str "editor"]]) := rfl

/-- A field that is granted a role after a while. -/
def granted (role : String) : Client Unit Unit :=
  .suspend (.act (.call (.merge "roles" (.str role))) (.done ()))

/-- A middleware that comes upon a role after a while, which is then stored. -/
def granting (role : String) : MiddlewareChain Unit where
  steps := [{
    token := ⟨role⟩
    middleware := ⟨fun _ _ _ => do
      Routine.suspendTimes 1
      pure (.ok (.str role))⟩
    options := none
    resultName := some "roles" }]
  source := .null
  args := []

theorem granting_spares (role : String) : (granting role).Spares "roles" := by
  intro s hs
  obtain rfl := List.mem_singleton.1 hs
  exact ⟨.suspend (.done (.ok (.str role))), trivial, rfl⟩

theorem roles_slotExact : Context.empty.mergeCount "roles" = 0 ∧
    (∀ call ∈ roleCalls, call.Spares "roles") ∧
    SlotExact .empty "roles" roleCalls (Call.runAll roleCalls .empty) ∧
    (∀ field ∈ [granted "admin", granted "editor"], field.Spares "roles") ∧
    (∃ book s', Booked none [granted "admin", granted "editor"] ⟨.empty, ()⟩ book s' ∧
      SlotExact .empty "roles" (bookedCalls book) s'.context) ∧
    let chains := [granting "admin", granting "editor"]
    let s' := ((Routine.inPasses (chains.map MiddlewareChain.routine)).run ⟨.empty, ()⟩).2
    (∀ chain ∈ chains, chain.Spares "roles") ∧
    s'.context.getValue? "roles" = some (.arr [.str "admin", .str "editor"]) ∧
      ∃ fields book, fields.map Client.routine = chains.map MiddlewareChain.routine ∧
        Booked none fields ⟨.empty, ()⟩ book s' ∧
        SlotExact .empty "roles" (bookedCalls book) s'.context := by
  have hslot : Context.empty.mergeCount "roles" = 0 := rfl
  have hcalls : ∀ call ∈ roleCalls, call.Spares "roles" := by
    simp [roleCalls, Call.Spares]
  have hfields : ∀ field ∈ [granted "admin", granted "editor"], field.Spares "roles" := by
    simp [granted, Client.Spares, Effect.Spares, Call.Spares]
  have hchains : ∀ chain ∈ [granting "admin", granting "editor"], chain.Spares "roles" := by
    simp [granting_spares]
  obtain ⟨hsequence, hinterleaving, hmiddleware⟩ :=
    merges_slotExact (ω := Unit) (α := Unit) .empty "roles" hslot
  obtain ⟨hbooked, hjoin⟩ := hinterleaving () _ hfields
  obtain ⟨book, h⟩ := hjoin _ Routine.scheduling_inPasses
  refine ⟨hslot, hcalls, hsequence _ hcalls, hfields, ⟨book, _, h, hbooked book _ h⟩, hchains, ?_,
    ?_⟩
  · rfl
  · exact hmiddleware () _ hchains _ Routine.scheduling_inPasses

end GraphAssembly
