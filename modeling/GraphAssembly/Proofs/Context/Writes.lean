import GraphAssembly.Context

/-!
# Writes that fail

What a context holds after a write that answers with an error. A write is all or nothing if the
error leaves every entry as it was.

1. `insert` reads the entry only when the new value stands in its place already.
2. `upsert` hands an entry that it cannot change back, but a default stays where there was none.
3. The statement says of both just when they are all or nothing.
-/

namespace GraphAssembly.Context

variable {α β : Type} {c : Context} {shape : Shape α} {key k : String}

/-- An error leaves every entry as it was. -/
def AllOrNothing (c : Context) (answer : Except ShapeError β × Context) : Prop :=
  ∀ e, answer.1 = .error e → ∀ k, answer.2.getValue? k = c.getValue? k

theorem AllOrNothing.unchanged {answer : Except ShapeError β} : c.AllOrNothing (answer, c) :=
  fun _ _ _ => rfl

theorem AllOrNothing.of_ok {b : β} {c' : Context} : c.AllOrNothing (.ok b, c') := nofun

theorem getValue?_put (c : Context) (key k : String) (v : Json) :
    (c.put key v).getValue? k = if key = k then some v else c.getValue? k :=
  Dict.get?_insert c.entries key k v

theorem getValue?_put_self (c : Context) (key : String) (v : Json) :
    (c.put key v).getValue? key = some v := by
  rw [getValue?_put, if_pos rfl]

theorem getValue?_put_of_ne (h : k ≠ key) (v : Json) :
    (c.put key v).getValue? k = c.getValue? k := by
  rw [getValue?_put, if_neg (Ne.symm h)]

/-- A failure that has stored something new is not all or nothing. -/
theorem not_allOrNothing_put {e : ShapeError} {v : Json} (h : c.getValue? key ≠ some v) :
    ¬c.AllOrNothing ((.error e : Except ShapeError β), c.put key v) := by
  intro hall
  have := hall e rfl key
  rw [getValue?_put_self] at this
  exact h this.symm

/-! ## Insertion -/

/-- The new value can be stored, and the entry in its place is not a value of the shape. -/
def Displaces (c : Context) (shape : Shape α) (key : String) (value : α) : Prop :=
  (∃ v, shape.write value = .ok v) ∧
    ∃ v₀ e, c.getValue? key = some v₀ ∧ shape.read v₀ = .error e

theorem insert_eq_put {value : α} {v : Json} (hw : shape.write value = .ok v) :
    c.insert shape key value = (c.get shape key, c.put key v) := by
  rw [insert, hw]

theorem insert_eq_self {value : α} {e : ShapeError} (hw : shape.write value = .error e) :
    c.insert shape key value = (.error e, c) := by
  rw [insert, hw]

theorem get_eq_error_iff : (∃ e, c.get shape key = .error e) ↔
    ∃ v₀ e, c.getValue? key = some v₀ ∧ shape.read v₀ = .error e := by
  unfold get
  cases c.getValue? key with
  | none => exact ⟨nofun, nofun⟩
  | some v₀ =>
    dsimp only
    cases hread : shape.read v₀ with
    | ok a => exact ⟨nofun, fun ⟨_, _, h, h'⟩ => by cases h; rw [hread] at h'; cases h'⟩
    | error e => exact ⟨fun _ => ⟨v₀, e, rfl, hread⟩, fun _ => ⟨e, rfl⟩⟩

theorem insert_allOrNothing_iff (hshape : shape.Readable) {value : α} :
    c.AllOrNothing (c.insert shape key value) ↔ ¬c.Displaces shape key value := by
  cases hw : shape.write value with
  | error e =>
    rw [insert_eq_self hw]
    refine iff_of_true .unchanged fun h => ?_
    obtain ⟨v, hv⟩ := h.1
    rw [hw] at hv
    cases hv
  | ok v =>
    rw [insert_eq_put hw, Displaces, ← get_eq_error_iff, hw]
    cases hget : c.get shape key with
    | ok a => exact iff_of_true .of_ok fun h => nomatch h.2
    | error e =>
      refine iff_of_false (not_allOrNothing_put fun hv => ?_) fun h => h ⟨⟨v, rfl⟩, e, rfl⟩
      -- what has just been written can be read, so the entry was another one
      obtain ⟨b, hb⟩ := hshape value v hw
      simp only [get, hv, hb] at hget
      cases hget

/-! ## Changes -/

/-- There is no entry, the default can be stored, and what is then read is changed into something
that cannot. -/
def Strands (c : Context) (shape : Shape α) (key : String) (change : α → α) (default : α) : Prop :=
  c.getValue? key = none ∧ ∃ v a e, shape.write default = .ok v ∧ shape.read v = .ok a ∧
    shape.write (change a) = .error e

theorem alter_allOrNothing {change : α → α} {v : Json} :
    c.AllOrNothing (c.alter shape change key v) := by
  unfold alter
  split
  · exact .unchanged
  · exact .of_ok

theorem alter_eq_of_read {change : α → α} {v : Json} {a : α} (h : shape.read v = .ok a) :
    c.alter shape change key v = match shape.write (change a) with
      | .error e => (.error e, c)
      | .ok v => (.ok (), c.put key v) := by
  rw [alter, h]
  rfl

theorem upsert_allOrNothing_iff (hshape : shape.Readable) {change : α → α} {default : α} :
    c.AllOrNothing (c.upsert shape key change default) ↔ ¬c.Strands shape key change default := by
  unfold upsert
  cases hkey : c.getValue? key with
  | some v => exact iff_of_true alter_allOrNothing fun h => by rw [Strands, hkey] at h; cases h.1
  | none =>
    dsimp only
    rw [Strands, hkey]
    cases hw : shape.write default with
    | error e =>
      refine iff_of_true .unchanged ?_
      rintro ⟨-, v, a, _, hv, -⟩
      cases hv
    | ok v =>
      dsimp only
      obtain ⟨a, ha⟩ := hshape default v hw
      rw [alter_eq_of_read ha]
      cases hchange : shape.write (change a) with
      | ok v' =>
        refine iff_of_true .of_ok ?_
        rintro ⟨-, _, b, _, ⟨⟩, hb, hfails⟩
        cases ha.symm.trans hb
        cases hchange.symm.trans hfails
      | error e =>
        refine iff_of_false (not_allOrNothing_put ?_) fun h => h ⟨rfl, v, a, e, rfl, ha, hchange⟩
        rw [hkey]
        exact nofun

/-! ## Both -/

theorem getValue?_alter_of_ne {change : α → α} {v : Json} (h : k ≠ key) :
    (c.alter shape change key v).2.getValue? k = c.getValue? k := by
  unfold alter
  split
  · rfl
  · exact getValue?_put_of_ne h _

theorem getValue?_insert_of_ne {value : α} (h : k ≠ key) :
    (c.insert shape key value).2.getValue? k = c.getValue? k := by
  unfold insert
  split
  · rfl
  · exact getValue?_put_of_ne h _

theorem getValue?_upsert_of_ne {change : α → α} {default : α} (h : k ≠ key) :
    (c.upsert shape key change default).2.getValue? k = c.getValue? k := by
  unfold upsert
  split
  · exact getValue?_alter_of_ne h
  · split
    · rfl
    · rw [getValue?_alter_of_ne h, getValue?_put_of_ne h]

/-- An insertion is all or nothing unless it displaces an entry of another shape, and a change
unless it leaves a default behind. Either way no other entry is touched. -/
theorem writes_allOrNothing_iff (c : Context) (hshape : shape.Readable) (key : String)
    (value default : α) (change : α → α) :
    (c.AllOrNothing (c.insert shape key value) ↔ ¬c.Displaces shape key value) ∧
      (c.AllOrNothing (c.upsert shape key change default) ↔
        ¬c.Strands shape key change default) ∧
      ∀ k ≠ key, (c.insert shape key value).2.getValue? k = c.getValue? k ∧
        (c.upsert shape key change default).2.getValue? k = c.getValue? k :=
  ⟨insert_allOrNothing_iff hshape, upsert_allOrNothing_iff hshape,
    fun _ hk => ⟨getValue?_insert_of_ne hk, getValue?_upsert_of_ne hk⟩⟩

theorem string_readable : Shape.string.Readable := by
  rintro a v ⟨⟩
  exact ⟨a, rfl⟩

/-- Somebody's age. -/
def aged : Context := ofEntries [("age", .int 40)]

theorem aged_writes :
    Shape.string.Readable ∧
      (aged.AllOrNothing (aged.insert Shape.string "age" "forty") ↔
        ¬aged.Displaces Shape.string "age" "forty") ∧
      aged.AllOrNothing (aged.upsert Shape.string "age" (· ++ "!") "") := by
  have h := writes_allOrNothing_iff aged string_readable "age" "forty" "" (· ++ "!")
  exact ⟨string_readable, h.1, h.2.1.2 fun hstrands => nomatch hstrands.1⟩

/-- The age cannot be read as a text, but the text has taken its place. -/
theorem aged_insert_displaces : ¬aged.AllOrNothing (aged.insert Shape.string "age" "forty") := by
  intro h
  exact absurd (h _ rfl "age") (by decide)

end GraphAssembly.Context
