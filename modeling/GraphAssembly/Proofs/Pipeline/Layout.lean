import GraphAssembly.Arguments
import Mathlib.Data.List.Induction

/-!
# Arguments by position

Parameters are declared one after the other, and each keeps the position that it gets then. When the
method is called, the values of its parameters are laid out by these positions.

1. `Numbered`: the positions that parameters get.
2. Values that are put at their positions one after the other.
3. `LaidOut`, `declared_laidOut`: what stands at each position of a call.
-/

namespace GraphAssembly

namespace Parameter

/-! ## Declared positions -/

/-- A parameter as it is asked for, with or without a position. -/
structure Request where
  name : String
  type : FieldSpec
  position : Option Nat

/-- Declares parameters one after the other. -/
def declareAll (asked : List Request) : List Parameter :=
  asked.foldl (fun ps d => declare ps d.name d.type d.position) []

/-- What a request becomes, after those that came before it. -/
structure Follows (before : List Parameter) (d : Request) (p : Parameter) : Prop where
  name : p.name = d.name
  explicit : ∀ n, d.position = some n → p.position = n
  automatic : d.position = none → 1 ≤ p.position ∧ ∀ q ∈ before, q.position < p.position

/-- How the parameters that are asked for are numbered. Only a position that is asked for can repeat
an earlier one. -/
structure Numbered (asked : List Request) : Prop where
  length : (declareAll asked).length = asked.length
  follows : ∀ before d after, asked = before ++ d :: after → ∃ p later,
    declareAll asked = declareAll before ++ p :: later ∧ Follows (declareAll before) d p
  distinct : ((declareAll asked).map position).Nodup ↔ ∀ before d after n,
    asked = before ++ d :: after → d.position = some n → n ∉ (declareAll before).map position

section Positions

variable {ps : List Parameter} {p q : Parameter} {asked before after : List Request} {d : Request}

theorem one_le_nextPosition (ps : List Parameter) : 1 ≤ nextPosition ps := by
  unfold nextPosition
  split <;> omega

theorem lt_nextPosition (hq : q ∈ ps) : q.position < nextPosition ps := by
  unfold nextPosition
  cases hmax : (ps.map position).max? with
  | none => simp_all
  | some last =>
    have hle := (List.max?_eq_some_iff.1 hmax).2 q.position (List.mem_map_of_mem hq)
    show q.position < last + 1
    omega

/-- The next position comes right after the last one. -/
theorem nextPosition_of_last (hp : p ∈ ps) (hlast : ∀ q ∈ ps, q.position ≤ p.position) :
    nextPosition ps = p.position + 1 := by
  have hmax : (ps.map position).max? = some p.position := by
    refine List.max?_eq_some_iff.2 ⟨List.mem_map_of_mem hp, ?_⟩
    simpa using hlast
  unfold nextPosition
  rw [hmax]

/-- One more request leaves the parameters before it as they are. -/
theorem declareAll_concat (asked : List Request) (d : Request) : ∃ p,
    declareAll (asked ++ [d]) = declareAll asked ++ [p] ∧ Follows (declareAll asked) d p := by
  refine ⟨⟨d.name, { d.type with description := none },
    d.position.getD (nextPosition (declareAll asked))⟩, ?_, rfl, ?_, ?_⟩
  · simp [declareAll, declare]
  · intro n hn
    simp [hn]
  · intro hn
    simp only [hn, Option.getD_none]
    exact ⟨one_le_nextPosition _, fun q hq => lt_nextPosition hq⟩

theorem exists_declareAll_append (before after : List Request) : ∃ later,
    declareAll (before ++ after) = declareAll before ++ later ∧ later.length = after.length := by
  induction after using List.reverseRecOn with
  | nil => exact ⟨[], by simp⟩
  | append_singleton after d ih =>
    obtain ⟨later, happend, hlength⟩ := ih
    obtain ⟨p, hp, -⟩ := declareAll_concat (before ++ after) d
    refine ⟨later ++ [p], ?_, by simp [hlength]⟩
    rw [← List.append_assoc, hp, happend, List.append_assoc]

theorem exists_follows (before : List Request) (d : Request) (after : List Request) :
    ∃ p later, declareAll (before ++ d :: after) = declareAll before ++ p :: later ∧
      Follows (declareAll before) d p := by
  obtain ⟨p, hp, hfollows⟩ := declareAll_concat before d
  obtain ⟨later, hlater, -⟩ := exists_declareAll_append (before ++ [d]) after
  refine ⟨p, later, ?_, hfollows⟩
  rw [List.append_cons, hlater, hp, ← List.append_cons]

/-- Positions are distinct if none that is asked for repeats an earlier one. -/
theorem nodup_positions (h : ∀ before d after n, asked = before ++ d :: after →
    d.position = some n → n ∉ (declareAll before).map position) :
    ((declareAll asked).map position).Nodup := by
  induction asked using List.reverseRecOn with
  | nil => exact List.nodup_nil
  | append_singleton asked d ih =>
    obtain ⟨p, hp, hfollows⟩ := declareAll_concat asked d
    have hnodup := ih fun before d' after n hasked =>
      h before d' (after ++ [d]) n (by simp [hasked])
    have hnew : p.position ∉ (declareAll asked).map position := by
      cases hd : d.position with
      | some n =>
        rw [hfollows.explicit n hd]
        exact h asked d [] n rfl hd
      | none =>
        intro hmem
        obtain ⟨q, hq, heq⟩ := List.mem_map.1 hmem
        have hlt := (hfollows.automatic hd).2 q hq
        omega
    rw [hp, List.map_append, List.map_singleton]
    exact (List.perm_append_singleton _ _).nodup_iff.2 (List.nodup_cons.2 ⟨hnew, hnodup⟩)

theorem numbered (asked : List Request) : Numbered asked where
  length := by
    obtain ⟨later, hlater, hlength⟩ := exists_declareAll_append [] asked
    have hnil : declareAll [] = [] := rfl
    rw [List.nil_append, hnil, List.nil_append] at hlater
    rw [hlater, hlength]
  follows := by
    rintro before d after rfl
    exact exists_follows before d after
  distinct := by
    refine ⟨?_, nodup_positions⟩
    rintro hnodup before d after n rfl hn hmem
    obtain ⟨p, later, hp, hfollows⟩ := exists_follows before d after
    rw [hp, List.map_append, List.map_cons, hfollows.explicit n hn] at hnodup
    exact (List.nodup_append.1 hnodup).2.2 n hmem n List.mem_cons_self rfl

end Positions

/-- Explicit positions may leave gaps, and the next parameter goes after the last position. -/
example : (declareAll [⟨"name", ⟨"String", false, false, none⟩, none⟩,
      ⟨"self", ⟨"ID", false, false, none⟩, some 0⟩, ⟨"age", ⟨"Int", false, true, none⟩, some 5⟩,
      ⟨"limit", ⟨"Int", false, true, none⟩, none⟩]).map position = [1, 0, 5, 6] := by
  decide

end Parameter

namespace Arguments

/-! ## Values at their positions -/

section Slots

variable {ps before after : List Parameter} {p : Parameter} {source : Json} {named : Dict Json}
  {slots : List Json} {i : Nat}

theorem length_eq_nextPosition (ps : List Parameter) : length ps = Parameter.nextPosition ps := rfl

theorem length_foldl_place : (ps.foldl (place named) slots).length = slots.length := by
  induction ps generalizing slots with
  | nil => rfl
  | cons p ps ih => rw [List.foldl_cons, ih, place, List.length_set]

/-- A position that no parameter has stays as it is. -/
theorem getElem?_foldl_place (h : ∀ p ∈ ps, p.position ≠ i) :
    (ps.foldl (place named) slots)[i]? = slots[i]? := by
  induction ps generalizing slots with
  | nil => rfl
  | cons p ps ih =>
    obtain ⟨hp, hps⟩ := List.forall_mem_cons.1 h
    rw [List.foldl_cons, ih hps, place, List.getElem?_set_ne hp]

/-- Of the parameters at one position, the last one counts. -/
theorem getElem?_foldl_place_last (hafter : ∀ q ∈ after, q.position ≠ p.position)
    (hp : p.position < slots.length) :
    ((before ++ p :: after).foldl (place named) slots)[p.position]? =
      some ((Dict.get? named p.name).getD .null) := by
  rw [List.foldl_append, List.foldl_cons, getElem?_foldl_place hafter, place,
    List.getElem?_set_self]
  rwa [length_foldl_place]

theorem hasSourceSlot_iff : hasSourceSlot ps = true ↔ ∀ p ∈ ps, p.position ≠ 0 := by
  simp [hasSourceSlot]

theorem length_expand : (expand ps source named).positional.length = length ps := by
  unfold expand
  dsimp only
  split <;> simp [length_foldl_place]

/-- Apart from the source, all positions are those of parameters. -/
theorem getElem?_expand (h : i = 0 → ∃ p ∈ ps, p.position = 0) :
    (expand ps source named).positional[i]? =
      (ps.foldl (place named) (List.replicate (length ps) .null))[i]? := by
  unfold expand
  dsimp only
  split
  · rename_i hsource
    have hi : i ≠ 0 := by
      intro hi
      obtain ⟨p, hp, hzero⟩ := h hi
      exact hasSourceSlot_iff.1 hsource p hp hzero
    exact List.getElem?_set_ne hi.symm
  · rfl

theorem getElem?_expand_zero (h : ∀ p ∈ ps, p.position ≠ 0) :
    (expand ps source named).positional[0]? = some source := by
  have hpos := Parameter.one_le_nextPosition ps
  unfold expand
  dsimp only
  rw [if_pos (hasSourceSlot_iff.2 h), List.getElem?_set_self]
  rw [length_foldl_place, List.length_replicate, length_eq_nextPosition]
  omega

end Slots

/-! ## Calls -/

/-- What the arguments of a method are, by its parameters. -/
structure LaidOut (ps : List Parameter) (source : Json) (named : Dict Json) (a : Arguments) :
    Prop where
  length_nil : ps = [] → a.positional.length = 1
  length_last : ∀ p ∈ ps, (∀ q ∈ ps, q.position ≤ p.position) →
    a.positional.length = p.position + 1
  value : ∀ before p after, ps = before ++ p :: after → (∀ q ∈ after, q.position ≠ p.position) →
    a.positional[p.position]? = some ((Dict.get? named p.name).getD .null)
  source : (∀ p ∈ ps, p.position ≠ 0) →
    a.positional[0]? = some source ∧ a.source? = some source
  /-- A parameter that claims its position hides the source. -/
  hidden : (∃ p ∈ ps, p.position = 0) → a.source? = none
  /-- Between the parameters and behind them. -/
  rest : ∀ i, i ≠ 0 → (∀ p ∈ ps, p.position ≠ i) → a.get i = .null

/-- Of two parameters at one position the last one counts, and a gap reads as null. -/
example (spec : FieldSpec) : (expand [⟨"name", spec, 3⟩, ⟨"title", spec, 3⟩, ⟨"age", spec, 1⟩]
      (.bool true) [("age", .bool false), ("title", .str "Dr")]).positional =
    [.bool true, .bool false, .null, .str "Dr"] :=
  rfl

theorem expand_laidOut (ps : List Parameter) (source : Json) (named : Dict Json) :
    LaidOut ps source named (expand ps source named) where
  length_nil := by
    rintro rfl
    exact length_expand
  length_last p hp hlast := by
    rw [length_expand, length_eq_nextPosition, Parameter.nextPosition_of_last hp hlast]
  value := by
    rintro before p after rfl hafter
    have hp : p ∈ before ++ p :: after := by simp
    rw [getElem?_expand fun hzero => ⟨p, hp, hzero⟩, getElem?_foldl_place_last hafter]
    rw [List.length_replicate, length_eq_nextPosition]
    exact Parameter.lt_nextPosition hp
  source h := by
    have hzero : (expand ps source named).positional[0]? = some source := getElem?_expand_zero h
    have hsource : (expand ps source named).hasSource = true := hasSourceSlot_iff.2 h
    refine ⟨hzero, ?_⟩
    rw [source?, if_pos hsource, hzero]
  hidden := by
    rintro ⟨p, hp, hzero⟩
    have hsource : ¬ (expand ps source named).hasSource = true := fun h =>
      hasSourceSlot_iff.1 h p hp hzero
    rw [source?, if_neg hsource]
  rest i hi h := by
    rw [get, getElem?_expand fun hzero => absurd hzero hi, getElem?_foldl_place h]
    simp only [List.getElem?_replicate]
    split <;> rfl

/-- Whatever parameters are declared, each gets a position of its own unless it asks for another,
and a call has its value there. -/
theorem declared_laidOut (asked : List Parameter.Request) (source : Json) (named : Dict Json) :
    Parameter.Numbered asked ∧
      LaidOut (Parameter.declareAll asked) source named
        (expand (Parameter.declareAll asked) source named) :=
  ⟨Parameter.numbered asked, expand_laidOut _ source named⟩

end Arguments

end GraphAssembly
