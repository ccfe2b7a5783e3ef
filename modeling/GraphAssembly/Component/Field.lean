import GraphAssembly.TypeRef

/-!
# Declared fields and parameters

How a component declares its fields and the parameters of its resolvers.

1. `FieldSpec` is the declared type of a field, which is never null unless it is declared nullable.
2. `Members` are fields under their names. A repeated name keeps its first declaration, and the
   repetition is remembered for the assembly to report.
3. `Parameter` has a position among the arguments of a method. One without an explicit position goes
   after all those before it, and never to position 0, where the source stands.
-/

namespace GraphAssembly

structure FieldSpec where
  typeName : String
  list : Bool := false
  nullable : Bool := false
  description : Option String := none
deriving DecidableEq, Inhabited

/-- The items of a declared list may be null. -/
def TypeRef.ofSpec (spec : FieldSpec) : TypeRef :=
  let base := if spec.list then .list (.ofName spec.typeName) else .ofName spec.typeName
  if spec.nullable then base else .nonNull base

theorem TypeRef.baseName_ofSpec (spec : FieldSpec) :
    (TypeRef.ofSpec spec).baseName = spec.typeName := by
  unfold TypeRef.ofSpec
  dsimp only
  split <;> split <;> exact baseName_ofName spec.typeName

/-! ## Members -/

structure Members (α : Type) where
  entries : Dict α := []
  duplicates : List String := []
  distinct : Dict.Distinct entries := by exact List.nodup_nil
  repeated : ∀ name ∈ duplicates, name ∈ Dict.keys entries := by exact nofun

namespace Members

variable {α : Type}

def add (m : Members α) (name : String) (value : α) : Members α :=
  if h : Dict.contains m.entries name then
    { m with
      duplicates := m.duplicates ++ [name]
      repeated := by
        intro n hn
        rcases List.mem_append.1 hn with hn | hn
        · exact m.repeated n hn
        · rwa [List.mem_singleton.1 hn, ← Dict.contains_eq_true_iff] }
  else
    { m with
      entries := m.entries ++ [(name, value)]
      distinct := Dict.distinct_append_single m.distinct (by simpa using h) value
      repeated := fun n hn => by
        simpa [Dict.keys] using Or.inl (m.repeated n hn) }

def ofList (declared : List (String × α)) : Members α :=
  declared.foldl (fun m d => m.add d.1 d.2) {}

/-- The names of all declarations, repeated ones last. -/
def declared (m : Members α) : List String := Dict.keys m.entries ++ m.duplicates

/-- No name is declared twice just if none is remembered as repeated. -/
theorem nodup_declared_iff {m : Members α} : m.declared.Nodup ↔ m.duplicates = [] := by
  refine ⟨fun h => ?_, fun h => ?_⟩
  · refine List.eq_nil_iff_forall_not_mem.2 fun name hname => ?_
    exact (List.nodup_append.1 h).2.2 name (m.repeated name hname) name hname rfl
  · rw [declared, h, List.append_nil]
    exact m.distinct

/-- Members that repeat no name are those that were declared. -/
theorem entries_ofList {declared : List (String × α)}
    (h : (ofList declared).duplicates = []) : (ofList declared).entries = declared := by
  suffices hfold : ∀ m : Members α,
      (declared.foldl (fun m d => m.add d.1 d.2) m).duplicates = [] →
      (declared.foldl (fun m d => m.add d.1 d.2) m).entries = m.entries ++ declared ∧
        m.duplicates = [] from (hfold _ h).1
  clear h
  induction declared with
  | nil => exact fun m hm => ⟨(List.append_nil _).symm, hm⟩
  | cons d rest ih =>
    intro m hm
    obtain ⟨hentries, hduplicates⟩ := ih (m.add d.1 d.2) hm
    rw [List.foldl_cons, hentries]
    unfold add at hduplicates ⊢
    split at hduplicates
    · exact absurd hduplicates (List.append_ne_nil_of_right_ne_nil _ (List.cons_ne_nil _ _))
    · rename_i hnew
      rw [dif_neg hnew]
      exact ⟨(List.append_cons _ _ _).symm, hduplicates⟩

end Members

/-! ## Parameters -/

structure Parameter where
  name : String
  type : FieldSpec
  position : Nat
deriving DecidableEq

namespace Parameter

/-- The position of the next parameter that does not ask for one. -/
def nextPosition (ps : List Parameter) : Nat :=
  match (ps.map position).max? with
  | some last => last + 1
  | none => 1

/-- Declares one more parameter. -/
def declare (ps : List Parameter) (name : String) (type : FieldSpec) (position : Option Nat) :
    List Parameter :=
  ps ++ [⟨name, { type with description := none }, position.getD (nextPosition ps)⟩]

end Parameter

end GraphAssembly
