import GraphAssembly.Proofs.Printing.Names

/-!
# Printing loses nothing

Two graphs with the same text have the same types, in the same order, but for what is not printed:
where the values come from, and how descriptions of several lines are broken into lines.

1. `Node.Same`.
2. Definitions that are equal come from nodes that are the same.
3. The types that are printed are those that are not built in.
4. The statement.
-/

namespace GraphAssembly

open Sdl

variable {ω ω' : Type}

/-! ## Nodes that are the same -/

/-- The arguments with their types, in order. -/
def FieldNode.parameters (f : FieldNode ω) : List (String × TypeRef) :=
  (Dict.values f.arguments).map fun a => (a.name, a.type)

structure FieldNode.Same (f : FieldNode ω) (f' : FieldNode ω') : Prop where
  name : f.name = f'.name
  type : f.type = f'.type
  parameters : f.parameters = f'.parameters
  description : Description.Same f.description f'.description

structure InputValue.Same (v v' : InputValue) : Prop where
  name : v.name = v'.name
  type : v.type = v'.type
  description : Description.Same v.description v'.description

/-- The same kind of node, with the same name, description, fields, interfaces and members. -/
inductive Node.Same : Node ω → Node ω' → Prop
  | scalar {n : ScalarNode ω} {n' : ScalarNode ω'} (name : n.name = n'.name)
    (description : Description.Same n.description n'.description) : Same (.scalar n) (.scalar n')
  | object {n : ObjectNode ω} {n' : ObjectNode ω'} (name : n.name = n'.name)
    (description : Description.Same n.description n'.description)
    (implements : n.implements = n'.implements)
    (fields : List.Forall₂ FieldNode.Same (Dict.values n.fields) (Dict.values n'.fields)) :
    Same (.object n) (.object n')
  | interface {n : InterfaceNode ω} {n' : InterfaceNode ω'} (name : n.name = n'.name)
    (description : Description.Same n.description n'.description)
    (fields : List.Forall₂ FieldNode.Same (Dict.values n.fields) (Dict.values n'.fields)) :
    Same (.interface n) (.interface n')
  | union {n : UnionNode ω} {n' : UnionNode ω'} (name : n.name = n'.name)
    (description : Description.Same n.description n'.description)
    (possibleTypes : n.typing.possibleTypes = n'.typing.possibleTypes) :
    Same (.union n) (.union n')
  | input {n n' : InputNode} (name : n.name = n'.name)
    (description : Description.Same n.description n'.description)
    (fields : List.Forall₂ InputValue.Same (Dict.values n.fields) (Dict.values n'.fields)) :
    Same (.input n) (.input n')

/-! ## Equal definitions -/

theorem Description.Same.of_literal? {indent : String} {d d' : Option String}
    (h : literal? indent d = literal? indent d') : Same d d' := by
  cases d <;> cases d'
  · exact .absent
  · cases h
  · cases h
  · exact .of_literal (Option.some.inj h)

/-- Lists with equal images are related if equal images are. -/
theorem forall₂_of_map_eq {α β γ : Type} {f : α → γ} {g : β → γ} {R : α → β → Prop}
    (hR : ∀ {a b}, f a = g b → R a b) {as : List α} {bs : List β} (h : as.map f = bs.map g) :
    List.Forall₂ R as bs := by
  have hmap : List.Forall₂ (· = ·) (as.map f) (bs.map g) := by rw [h, List.forall₂_eq_eq_eq]
  rw [List.forall₂_map_left_iff, List.forall₂_map_right_iff] at hmap
  exact hmap.imp fun _ _ => hR

theorem FieldNode.Same.of_toField {f : FieldNode ω} {f' : FieldNode ω'}
    (h : f.toField = f'.toField) : f.Same f' := by
  obtain ⟨hdescription, hname, harguments, htype⟩ := Field.mk.inj h
  have hparameters := congrArg (List.map fun i : Input => (i.name, i.type)) harguments
  rw [List.map_map, List.map_map] at hparameters
  exact ⟨hname, htype, hparameters, .of_literal? hdescription⟩

theorem InputValue.Same.of_toInput {v v' : InputValue} (h : v.toInput = v'.toInput) :
    v.Same v' := by
  obtain ⟨hdescription, hname, htype⟩ := Input.mk.inj h
  exact ⟨hname, htype, .of_literal? hdescription⟩

theorem Node.Same.of_toDefinition {n : Node ω} {n' : Node ω'}
    (h : n.toDefinition = n'.toDefinition) : n.Same n' := by
  cases n with
  | scalar n =>
    cases n' with
    | scalar n' =>
      obtain ⟨hdescription, hname⟩ := Definition.scalar.inj h
      exact .scalar hname (.of_literal? hdescription)
    | _ => cases h
  | object n =>
    cases n' with
    | object n' =>
      obtain ⟨hdescription, hname, himplements, hfields⟩ := Definition.object.inj h
      exact .object hname (.of_literal? hdescription) himplements
        (forall₂_of_map_eq .of_toField hfields)
    | _ => cases h
  | interface n =>
    cases n' with
    | interface n' =>
      obtain ⟨hdescription, hname, hfields⟩ := Definition.interface.inj h
      exact .interface hname (.of_literal? hdescription) (forall₂_of_map_eq .of_toField hfields)
    | _ => cases h
  | union n =>
    cases n' with
    | union n' =>
      obtain ⟨hdescription, hname, hpossible⟩ := Definition.union.inj h
      exact .union hname (.of_literal? hdescription) hpossible
    | _ => cases h
  | input n =>
    cases n' with
    | input n' =>
      obtain ⟨hdescription, hname, hfields⟩ := Definition.input.inj h
      exact .input hname (.of_literal? hdescription) (forall₂_of_map_eq .of_toInput hfields)
    | _ => cases h

/-- Whether the definition is that of a type, and not of the root operations. -/
def Sdl.Definition.isType : Definition → Bool
  | .schema _ => false
  | _ => true

theorem Node.isType_toDefinition (n : Node ω) : n.toDefinition.isType = true := by
  cases n <;> rfl

theorem Graph.filter_isType_document (g : Graph ω) : g.document.filter Definition.isType =
    ((Dict.values g.nodes).filter isPrinted).map Node.toDefinition := by
  have hroots : (g.listedRoots.map Definition.schema).toList.filter Definition.isType = [] := by
    cases g.listedRoots <;> rfl
  rw [document, List.filter_append, hroots, List.nil_append, List.filter_eq_self]
  intro d hd
  obtain ⟨n, -, rfl⟩ := List.mem_map.1 hd
  exact n.isType_toDefinition

/-! ## Built-in types -/

/-- The types of a graph that are not built in. -/
def Graph.declared (g : Graph ω) : List (Node ω) :=
  (Dict.values g.nodes).filter fun n => n.name ∉ TypeRef.builtinNames

theorem Blueprint.mem_declaredTypes_builtin (b : Blueprint ω) {name : String}
    (h : name ∈ TypeRef.builtinNames) : (name, .scalar) ∈ b.declaredTypes := by
  have hmem : (name, NodeKind.scalar) ∈ TypeRef.builtinNames.map fun name => (name, .scalar) :=
    List.mem_map_of_mem h
  simp only [declaredTypes, List.mem_append]
  tauto

namespace Blueprint.Assembled

variable {b : Blueprint ω} {c : Configuration} {g : Graph ω} {t : Declarations ω}

/-- All types are printed but those that are built in. -/
theorem filter_isPrinted (h : b.Assembled c g t) :
    (Dict.values g.nodes).filter Graph.isPrinted = g.declared := by
  refine List.filter_congr fun n hn => ?_
  obtain ⟨d, hget, rfl⟩ := h.exists_of_mem hn
  obtain ⟨-, hdeclares, hkind⟩ := h.table.of_get? hget
  have hscalar (hd : d.kind ≠ .scalar) : d.name ∉ TypeRef.builtinNames := fun hname =>
    hd (eq_of_declaredTypes h.table.nodup hkind (b.mem_declaredTypes_builtin hname))
  rw [Declarations.name_link]
  cases hdeclares with
  | builtin hname =>
    have hprinted := decide_eq_false (not_not_intro hname)
    exact hprinted.symm
  | scalar hs =>
    have hprinted := decide_eq_true (scalar_name_notMem_builtinNames h.table.nodup hs)
    exact hprinted.symm
  | interface | union | input | object => exact (decide_eq_true (hscalar nofun)).symm

end Blueprint.Assembled

/-! ## The statement -/

namespace Blueprint

variable {b : Blueprint ω} {r : Registry ω} {w : Workshop ω} {c : Configuration} {g : Graph ω}
  {b' : Blueprint ω'} {r' : Registry ω'} {w' : Workshop ω'} {c' : Configuration} {g' : Graph ω'}

/-- Graphs that are printed as the same text have the same types. -/
theorem toSdl_faithful (h : ((b.assemble r c) w).1 = .ok g)
    (h' : ((b'.assemble r' c') w').1 = .ok g') (hnames : g.WellNamed) (hnames' : g'.WellNamed)
    (hsdl : g.toSdl = g'.toSdl) : List.Forall₂ Node.Same g.declared g'.declared := by
  obtain ⟨t, ht⟩ := exists_assembled h
  obtain ⟨t', ht'⟩ := exists_assembled h'
  have hdocument : g.document = g'.document := by
    have hread := read_toSdl_of_assemble h hnames
    rw [hsdl, read_toSdl_of_assemble h' hnames'] at hread
    exact (Option.some.inj hread).symm
  have htypes := congrArg (List.filter Definition.isType) hdocument
  rw [g.filter_isType_document, g'.filter_isType_document, ht.filter_isPrinted,
    ht'.filter_isPrinted] at htypes
  exact forall₂_of_map_eq .of_toDefinition htypes

/-- A story with a description. -/
def story (description : String) : Blueprint Unit where
  rootQuery := "Query"
  components := [
    .definition {
      name := "Query"
      description := some description
      fields := .ofList [("title", { typeName := "String", nullable := true })] }]

/-- Lines that are broken in two ways are printed alike, and they are the same lines. -/
theorem story_faithful : ∃ g g',
    (((story "Once upon\na \"\"\"time\"\"\"").assemble clockwork {}) ⟨[], ()⟩).1 = .ok g ∧
    (((story "Once upon\r\na \"\"\"time\"\"\"\n").assemble clockwork {}) ⟨[], ()⟩).1 = .ok g' ∧
    g.WellNamed ∧ g'.WellNamed ∧ g.toSdl = g'.toSdl ∧
    List.Forall₂ Node.Same g.declared g'.declared := by
  obtain ⟨g, g', hg, hg', hnames, hnames', hsdl⟩ : ∃ g g',
      (((story "Once upon\na \"\"\"time\"\"\"").assemble clockwork {}) ⟨[], ()⟩).1 = .ok g ∧
      (((story "Once upon\r\na \"\"\"time\"\"\"\n").assemble clockwork {}) ⟨[], ()⟩).1 = .ok g' ∧
      g.WellNamed ∧ g'.WellNamed ∧ g.toSdl = g'.toSdl :=
    ⟨_, _, rfl, rfl, by decide, by decide, by decide⟩
  exact ⟨g, g', hg, hg', hnames, hnames', hsdl, toSdl_faithful hg hg' hnames hnames' hsdl⟩

end Blueprint

end GraphAssembly
