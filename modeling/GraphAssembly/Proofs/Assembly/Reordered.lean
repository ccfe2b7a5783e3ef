import GraphAssembly.Proofs.Assembly.Exactness

/-!
# Blueprints in another order

What is declared, and whether it is well formed, does not depend on the order of the components.

1. The fragments of one object type.
2. The parts of a blueprint, and what refers to what.
3. Well-formed blueprints.
-/

namespace GraphAssembly

variable {ω : Type}

theorem firstOccurrences_perm {names names' : List String} (h : names.Perm names') :
    (firstOccurrences names).Perm (firstOccurrences names') := by
  rw [List.perm_ext_iff_of_nodup (nodup_firstOccurrences _) (nodup_firstOccurrences _)]
  intro name
  rw [mem_firstOccurrences, mem_firstOccurrences, h.mem_iff]

/-! ## Fragments -/

/-- The same fragments in another order. Definitions still come before implementations. -/
structure Fragments.Reordered (f f' : Fragments ω) : Prop where
  definitions : f.definitions.Perm f'.definitions
  implementations : f.implementations.Perm f'.implementations

namespace Fragments.Reordered

variable {f f' : Fragments ω} (h : f.Reordered f')

include h

theorem declared : f.declared.Perm f'.declared :=
  (h.definitions.flatMap_right _).append (h.implementations.flatMap_right _)

theorem fields : f.fields.Perm f'.fields :=
  (h.definitions.flatMap_right _).append (h.implementations.flatMap_right _)

theorem nodes : f.nodes.Perm f'.nodes :=
  (h.definitions.flatMap_right _).append (h.implementations.flatMap_right _)

theorem descriptions : f.descriptions.Perm f'.descriptions :=
  (h.definitions.filterMap _).append (h.implementations.filterMap _)

theorem implements : f.implements.Perm f'.implements :=
  firstOccurrences_perm
    ((h.definitions.flatMap_right _).append (h.implementations.flatMap_right _))

end Fragments.Reordered

/-! ## Parts -/

namespace Blueprint

/-- The same components in another order, with the same root types. -/
structure Reordered (b b' : Blueprint ω) : Prop where
  components : b.components.Perm b'.components
  query : b.rootQuery = b'.rootQuery
  mutation : b.rootMutation = b'.rootMutation

variable {b b' : Blueprint ω}

theorem reordered_of_perm {components : List (Component ω)}
    (h : b.components.Perm components) : b.Reordered { b with components } :=
  ⟨h, rfl, rfl⟩

namespace Reordered

theorem symm (h : b.Reordered b') : b'.Reordered b :=
  ⟨h.components.symm, h.query.symm, h.mutation.symm⟩

variable (h : b.Reordered b')

include h

theorem interfaces : b.parts.interfaces.Perm b'.parts.interfaces := h.components.filterMap _

theorem unions : b.parts.unions.Perm b'.parts.unions := h.components.filterMap _

theorem inputs : b.parts.inputs.Perm b'.parts.inputs := h.components.filterMap _

theorem scalars : b.parts.scalars.Perm b'.parts.scalars := h.components.filterMap _

theorem definitions : b.parts.definitions.Perm b'.parts.definitions := h.components.filterMap _

theorem implementations : b.parts.implementations.Perm b'.parts.implementations :=
  h.components.filterMap _

theorem objectNames : b.objectNames.Perm b'.objectNames :=
  firstOccurrences_perm ((h.definitions.map _).append (h.implementations.map _))

theorem fragments (object : String) : (b.fragments object).Reordered (b'.fragments object) :=
  ⟨h.definitions.filter _, h.implementations.filter _⟩

theorem declaredTypes : b.declaredTypes.Perm b'.declaredTypes := by
  have hnamed : (b.parts.interfaces.map fun i => (i.name, NodeKind.interface)).Perm
      (b'.parts.interfaces.map fun i => (i.name, .interface)) := h.interfaces.map _
  exact ((((hnamed.append_left _).append (h.unions.map _)).append (h.inputs.map _)).append
    (h.scalars.map _)).append (h.objectNames.map _)

/-! ## References -/

theorem refers {parent field type : String} {usage : Usage}
    (hr : b.Refers parent field type usage) : b'.Refers parent field type usage := by
  cases hr with
  | object ho hf => exact .object (h.objectNames.subset ho) ((h.fragments _).fields.subset hf)
  | argument ho hf ha =>
    exact .argument (h.objectNames.subset ho) ((h.fragments _).fields.subset hf) ha
  | interface hi hf => exact .interface (h.interfaces.subset hi) hf
  | input hi hf => exact .input (h.inputs.subset hi) hf

theorem suits {type : String} {usage : Usage} (hs : b.Suits type usage) : b'.Suits type usage := by
  obtain ⟨kind, hkind, hallows⟩ := hs
  exact ⟨kind, h.declaredTypes.subset hkind, hallows⟩

theorem possible {abstractType object : String} (hp : b.Possible abstractType object) :
    b'.Possible abstractType object := by
  cases hp with
  | interface hi ho hn =>
    exact .interface (h.interfaces.subset hi) (h.objectNames.subset ho)
      ((h.fragments _).implements.subset hn)
  | union hu hm => exact .union (h.unions.subset hu) hm

theorem covariant {actual expected : FieldSpec} (hc : b.Covariant actual expected) :
    b'.Covariant actual expected :=
  ⟨hc.list, hc.nullable, hc.type.imp_right h.possible⟩

theorem implements {object : String} {i : InterfaceDefinition ω} (hi : b.Implements object i) :
    b'.Implements object i := by
  intro field spec hf
  obtain ⟨f, hmem, hname, hcovariant⟩ := hi field spec hf
  exact ⟨f, (h.fragments object).fields.subset hmem, hname, h.covariant hcovariant⟩

/-! ## Well-formedness -/

/-- The codecs are those of a registry that may have been used in the meantime. -/
theorem wellFormed {r : Registry ω} {w w' : Workshop ω} (hr : r.Deterministic) (hw : r.Reached w)
    (hw' : r.Reached w') (hb : b.WellFormed r w) : b'.WellFormed r w' where
  types := (h.declaredTypes.map Prod.fst).nodup_iff.1 hb.types
  interfaceFields i hi := hb.interfaceFields i (h.interfaces.symm.subset hi)
  inputFields i hi := hb.inputFields i (h.inputs.symm.subset hi)
  objectFields object ho := (h.fragments object).declared.nodup_iff.1
    (hb.objectFields object (h.objectNames.symm.subset ho))
  codecs s hs := by
    obtain ⟨i, hi, hcodec⟩ := hb.codecs s (h.scalars.symm.subset hs)
    have halike := r.resolve_alike hr hw hw' s.codec
    rw [hi] at halike
    obtain ⟨j, hj, hsame⟩ := halike.exists_ok
    exact ⟨j, hj, hsame.asCodec? ▸ hcodec⟩
  references _ _ _ _ hrefers := h.suits (hb.references _ _ _ _ (h.symm.refers hrefers))
  interfaces object ho name hn := by
    obtain ⟨i, hi, hname, himplements⟩ := hb.interfaces object (h.objectNames.symm.subset ho) name
      ((h.fragments object).implements.symm.subset hn)
    exact ⟨i, h.interfaces.subset hi, hname, h.implements himplements⟩
  members u hu member hm :=
    h.objectNames.subset (hb.members u (h.unions.symm.subset hu) member hm)
  query := h.objectNames.subset (h.query ▸ hb.query)
  mutation name hname := h.objectNames.subset (hb.mutation name (h.mutation.trans hname))

end Reordered

end Blueprint

end GraphAssembly
