import GraphAssembly.Graph.Link

/-!
# Assembly

A blueprint becomes a graph in three stages: its parts are declared, the declarations are linked,
and the root types are looked up.
-/

namespace GraphAssembly.Blueprint

variable {ω : Type}

/-- The root types must be object types; there need not be a mutation. -/
def checkRoots (b : Blueprint ω) (t : Declarations ω) : Except GraphError Unit :=
  if (t.object? b.rootQuery).isNone then .error (.missingRootQuery b.rootQuery)
  else match b.rootMutation with
    | none => .ok ()
    | some m => if (t.object? m).isNone then .error (.invalidRootMutation m) else .ok ()

/-- Links declarations into a graph. -/
def link (b : Blueprint ω) (t : Declarations ω) (c : Configuration) :
    Except GraphError (Graph ω) := do
  t.checkAll
  b.checkRoots t
  pure ⟨t.linkAll c.typeResolution, b.rootQuery, b.rootMutation⟩

/-- The graph of a blueprint, the codecs of its scalars taken from the registry. -/
def assemble (b : Blueprint ω) (r : Registry ω) (c : Configuration) :
    ExceptT GraphError (StateM (Workshop ω)) (Graph ω) := do
  let t ← Declarations.ofParts r (.ofComponents b.components)
  ExceptT.mk (pure (b.link t c))

end GraphAssembly.Blueprint
