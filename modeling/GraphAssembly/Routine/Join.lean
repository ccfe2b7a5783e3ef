import GraphAssembly.Routine

/-!
# Several routines at once

A join turns a list of routines into one routine that answers with all their results, in the order
of the list.

1. `inOrder` finishes each routine before the next one starts.
2. `inPasses` visits the unfinished routines again and again, in the order of the list, each until
   it finishes or suspends; the whole suspends after a pass that leaves some unfinished.
-/

namespace GraphAssembly.Routine

variable {σ α β γ : Type}

/-- Runs a routine until it finishes or suspends, and goes on with what is left of it. -/
def turn (finished : β → Routine σ γ) (suspended : Routine σ β → Routine σ γ) :
    Routine σ β → Routine σ γ
  | .done b => finished b
  | .read next => .read fun s => (next s).turn finished suspended
  | .write s next => .write s (next.turn finished suspended)
  | .suspend next => suspended next

/-- Two routines in passes, the first one leading. -/
def both : Routine σ α → Routine σ β → Routine σ (α × β)
  | .done a, other => other.bind fun b => .done (a, b)
  | .read next, other => .read fun s => both (next s) other
  | .write s next, other => .write s (both next other)
  | .suspend next, other =>
    other.turn (fun b => .suspend (next.bind fun a => .done (a, b)))
      fun rest => .suspend (both next rest)

/-- A way to run several routines of one kind. -/
abbrev Join (σ α : Type) := List (Routine σ α) → Routine σ (List α)

def inOrder : Join σ α
  | [] => .done []
  | r :: rs => r.bind fun a => (inOrder rs).bind fun as => .done (a :: as)

def inPasses : Join σ α
  | [] => .done []
  | r :: rs => (both r (inPasses rs)).bind fun (a, as) => .done (a :: as)

end GraphAssembly.Routine
