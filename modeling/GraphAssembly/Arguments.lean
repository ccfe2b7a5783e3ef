import GraphAssembly.Component.Field

/-!
# Arguments of a method

A method takes its arguments by position. The value of a parameter stands at its position; the
parent value, called the source, stands at position 0 unless a parameter claims it; every other
position reads as null.
-/

namespace GraphAssembly

structure Arguments where
  positional : List Json
  /-- The arguments by name, as they were received. -/
  named : Dict Json
  hasSource : Bool

namespace Arguments

/-- One more than the last declared position. -/
def length (ps : List Parameter) : Nat :=
  match (ps.map (·.position)).max? with
  | some last => last + 1
  | none => 1

/-- Whether no parameter claims position 0. -/
def hasSourceSlot (ps : List Parameter) : Bool := ps.all fun p => p.position ≠ 0

/-- Puts the value of a parameter at its position; a later parameter overwrites an earlier one. -/
def place (named : Dict Json) (slots : List Json) (p : Parameter) : List Json :=
  slots.set p.position ((Dict.get? named p.name).getD .null)

def expand (ps : List Parameter) (source : Json) (named : Dict Json) : Arguments :=
  let slots := ps.foldl (place named) (List.replicate (length ps) .null)
  let hasSource := hasSourceSlot ps
  { positional := if hasSource then slots.set 0 source else slots
    named
    hasSource }

/-- The value at a position, null when there is none. -/
def get (a : Arguments) (position : Nat) : Json := (a.positional[position]?).getD .null

/-- The value at a position as a value of some shape. -/
def parse {α : Type} (a : Arguments) (shape : Shape α) (position : Nat) : Except String α :=
  match shape.read (a.get position) with
  | .ok v => .ok v
  | .error e => .error (s!"invalid argument at position {position}: " ++ e.message)

/-- The parent value, unless a parameter claims its position. -/
def source? (a : Arguments) : Option Json := if a.hasSource then a.positional[0]? else none

end Arguments

end GraphAssembly
