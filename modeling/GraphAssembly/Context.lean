import GraphAssembly.Json.Shape

/-!
# The context of a request

Entries that the middleware and methods of one request pass along, and the result slots that
middleware results are merged into.

1. Reading and writing an entry as a value of some shape.
2. Merging results into a slot: the first is kept as it is, later ones are gathered in a list. The
   number of merges is counted, so that a first result that is itself a list stays one result.
-/

namespace GraphAssembly

structure Context where
  entries : Dict Json := []
  /-- How often each slot has been merged into. -/
  merges : Dict Nat := []
deriving Inhabited

namespace Context

variable {α : Type}

def empty : Context := {}

def getValue? (c : Context) (key : String) : Option Json := Dict.get? c.entries key

def contains (c : Context) (key : String) : Bool := Dict.contains c.entries key

/-- The entries among these keys, in the order of the keys. -/
def select (c : Context) (keys : List String) : Dict Json :=
  keys.filterMap fun k => (c.getValue? k).map fun v => (k, v)

def put (c : Context) (key : String) (v : Json) : Context :=
  { c with entries := Dict.insert c.entries key v }

def ofEntries (entries : Dict Json) : Context := entries.foldl (fun c e => c.put e.1 e.2) empty

/-- The entry read as a value of the shape, if there is one. -/
def get (c : Context) (shape : Shape α) (key : String) : Except ShapeError (Option α) :=
  match c.getValue? key with
  | none => .ok none
  | some v => (shape.read v).map some

/-- Stores the value and answers with the previous one. The value is stored even when the previous
one turns out to have another shape. -/
def insert (c : Context) (shape : Shape α) (key : String) (value : α) :
    Except ShapeError (Option α) × Context :=
  match shape.write value with
  | .error e => (.error e, c)
  | .ok v => (c.get shape key, c.put key v)

/-- Replaces the value found under the key. -/
def alter (c : Context) (shape : Shape α) (change : α → α) (key : String) (v : Json) :
    Except ShapeError Unit × Context :=
  match (shape.read v).bind fun a => shape.write (change a) with
  | .error e => (.error e, c)
  | .ok v => (.ok (), c.put key v)

/-- Changes the value under the key, which is the default if there is none. -/
def upsert (c : Context) (shape : Shape α) (key : String) (change : α → α) (default : α) :
    Except ShapeError Unit × Context :=
  match c.getValue? key with
  | some v => c.alter shape change key v
  | none =>
    match shape.write default with
    | .error e => (.error e, c)
    | .ok v => (c.put key v).alter shape change key v

/-! ## Result slots -/

/-- The slot after one more result, the `count`-th one merged into it. -/
def merged (count : Nat) (current : Option Json) (result : Json) : Json :=
  match current, count with
  | none, _ => result
  | some _, 1 => result
  | some first, 2 => .arr [first, result]
  | some (.arr results), _ => .arr (results ++ [result])
  | some previous, _ => .arr [previous, result]

/-- Stores a result under its slot. -/
def merge (c : Context) (slot : String) (result : Json) : Context :=
  let count := (Dict.get? c.merges slot).getD 0 + 1
  { entries := Dict.insert c.entries slot (merged count (c.getValue? slot) result)
    merges := Dict.insert c.merges slot count }

end Context

end GraphAssembly
