import ClassSharing.Value

/-!
# Probe tables

An immutable set keeps its elements in a table twice as long as their number. An element stands at
the place of its hash or, if that is taken, at the next free place, going round. A salt decides
where a walk through the table begins and in which direction it goes, but not where elements
stand.

## Main definitions

* `SetTable.hash`: the hash of an integer or a string
* `SetTable.probe`: the place of a value in a table
* `SetTable.ofElements`: the table of a list of elements
* `SetTable.visit`: the elements in the order that a salt gives
-/

namespace ClassSharing

namespace SetTable

/-- The hash of an integer or a string; other values have none. -/
def hash : Value → Except Fault Int32
  | .int n => .ok (n ^^^ (n >>> 32)).toInt32
  | .str s => .ok (s.bytes.foldl (fun h b => 31 * h + Int32.ofNat b.toNat) 0)
  | v => .error (.of (.unhashable v.tagName))

/-- The place that a number falls on in a table of a given length. -/
def wrap (x : Int) (length : Nat) : Nat := (x % (length : Int)).toNat

/-- Looks for a value from a place on, at most `steps` places far: the place where it stands, or the
first free place, and whether it was found. -/
def probeFrom (table : List Value) (v : Value) : (steps place : Nat) → Except Fault (Nat × Bool)
  | 0, _ => .error (.of .fullTable)
  | steps + 1, place =>
    let current := table[place]?.getD .nil
    if current.isNil then .ok (place, false)
    else if current = v then .ok (place, true)
    else probeFrom table v steps ((place + 1) % table.length)

/-- Looks for a value in a table. -/
def probe (table : List Value) (v : Value) : Except Fault (Nat × Bool) :=
  match hash v with
  | .error fault => .error fault
  | .ok h => probeFrom table v table.length (wrap h.toInt table.length)

/-- Enters elements in a table one after another. An element that is there already is a fault, with
the text that `describe` gives it. -/
def enterAll (describe : Value → Text) : List Value → List Value → Except Fault (List Value)
  | table, [] => .ok table
  | table, v :: rest =>
    match probe table v with
    | .error fault => .error fault
    | .ok (_, true) => .error (.of (.duplicateElement (describe v)))
    | .ok (place, false) => enterAll describe (table.set place v) rest

/-- How many places a table has for each element. -/
def placesPerElement : Nat := 2

/-- The table of a list of elements. -/
def ofElements (describe : Value → Text) (elements : List Value) : Except Fault (List Value) :=
  enterAll describe (List.replicate (placesPerElement * elements.length) .nil) elements

/-- Whether a value stands in a table. -/
def contains (table : List Value) (v : Value) : Bool :=
  match table, probe table v with
  | [], _ => false
  | _, .ok (_, found) => found
  | _, .error _ => false

/-- The place after a place, in a direction. -/
def next (backwards : Bool) (length place : Nat) : Nat :=
  if backwards then wrap ((place : Int) - 1) length else (place + 1) % length

/-- The values at `steps` places from a place on, without nil. -/
def walk (table : List Value) (backwards : Bool) : (steps place : Nat) → List Value
  | 0, _ => []
  | steps + 1, place =>
    let rest := walk table backwards steps (next backwards table.length place)
    let current := table[place]?.getD .nil
    if current.isNil then rest else current :: rest

/-- The elements of a table in the order that a salt gives. -/
def visit (table : List Value) (salt : Int64) (backwards : Bool) : List Value :=
  walk table backwards table.length (wrap salt.toInt table.length)

end SetTable

end ClassSharing
