import ClassSharing.Machine.Basic

/-!
# Snapshots

A snapshot is what can be seen of the heap from a list of values: the values themselves and every
object reachable from them. Objects are numbered in the order of a breadth-first walk, slots before
elements, so two lists of values have the same snapshot exactly when the graphs behind them have the
same shape.

## Main definitions

* `Machine.explore`: the reachable objects in breadth-first order
* `Snapshot`, `Machine.snapshot`
-/

namespace ClassSharing

/-- An object as a snapshot shows it; a reference to an object is its number in the snapshot. -/
structure ObjectView where
  className : Text
  slots : List Value
  elements : Option (List Value)
deriving DecidableEq, Inhabited

/-- What can be seen from a list of values. -/
structure Snapshot where
  roots : List Value
  objects : List ObjectView
deriving DecidableEq, Inhabited

namespace Machine

/-- Appends the object of a value, if it has one that is not in the list yet. -/
def note (found : List ObjectId) (v : Value) : List ObjectId :=
  match v with
  | .obj o => if found.contains o then found else found ++ [o]
  | _ => found

/-- Walks on from the object at position `i` of the list of objects found so far. -/
def explore (m : Machine) : (fuel i : Nat) → (found : List ObjectId) → List ObjectId
  | 0, _, found => found
  | fuel + 1, i, found =>
    match found[i]? with
    | none => found
    | some o => m.explore fuel (i + 1) (((m.objectAt o).references.map Prod.fst).foldl note found)

/-- The objects reachable from a list of values, in breadth-first order. -/
def reachable (m : Machine) (roots : List Value) : List ObjectId :=
  m.explore m.objects.size 0 (roots.foldl note [])

/-- A value with its object renamed to its position in a list. -/
def renumber (found : List ObjectId) : Value → Value
  | .obj o => .obj (found.idxOf o)
  | v => v

/-- An object as a snapshot with a given numbering shows it. -/
def viewObject (m : Machine) (found : List ObjectId) (o : ObjectId) : ObjectView :=
  { className := m.classNameOf o
    slots := (m.objectAt o).slots.map (renumber found)
    elements := (m.objectAt o).elements.map (·.map (renumber found)) }

/-- What can be seen from a list of values. -/
def snapshot (m : Machine) (roots : List Value) : Snapshot :=
  let found := m.reachable roots
  { roots := roots.map (renumber found), objects := found.map (m.viewObject found) }

end Machine

end ClassSharing
