import ClassSharing.Image.Record
import ClassSharing.Machine.Basic

/-!
# Building archived objects

The objects of a subgraph record are built on the heap in the order of the record, so the object
with number `i` lies `i` places after the objects that were there before. The record is checked
completely before the heap changes.

## Main definitions

* `Image.Subgraph.materialize`: the values of the archived fields over fresh objects
-/

namespace ClassSharing

namespace Image

/-- The value of a record whose objects lie from position `start` on. -/
def ValueRecord.toValue (v : ValueRecord) (start count : Nat) : Except Fault Value :=
  if v.tag = nilTag then .ok .nil
  else if v.tag = intTag then .ok (.int v.int)
  else if v.tag = boolTag then .ok (.bool (v.int ≠ 0))
  else if v.tag = stringTag then .ok (.str v.str)
  else if v.tag = referenceTag then
    if v.ref < 0 || (count : Int) ≤ v.ref.toInt then .error (.of (.record (.reference v.ref)))
    else .ok (.obj (start + v.ref.toInt.toNat))
  else .error (.of (.record (.valueTag v.tag)))

/-- The class of the object record with number `i`, if the record fits it. -/
def ObjectRecord.fit (m : Machine) (allowed : Table ClassId) (r : ObjectRecord) (i : Nat) :
    Except Fault ClassId :=
  match allowed.get? r.className with
  | none => .error (.of (.record (.unlistedClass i r.className)))
  | some c =>
    let declared := (m.classAt c).slotCount
    let recorded := (r.slots.getD []).length
    if recorded ≠ declared then .error (.of (.record (.slotCount r.className declared recorded)))
    else if !r.indexed && !(r.elements.getD []).isEmpty then
      .error (.of (.record (.elementsOfPlainObject i)))
    else .ok c

/-- The object of a record. -/
def ObjectRecord.toObject (r : ObjectRecord) (c : ClassId) (start count : Nat) :
    Except Fault Object := do
  let slots ← (r.slots.getD []).mapM fun v => v.toValue start count
  let elements ← (r.elements.getD []).mapM fun v => v.toValue start count
  return ⟨some c, slots, if r.indexed then some elements else none⟩

namespace Subgraph

/-- The classes of the object records, if all records fit. -/
def fitAll (m : Machine) (allowed : Table ClassId) (s : Subgraph) : Except Fault (List ClassId) :=
  (s.objects.getD []).zipIdx.mapM fun (r, i) => r.fit m allowed i

/-- The fresh objects and the values of the fields over them. -/
def materialize (m : Machine) (allowed : Table ClassId) (s : Subgraph) :
    Except Fault (List Object × List (Text × Value)) := do
  let records := s.objects.getD []
  let classes ← s.fitAll m allowed
  let start := m.objects.size
  let objects ← (records.zip classes).mapM fun (r, c) => r.toObject c start records.length
  let values ← (s.fields.getD []).mapM fun f => do
    return (f.name, ← f.value.toValue start records.length)
  return (objects, values)

end Subgraph

end Image

end ClassSharing
