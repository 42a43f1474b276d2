import ClassSharing.Image.Record
import ClassSharing.Machine.Basic

/-!
# Collecting subgraphs

The archived state of a class is collected breadth first: the values of the named fields, then the
objects they reach in the order in which they are found. An object whose class was not defined by
the boot loader cannot be archived, and then nothing of the class is.

## Main definitions

* `Collector`: the objects found so far, and the classes they need
* `Collector.record`: the archived form of a value
* `Machine.collectSubgraph`: the subgraph of some static fields of a class
-/

namespace ClassSharing

open Image

/-- The objects found so far, in order, and the classes they need besides the class itself. -/
structure Collector where
  objects : List ObjectId
  classes : List Text
  /-- The class whose fields are collected. -/
  owner : Text
deriving Inhabited

namespace Collector

/-- The collector with an object of a class added. -/
def add (col : Collector) (o : ObjectId) (className : Text) : Collector :=
  { col with
    objects := col.objects ++ [o]
    classes := if className = col.owner || col.classes.contains className then col.classes
      else col.classes ++ [className] }

/-- The words for the loader of a class in a message. -/
def loaderText : Option LoaderKind → Text
  | some kind => kind.name
  | none => "<nil>"

/-- The archived form of a reference. -/
def recordObject (m : Machine) (col : Collector) (o : ObjectId) :
    Except Failure (ValueRecord × Collector) :=
  match col.objects.idxOf? o with
  | some i => .ok (.ofIndex i, col)
  | none =>
    match (m.objectAt o).classId with
    | none => .error (.panic .missingObject)
    | some c =>
      let k := m.classAt c
      if k.loader ≠ some .boot then
        .error (.fault (.of (.archiving (.foreignReference k.fullName (loaderText k.loader)))))
      else .ok (.ofIndex col.objects.length, col.add o k.fullName)

/-- The archived form of a value. -/
def record (m : Machine) (col : Collector) : Value → Except Failure (ValueRecord × Collector)
  | .nil => .ok (.nil, col)
  | .int n => .ok (.ofInt n, col)
  | .bool b => .ok (.ofBool b, col)
  | .str s => .ok (.ofText s, col)
  | .obj o => col.recordObject m o

/-- The archived forms of values, in order. -/
def recordAll (m : Machine) (col : Collector) :
    List Value → Except Failure (List ValueRecord × Collector)
  | [] => .ok ([], col)
  | v :: rest => do
    let (r, col) ← col.record m v
    let (rs, col) ← col.recordAll m rest
    return (r :: rs, col)

/-- The archived form of an object. -/
def recordContents (m : Machine) (col : Collector) (o : ObjectId) :
    Except Failure (ObjectRecord × Collector) := do
  let obj := m.objectAt o
  let (slots, col) ← col.recordAll m obj.slots
  let (elements, col) ← col.recordAll m obj.elementList
  return (⟨m.classNameOf o, presentList slots, obj.isIndexed, presentList elements⟩, col)

/-- The archived forms of the objects from position `i` on, which are found on the way. An object is
found once, so the number of objects on the heap is fuel enough. -/
def recordObjects (m : Machine) : (fuel i : Nat) → Collector →
    Except Failure (List ObjectRecord × Collector)
  | 0, _, col => .ok ([], col)
  | fuel + 1, i, col =>
    match col.objects[i]? with
    | none => .ok ([], col)
    | some o => do
      let (r, col) ← col.recordContents m o
      let (rs, col) ← recordObjects m fuel (i + 1) col
      return (r :: rs, col)

/-- The archived forms of static fields, in order. -/
def recordFields (m : Machine) (c : ClassId) (className : Text) (col : Collector) :
    List Text → Except Failure (List FieldRecord × Collector)
  | [] => .ok ([], col)
  | name :: rest =>
    if !(m.classAt c).statics.has name then
      .error (.fault (.of (.archiving (.noStaticField className name))))
    else match col.record m (m.static c name) with
      | .error (.fault fault) => .error (.fault (.within (.field name) fault))
      | .error (.panic p) => .error (.panic p)
      | .ok (r, col) => do
        let (rs, col) ← recordFields m c className col rest
        return (⟨name, r⟩ :: rs, col)

end Collector

namespace Machine

/-- The class of a specification, if its state can be archived. -/
def archivableClass (m : Machine) (name : Text) : Except Fault ClassId :=
  match m.lookup name with
  | none => .error (.of (.classNotFound name))
  | some c =>
    if !(m.classAt c).isReady then .error (.of (.archiving (.uninitialized name)))
    else if (m.classAt c).loader ≠ some .boot then
      .error (.of (.archiving (.notOnBootLoader name)))
    else .ok c

/-- The subgraph of some static fields of a class. -/
def collectSubgraph (m : Machine) (spec : FieldSpec) : Except Failure Subgraph :=
  match m.archivableClass spec.className with
  | .error fault => .error (.fault fault)
  | .ok c => do
    let owner := m.className c
    let (fields, col) ← Collector.recordFields m c spec.className ⟨[], [], owner⟩ spec.fields
    let (objects, col) ← Collector.recordObjects m (m.objects.size + 1) 0 col
    return ⟨owner, presentList fields, presentList col.classes, presentList objects⟩

end Machine

end ClassSharing
