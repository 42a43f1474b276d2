import ClassSharing.Machine.Loader

/-!
# The machine

The machine holds every class, object and module ever made, the table of registered classes and the
loaders. Classes, objects and modules are named by their positions, which never change; a class that
is registered under a name already taken replaces the other one in the table only.

## Main definitions

* `Machine`, `Machine.new`
* `Machine.lineage`: a class and its superclasses
* `Machine.slotIndex?`: the slot of an instance variable
* `Machine.defineClass`, `Machine.registerClass`
* `Machine.instantiate`, `Machine.getField`, `Machine.setField`, `Machine.getElement`,
  `Machine.setElement`
* `Machine.createLoaders`, `Machine.defineModule`, `Machine.allModules`
-/

namespace ClassSharing

/-- The classes, the heap and the loaders of one virtual machine. -/
structure Machine where
  classes : Array Class
  /-- The registered classes by full name. -/
  names : Table ClassId
  objects : Array Object
  modules : Array Module
  boot : Loader
  platform : Option Loader
  system : Option Loader
deriving Inhabited

namespace Machine

/-! ### Classes -/

/-- The root class. -/
def objectClass : ClassId := 0

/-- The class of plain arrays. -/
def arrayClass : ClassId := 1

/-- A class by its position. -/
def classAt (m : Machine) (c : ClassId) : Class := m.classes[c]?.getD default

theorem classAt_of_size_le {m : Machine} {c : ClassId} (h : m.classes.size ≤ c) :
    m.classAt c = default := by
  rw [classAt, Array.getElem?_eq_none h]
  rfl

/-- The class registered under a name. -/
def lookup (m : Machine) (name : Text) : Option ClassId := m.names.get? name

/-- The machine with one class changed. -/
def updateClass (m : Machine) (c : ClassId) (f : Class → Class) : Machine :=
  { m with classes := m.classes.modify c f }

/-- The full name of a class. -/
def className (m : Machine) (c : ClassId) : Text := (m.classAt c).fullName

/-- The state of a class. -/
def stateOf (m : Machine) (c : ClassId) : InitState := (m.classAt c).state

/-- The machine with a class in another state. -/
def setState (m : Machine) (c : ClassId) (s : InitState) : Machine :=
  m.updateClass c fun k => { k with state := s }

/-- The machine with other statics of a class. -/
def setStatics (m : Machine) (c : ClassId) (s : Statics) : Machine :=
  m.updateClass c fun k => { k with statics := s }

/-- A class and its superclasses, most derived first. A superclass is always older than the classes
derived from it, so the chain ends. -/
def lineage (m : Machine) (c : ClassId) : List ClassId :=
  match (m.classAt c).superclass with
  | some s => if s < c then c :: m.lineage s else [c]
  | none => [c]
termination_by c

/-- Whether a class is another one or derives from it. -/
def isSubclassOf (m : Machine) (c other : ClassId) : Bool := (m.lineage c).contains other

/-- The number of slots that a class inherits. -/
def inheritedSlots (m : Machine) (superclass : Option ClassId) : Nat :=
  match superclass with
  | some s => (m.classAt s).slotCount
  | none => 0

/-- The slot of an instance variable in a class itself: its first declaration counts. -/
def ownSlot? (m : Machine) (c : ClassId) (name : Text) : Option Nat :=
  ((m.classAt c).instanceVariables.idxOf? name).map
    (m.inheritedSlots (m.classAt c).superclass + ·)

/-- The slot of an instance variable: the most derived class that declares it counts. -/
def slotIndex? (m : Machine) (c : ClassId) (name : Text) : Option Nat :=
  (m.lineage c).findSome? fun k => m.ownSlot? k name

/-- The class that a specification describes. -/
def makeClass (m : Machine) (spec : ClassSpec) (loader : Option LoaderKind) : Class :=
  { name := spec.name
    space := spec.space
    superclass := spec.superclass
    loader := loader
    instanceVariables := spec.instanceVariables
    slotCount := m.inheritedSlots spec.superclass + spec.instanceVariables.length
    statics := Statics.none.declare spec.statics
    initializer := spec.initializer
    state := .uninitialized }

/-- Adds a class and registers it under its full name, replacing a class of that name. -/
def addClass (m : Machine) (c : Class) : ClassId × Machine :=
  (m.classes.size,
    { m with classes := m.classes.push c, names := m.names.insert c.fullName m.classes.size })

/-- Registers a class without a loader. -/
def registerClass (m : Machine) (spec : ClassSpec) : ClassId × Machine :=
  m.addClass (m.makeClass spec none)

/-- Defines a class on a loader; a name can be defined only once. -/
def defineClass (m : Machine) (spec : ClassSpec) (loader : LoaderKind) :
    Except Fault (ClassId × Machine) :=
  match m.lookup spec.fullName with
  | some _ => .error (.of (.classDefined spec.fullName))
  | none => .ok (m.addClass (m.makeClass spec (some loader)))

/-- The registered classes in byte-wise order of their names. -/
def allClasses (m : Machine) : List ClassId := m.names.values

/-- The number of classes that nobody has requested. -/
def uninitializedCount (m : Machine) : Nat :=
  m.classes.countP fun c => c.state.isUninitialized

/-! ### Objects -/

/-- An object by its position. -/
def objectAt (m : Machine) (o : ObjectId) : Object := m.objects[o]?.getD Object.blank

theorem objectAt_of_size_le {m : Machine} {o : ObjectId} (h : m.objects.size ≤ o) :
    m.objectAt o = Object.blank := by
  rw [objectAt, Array.getElem?_eq_none h]
  rfl

/-- An object with a class exists. -/
theorem lt_size_of_class {m : Machine} {o : ObjectId} {c : ClassId}
    (h : (m.objectAt o).classId = some c) : o < m.objects.size := by
  refine Nat.lt_of_not_le fun hle => ?_
  rw [objectAt_of_size_le hle] at h
  cases h

/-- Puts an object on the heap. -/
def allocate (m : Machine) (o : Object) : ObjectId × Machine :=
  (m.objects.size, { m with objects := m.objects.push o })

/-- The machine with one object changed. -/
def updateObject (m : Machine) (o : ObjectId) (f : Object → Object) : Machine :=
  { m with objects := m.objects.modify o f }

/-- An object of a class with nil in every slot. -/
def freshObject (m : Machine) (c : ClassId) : Object :=
  ⟨some c, List.replicate (m.classAt c).slotCount .nil, none⟩

/-- A new instance of a class. -/
def instantiate (m : Machine) (c : ClassId) : ObjectId × Machine := m.allocate (m.freshObject c)

/-- A new instance of a class with given elements. -/
def instantiateWith (m : Machine) (c : ClassId) (elements : List Value) : ObjectId × Machine :=
  m.allocate { m.freshObject c with elements := some elements }

/-- The number of elements of forty bytes beyond which an address space of 48 bits has no room. -/
def elementLimit : Int := 0x1000000000000 / 40

/-- A new instance of a class with a number of nil elements. -/
def instantiateIndexed (m : Machine) (c : ClassId) (size : Int) :
    Except Panic (ObjectId × Machine) :=
  if size < 0 || elementLimit < size then .error .lengthOutOfRange
  else .ok (m.instantiateWith c (List.replicate size.toNat .nil))

/-- A new array. -/
def newArray (m : Machine) (elements : List Value) : ObjectId × Machine :=
  m.instantiateWith arrayClass elements

/-- The name of an object's class, a question mark without one. -/
def classNameOf (m : Machine) (o : ObjectId) : Text :=
  match (m.objectAt o).classId with
  | some c => m.className c
  | none => "?"

/-- A value on one line. -/
def describe (m : Machine) : Value → Text
  | .nil => "nil"
  | .int n => Text.signedDecimal n.toInt
  | .bool b => if b then "true" else "false"
  | .str s => s.quoted
  | .obj o => "a " ++ m.classNameOf o

/-- The slot that an instance variable has in an object. -/
def fieldIndex (m : Machine) (o : ObjectId) (name : Text) : Except Failure Nat :=
  match (m.objectAt o).classId with
  | none => .error (.panic .missingObject)
  | some c =>
    match m.slotIndex? c name with
    | some i => .ok i
    | none => .error (.fault (.of (.noInstanceVariable (m.className c) name)))

/-- An instance variable of an object. -/
def getField (m : Machine) (o : ObjectId) (name : Text) : Except Failure Value :=
  match m.fieldIndex o name with
  | .error e => .error e
  | .ok i =>
    match (m.objectAt o).slots[i]? with
    | some v => .ok v
    | none => .error (.panic (.indexOutOfRange i (m.objectAt o).slots.length))

/-- The machine with a slot of an object changed. -/
def writeSlot (m : Machine) (o : ObjectId) (i : Nat) (v : Value) : Machine :=
  m.updateObject o fun obj => { obj with slots := obj.slots.set i v }

/-- The machine with an element of an object changed. -/
def writeElement (m : Machine) (o : ObjectId) (i : Nat) (v : Value) : Machine :=
  m.updateObject o fun obj => { obj with elements := obj.elements.map (·.set i v) }

/-- Assigns an instance variable of an object. -/
def setField (m : Machine) (o : ObjectId) (name : Text) (v : Value) : Except Failure Machine :=
  match m.fieldIndex o name with
  | .error e => .error e
  | .ok i =>
    if i < (m.objectAt o).slots.length then .ok (m.writeSlot o i v)
    else .error (.panic (.indexOutOfRange i (m.objectAt o).slots.length))

/-- The slot at a position. -/
def getSlot (m : Machine) (o : ObjectId) (i : Int) : Except Panic Value :=
  match i, (m.objectAt o).slots[i.toNat]? with
  | .ofNat _, some v => .ok v
  | _, _ => .error (.misuse "Object.GetSlot: index out of range")

/-- Assigns the slot at a position. -/
def setSlot (m : Machine) (o : ObjectId) (i : Int) (v : Value) : Except Panic Machine :=
  if 0 ≤ i && i.toNat < (m.objectAt o).slots.length then .ok (m.writeSlot o i.toNat v)
  else .error (.misuse "Object.SetSlot: index out of range")

/-- The element at a position. -/
def getElement (m : Machine) (o : ObjectId) (i : Int) : Except Panic Value :=
  match i, (m.objectAt o).elementList[i.toNat]? with
  | .ofNat _, some v => .ok v
  | _, _ => .error (.indexOutOfRange i (m.objectAt o).size)

/-- Assigns the element at a position. -/
def setElement (m : Machine) (o : ObjectId) (i : Int) (v : Value) : Except Panic Machine :=
  if 0 ≤ i && i.toNat < (m.objectAt o).size then .ok (m.writeElement o i.toNat v)
  else .error (.indexOutOfRange i (m.objectAt o).size)

/-! ### Statics -/

/-- The value of a static field. -/
def static (m : Machine) (c : ClassId) (name : Text) : Value := (m.classAt c).statics.get name

/-- Assigns a static field. -/
def setStatic (m : Machine) (c : ClassId) (name : Text) (v : Value) : Except Fault Machine :=
  match (m.classAt c).statics.set? name v with
  | some s => .ok (m.setStatics c s)
  | none => .error (.of (.noStaticField (m.className c) name))

/-- Assigns several static fields together. -/
def setAllStatics (m : Machine) (c : ClassId) (values : List (Text × Value)) :
    Except Fault Machine :=
  match (m.classAt c).statics.setAll? values with
  | .ok s => .ok (m.setStatics c s)
  | .error name => .error (.of (.noStaticField (m.className c) name))

/-! ### Loaders and modules -/

/-- The tables of a loader, if it has been created. -/
def loader? (m : Machine) : LoaderKind → Option Loader
  | .boot => some m.boot
  | .platform => m.platform
  | .system => m.system

/-- The machine with other tables of a loader. -/
def setLoader (m : Machine) (kind : LoaderKind) (l : Loader) : Machine :=
  match kind with
  | .boot => { m with boot := l }
  | .platform => { m with platform := some l }
  | .system => { m with system := some l }

/-- Creates the platform and the system loader, unless they exist. -/
def createLoaders (m : Machine) : Machine :=
  match m.platform with
  | some _ => m
  | none => { m with platform := some Loader.empty, system := some Loader.empty }

/-- A module by its position. -/
def moduleAt (m : Machine) (id : ModuleId) : Module := m.modules[id]?.getD default

/-- Adds a module that is not linked yet. -/
def addModule (m : Machine) (name : Text) (packages : List Text) : ModuleId × Machine :=
  (m.modules.size, { m with modules := m.modules.push (Module.unlinked name packages) })

/-- Links a module to a loader. A loader that does not exist is a panic. -/
def defineModule (m : Machine) (kind : LoaderKind) (id : ModuleId) : Except Failure Machine :=
  match m.loader? kind with
  | none => .error (.panic .missingObject)
  | some l =>
    let mod := m.moduleAt id
    match l.conflict? (fun i => (m.moduleAt i).name) mod.name mod.packages with
    | some (package, owner) =>
      .error (.fault (.of (.packageConflict package owner mod.name)))
    | none =>
      let linked :=
        { m with modules := m.modules.modify id fun x => { x with loader := some kind } }
      .ok (linked.setLoader kind (l.enter id mod.name mod.packages))

/-- The modules of all loaders, boot loader first, by name within a loader. -/
def allModules (m : Machine) : List ModuleId :=
  LoaderKind.all.flatMap fun kind =>
    match m.loader? kind with
    | some l => l.modules.values
    | none => []

/-! ### The start -/

/-- A machine without any class. -/
def blank : Machine :=
  { classes := #[], names := Table.empty, objects := #[], modules := #[], boot := Loader.empty
    platform := none, system := none }

/-- A machine with the root class and the array class. -/
def new : Machine :=
  let root := blank.addClass (blank.makeClass { name := "Object", superclass := none } (some .boot))
  (root.2.addClass
    (root.2.makeClass { name := "Array", superclass := some objectClass } (some .boot))).2

end Machine

end ClassSharing
