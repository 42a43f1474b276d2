import ClassSharing.Machine.Statics
import ClassSharing.Script

/-!
# Classes and objects

A class has a name in a namespace, a superclass, a defining loader, instance variables and static
fields, and it is in one of four states of initialization. An object has a value in each slot of its
class and, if it is indexed, a list of elements.

## Main definitions

* `LoaderKind`: the three foundational loaders
* `InitState`: the states of initialization; an erroneous class remembers what went wrong
* `Class`, `Class.fullName`
* `Object`, `Object.references`
-/

namespace ClassSharing

/-! ### Loader kinds -/

/-- The three foundational loaders. -/
inductive LoaderKind where
  | boot | platform | system
deriving DecidableEq, Inhabited

namespace LoaderKind

/-- All kinds, parents first. -/
def all : List LoaderKind := [boot, platform, system]

/-- The name of a loader. -/
def name : LoaderKind → Text
  | boot => "boot"
  | platform => "platform"
  | system => "system"

/-- The number of a loader. -/
def code : LoaderKind → UInt8
  | boot => 0
  | platform => 1
  | system => 2

/-- The loader with a given number. -/
def ofCode? (code : UInt8) : Option LoaderKind := all.find? fun k => k.code = code

/-- The name of the loader with a given number. -/
def nameOf (code : UInt8) : Text :=
  match ofCode? code with
  | some kind => kind.name
  | none => "unknown"

/-- The loader with a given name. -/
def ofName (text : Text) : Except Fault LoaderKind :=
  match all.find? fun k => k.name = text with
  | some kind => .ok kind
  | none => .error (.of (.unknownLoaderKind text))

/-- The loader that a loader delegates to. -/
def parent? : LoaderKind → Option LoaderKind
  | boot => none
  | platform => some boot
  | system => some platform

theorem ofName_name (kind : LoaderKind) : ofName kind.name = .ok kind := by cases kind <;> rfl

end LoaderKind

/-! ### Classes -/

/-- The states of class initialization. -/
inductive InitState where
  /-- Nobody has requested the class. -/
  | uninitialized
  /-- The initialization has begun and is not over. -/
  | running
  /-- The initialization has succeeded. -/
  | ready
  /-- The initialization has failed for a reason that is kept. -/
  | erroneous (cause : Fault)
deriving DecidableEq, Inhabited

namespace InitState

/-- The name of the state with a given number. -/
def nameOf (code : UInt8) : Text :=
  match code with
  | 0 => "Uninitialized"
  | 1 => "BeingInitialized"
  | 2 => "Initialized"
  | 3 => "Erroneous"
  | _ => "Unknown"

/-- The number of a state. -/
def code : InitState → UInt8
  | uninitialized => 0
  | running => 1
  | ready => 2
  | erroneous _ => 3

/-- The name of a state. -/
def name (s : InitState) : Text := nameOf s.code

/-- Whether nobody has requested the class. -/
def isUninitialized : InitState → Bool
  | uninitialized => true
  | _ => false

/-- Whether the initialization has succeeded. -/
def isReady : InitState → Bool
  | ready => true
  | _ => false

end InitState

/-- A class of the machine. -/
structure Class where
  name : Text
  /-- The namespace, empty for the default one. -/
  space : Text
  superclass : Option ClassId
  /-- The defining loader, if a loader defined the class. -/
  loader : Option LoaderKind
  /-- The instance variables that the class adds to those of its superclass. -/
  instanceVariables : List Text
  /-- The number of slots of an instance. -/
  slotCount : Nat
  statics : Statics
  initializer : Initializer
  state : InitState
deriving Inhabited

namespace Class

/-- The name with the namespace in front, if there is one. -/
def qualify (space name : Text) : Text := if space.isEmpty then name else space ++ "::" ++ name

/-- The name under which a class is registered. -/
def fullName (c : Class) : Text := qualify c.space c.name

/-- Whether the class has been initialized. -/
def isReady (c : Class) : Bool := c.state.isReady

end Class

/-- What a class is made of before it is defined. -/
structure ClassSpec where
  name : Text
  space : Text := Text.empty
  superclass : Option ClassId
  instanceVariables : List Text := []
  statics : List Text := []
  initializer : Initializer := .none
deriving Inhabited

namespace ClassSpec

/-- The name under which the class is going to be registered. -/
def fullName (spec : ClassSpec) : Text := Class.qualify spec.space spec.name

end ClassSpec

/-! ### Objects -/

/-- An object of the heap. -/
structure Object where
  /-- The class; an object may be made without one. -/
  classId : Option ClassId
  slots : List Value
  /-- The elements, if the object is indexed. -/
  elements : Option (List Value)
deriving DecidableEq, Inhabited

namespace Object

/-- An object without class and slots. -/
def blank : Object := ⟨none, [], none⟩

/-- Whether the object has elements, be it none. -/
def isIndexed (o : Object) : Bool := o.elements.isSome

/-- The elements, none if the object is not indexed. -/
def elementList (o : Object) : List Value := o.elements.getD []

/-- The number of elements. -/
def size (o : Object) : Nat := o.elementList.length

/-- The values that the object holds, slots first, each with whether it is an element. -/
def references (o : Object) : List (Value × Bool) :=
  o.slots.map (·, false) ++ o.elementList.map (·, true)

end Object

end ClassSharing
