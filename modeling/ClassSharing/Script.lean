import ClassSharing.Value

/-!
# Initializer scripts

The static initializer of a class is a value: nothing, a script, or one of the initializers of the
boot library. A script is a list of actions. It can read and write the statics of its class, make
objects under names of its own, request and restore other classes, leave a trace, fail and panic.

## Main definitions

* `Operand`: how a script, or a request from outside, denotes a value
* `Action`: one step of a script
* `Initializer`: the static initializer of a class
-/

namespace ClassSharing

/-- The position of a class in the list of all classes ever defined. -/
abbrev ClassId := Nat

/-- The position of a gate in the list of all gates ever made. -/
abbrev GateId := Nat

/-- The position of an object graph in the list of all object graphs ever made. -/
abbrev GraphId := Nat

/-- A denotation of a value. -/
inductive Operand where
  /-- A value that is not an object. -/
  | literal (v : Value)
  /-- The object bound to a name. -/
  | binding (name : Text)
  /-- The current value of a static field. -/
  | static (className field : Text)
  /-- An element of the object that another operand denotes. -/
  | element (array : Operand) (index : Int)
deriving Inhabited

/-- One step of a script. -/
inductive Action where
  /-- Assigns a static of the class. -/
  | set (field : Text) (operand : Operand)
  /-- Assigns a static of the class if it is nil. -/
  | setIfNil (field : Text) (operand : Operand)
  /-- Assigns several statics of the class together. -/
  | setAll (values : List (Text × Operand))
  /-- Requests a class and reports its fault. -/
  | request (className : Text)
  /-- Requests a class and traces the answer. -/
  | tryRequest (className : Text)
  /-- Asks an object graph to restore a class and traces the outcome. -/
  | restore (graph : GraphId) (className : Text)
  /-- Traces the state of a class. -/
  | see (className : Text)
  /-- Traces a static of the class. -/
  | show (field : Text)
  /-- Traces a line. -/
  | trace (line : Text)
  /-- Binds a name to a new object. -/
  | new (name className : Text)
  /-- Binds a name to a new object with elements. -/
  | newIndexed (name className : Text) (size : Int)
  /-- Assigns an instance variable of a bound object. -/
  | put (name field : Text) (operand : Operand)
  /-- Assigns an element of a bound object. -/
  | putAt (name : Text) (index : Int) (operand : Operand)
  /-- Traces the text of a string value. -/
  | traceText (operand : Operand)
  /-- Fails with a message. -/
  | fail (text : Text)
  /-- Panics with a message. -/
  | panic (text : Text)
  /-- Panics with a fault. -/
  | panicFault (text : Text)
  /-- Has the class requested by someone who waits until this initialization is over. -/
  | spawn (className : Text)
deriving Inhabited

/-- Where the dump seed comes from. -/
inductive SeedSource where
  /-- There is none. -/
  | absent
  /-- A constant. -/
  | constant (seed : Int64)
  /-- A gate, which knows the build and whether it is being dumped. -/
  | gate (id : GateId)
deriving DecidableEq, Inhabited

/-- The static initializer of a class. -/
inductive Initializer where
  | none
  | script (actions : List Action)
  /-- Fills the cache of boxed integers. -/
  | integerCache (integer : ClassId)
  /-- Makes the salt and the shared empty collections. -/
  | collections (set : ClassId) (seeds : SeedSource)
  /-- Resolves the module graph. -/
  | moduleGraph (descriptor set collections : ClassId)
  /-- Makes the preallocated locales. -/
  | localeCache (locale : ClassId)
deriving Inhabited

end ClassSharing
