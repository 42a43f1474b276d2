import ClassSharing.Fault

/-!
# Values

A value is nil, an integer, a truth value, a string or a reference to a heap object. Objects are
named by their position in the heap, so equality of values is identity for objects and equality of
contents for everything else.

## Main definitions

* `Value`, with the tests and the accessors of its cases
* `Value.tagName`, `Value.tagNameOf`: the names of the cases
-/

namespace ClassSharing

/-- The position of an object in the heap. -/
abbrev ObjectId := Nat

/-- A value of the machine. -/
inductive Value where
  | nil
  | int (n : Int64)
  | bool (b : Bool)
  | str (s : Text)
  | obj (o : ObjectId)
deriving DecidableEq, Inhabited

namespace Value

/-- The number of a value's case. -/
def tag : Value → UInt8
  | nil => 0
  | int _ => 1
  | bool _ => 2
  | str _ => 3
  | obj _ => 4

/-- The name of the case with a given number. -/
def tagNameOf (tag : UInt8) : Text :=
  match tag with
  | 0 => "nil"
  | 1 => "int"
  | 2 => "bool"
  | 3 => "string"
  | 4 => "object"
  | t => "Tag(" ++ Text.decimal t.toNat ++ ")"

/-- The name of a value's case. -/
def tagName (v : Value) : Text := tagNameOf v.tag

/-- The integer of an integer value. -/
def toInt : Value → Except Panic Int64
  | int n => .ok n
  | _ => .error (.misuse "Value.SmallInt: not an integer")

/-- The truth value of a boolean value. -/
def toBool : Value → Except Panic Bool
  | bool b => .ok b
  | _ => .error (.misuse "Value.Bool: not a boolean")

/-- The text of a string value. -/
def toText : Value → Except Panic Text
  | str s => .ok s
  | _ => .error (.misuse "Value.Str: not a string")

/-- The object that a value refers to. -/
def object? : Value → Option ObjectId
  | obj o => some o
  | _ => none

/-- The value that refers to an object, nil without one. -/
def ofObject? : Option ObjectId → Value
  | some o => obj o
  | none => nil

/-- Whether a value is nil. -/
def isNil : Value → Bool
  | nil => true
  | _ => false

end Value

end ClassSharing
