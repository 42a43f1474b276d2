import ClassSharing.Fault

/-!
# Archive records

What an archive holds besides its header. The *directory* names the build, the modules, the
classes and the subgraphs; a *subgraph* is the archived static state of one class: the values of
its archived fields, the objects they reach, and the classes that those objects need.

A list may be absent or empty. Both mean the same to every reader, but they are told apart when a
record is shown, so a list is optional here.

## Main definitions

* `ValueRecord`, `FieldRecord`, `ObjectRecord`, `Subgraph`
* `ModuleRecord`, `SubgraphEntry`, `Directory`
-/

namespace ClassSharing

namespace Image

/-- The tags of archived values. -/
def nilTag : UInt8 := 0

def intTag : UInt8 := 1

def boolTag : UInt8 := 2

def stringTag : UInt8 := 3

def referenceTag : UInt8 := 4

/-- An archived value. A reference is a position in the list of archived objects. -/
structure ValueRecord where
  tag : UInt8
  int : Int64
  str : Text
  ref : Int64
deriving DecidableEq, Inhabited

namespace ValueRecord

/-- The archived nil. -/
def nil : ValueRecord := ⟨nilTag, 0, Text.empty, 0⟩

/-- An archived integer. -/
def ofInt (n : Int64) : ValueRecord := ⟨intTag, n, Text.empty, 0⟩

/-- An archived truth value. -/
def ofBool (b : Bool) : ValueRecord := ⟨boolTag, if b then 1 else 0, Text.empty, 0⟩

/-- An archived string. -/
def ofText (s : Text) : ValueRecord := ⟨stringTag, 0, s, 0⟩

/-- A reference to an archived object. -/
def ofIndex (i : Nat) : ValueRecord := ⟨referenceTag, 0, Text.empty, Int64.ofNat i⟩

end ValueRecord

/-- An archived static field. -/
structure FieldRecord where
  name : Text
  value : ValueRecord
deriving DecidableEq, Inhabited

/-- An archived object. -/
structure ObjectRecord where
  className : Text
  slots : Option (List ValueRecord)
  indexed : Bool
  elements : Option (List ValueRecord)
deriving DecidableEq, Inhabited

/-- The archived static state of one class. -/
structure Subgraph where
  className : Text
  fields : Option (List FieldRecord)
  /-- The other classes of the archived objects. -/
  classes : Option (List Text)
  objects : Option (List ObjectRecord)
deriving DecidableEq, Inhabited

/-- An archived module. Loaders are not archived, only the name of the module's loader is. -/
structure ModuleRecord where
  name : Text
  loader : Text
  packages : Option (List Text)
deriving DecidableEq, Inhabited

/-- Where the record of a class lies in the heap region. -/
structure SubgraphEntry where
  className : Text
  offset : UInt64
  length : UInt64
  checksum : UInt64
  objects : Int64
deriving DecidableEq, Inhabited

/-- The table of contents of an archive. -/
structure Directory where
  build : Build
  seed : Int64
  modules : Option (List ModuleRecord)
  classes : Option (List Text)
  subgraphs : Option (List SubgraphEntry)
deriving DecidableEq, Inhabited

/-- Static fields of one class that are to be archived. -/
structure FieldSpec where
  className : Text
  fields : List Text
deriving DecidableEq, Inhabited

/-- A list that is left out when it is empty. -/
def presentList {α : Type} (xs : List α) : Option (List α) := if xs.isEmpty then none else some xs

end Image

end ClassSharing
