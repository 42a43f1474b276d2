import ClassSharing.Cbor.Decode
import ClassSharing.Image.Record

/-!
# Encoding records

Every record is a map whose keys are the numbers of its fields. A number that is zero, an empty text
and an empty list are left out where nothing else can be meant; a record read back has the zero of
the field's type there.

## Main definitions

* `Image.Subgraph.encode`, `Image.Subgraph.decode?`
* `Image.Directory.encode`, `Image.Directory.decode?`
-/

namespace ClassSharing

namespace Image

open Cbor (Item Record)

/-! ### Building items -/

/-- A field that is always written. -/
def always (field : Nat) (item : Item) : List Item := [.uint field.toUInt64, item]

/-- A field that is written only if a condition holds. -/
def omitting (isZero : Bool) (field : Nat) (item : Item) : List Item :=
  if isZero then [] else always field item

/-- The array of a list. -/
def arrayOf {α : Type} (toItem : α → Item) (xs : List α) : Item := .array (xs.map toItem)

/-- A list that is left out when it is absent or empty. -/
def unlessEmpty {α : Type} (field : Nat) (toItem : α → Item) (xs : Option (List α)) : List Item :=
  omitting (xs.getD []).isEmpty field (arrayOf toItem (xs.getD []))

/-- An optional list of texts. -/
def toTexts? : Item → Option (Option (List Text)) := Item.toList? Item.toText?

/-! ### Values, fields and objects -/

namespace ValueRecord

/-- The item of a value. -/
def toItem (v : ValueRecord) : Item :=
  .map (always 1 (.uint v.tag.toUInt64) ++ omitting (v.int = 0) 2 (Item.ofInt64 v.int)
    ++ omitting v.str.isEmpty 3 (Item.ofText v.str) ++ omitting (v.ref = 0) 4 (Item.ofInt64 v.ref))

/-- The value of an item. -/
def ofItem? (item : Item) : Option ValueRecord := do
  let r ← item.toRecord?
  let tag ← r.read 1 0 Item.toUInt8?
  let int ← r.read 2 0 Item.toInt64?
  let str ← r.read 3 Text.empty Item.toText?
  let ref ← r.read 4 0 Item.toInt64?
  return ⟨tag, int, str, ref⟩

end ValueRecord

namespace FieldRecord

/-- The item of a field. -/
def toItem (f : FieldRecord) : Item :=
  .map (always 1 (Item.ofText f.name) ++ always 2 f.value.toItem)

/-- The field of an item. -/
def ofItem? (item : Item) : Option FieldRecord := do
  let r ← item.toRecord?
  let name ← r.read 1 Text.empty Item.toText?
  let value ← r.read 2 ValueRecord.nil ValueRecord.ofItem?
  return ⟨name, value⟩

end FieldRecord

namespace ObjectRecord

/-- The item of an object. -/
def toItem (o : ObjectRecord) : Item :=
  .map (always 1 (Item.ofText o.className) ++ unlessEmpty 2 ValueRecord.toItem o.slots
    ++ omitting (!o.indexed) 3 (Item.ofBool o.indexed)
    ++ unlessEmpty 4 ValueRecord.toItem o.elements)

/-- The object of an item. -/
def ofItem? (item : Item) : Option ObjectRecord := do
  let r ← item.toRecord?
  let className ← r.read 1 Text.empty Item.toText?
  let slots ← r.read 2 none (Item.toList? ValueRecord.ofItem?)
  let indexed ← r.read 3 false Item.toBool?
  let elements ← r.read 4 none (Item.toList? ValueRecord.ofItem?)
  return ⟨className, slots, indexed, elements⟩

end ObjectRecord

/-! ### Subgraphs -/

namespace Subgraph

/-- The item of a subgraph. The list of fields is always written, as null if it is absent. -/
def toItem (s : Subgraph) : Item :=
  let fields : Item := match s.fields with
    | some fields => arrayOf FieldRecord.toItem fields
    | none => Item.null
  .map (always 1 (Item.ofText s.className) ++ always 2 fields
    ++ unlessEmpty 3 Item.ofText s.classes ++ unlessEmpty 4 ObjectRecord.toItem s.objects)

/-- The subgraph of an item. -/
def ofItem? (item : Item) : Option Subgraph := do
  let r ← item.toRecord?
  let className ← r.read 1 Text.empty Item.toText?
  let fields ← r.read 2 none (Item.toList? FieldRecord.ofItem?)
  let classes ← r.read 3 none toTexts?
  let objects ← r.read 4 none (Item.toList? ObjectRecord.ofItem?)
  return ⟨className, fields, classes, objects⟩

/-- The bytes of a subgraph. -/
def encode (s : Subgraph) : Bytes := s.toItem.encode

/-- The subgraph that a byte string encodes. -/
def decode? (bs : Bytes) : Option Subgraph := (Cbor.parse bs).bind ofItem?

end Subgraph

/-! ### Directories -/

/-- The item of a build. -/
def buildToItem (b : Build) : Item :=
  .map (always 1 (Item.ofText b.release) ++ always 2 (Item.ofText b.debugLevel)
    ++ always 3 (Item.ofText b.vmInfo) ++ always 4 (Item.ofInt64 b.major))

/-- The build of an item. -/
def buildOfItem? (item : Item) : Option Build := do
  let r ← item.toRecord?
  let release ← r.read 1 Text.empty Item.toText?
  let debugLevel ← r.read 2 Text.empty Item.toText?
  let vmInfo ← r.read 3 Text.empty Item.toText?
  let major ← r.read 4 0 Item.toInt64?
  return ⟨release, debugLevel, vmInfo, major⟩

namespace ModuleRecord

/-- The item of a module. -/
def toItem (m : ModuleRecord) : Item :=
  .map (always 1 (Item.ofText m.name) ++ always 2 (Item.ofText m.loader)
    ++ unlessEmpty 3 Item.ofText m.packages)

/-- The module of an item. -/
def ofItem? (item : Item) : Option ModuleRecord := do
  let r ← item.toRecord?
  let name ← r.read 1 Text.empty Item.toText?
  let loader ← r.read 2 Text.empty Item.toText?
  let packages ← r.read 3 none toTexts?
  return ⟨name, loader, packages⟩

end ModuleRecord

namespace SubgraphEntry

/-- The item of a directory entry. -/
def toItem (e : SubgraphEntry) : Item :=
  .map (always 1 (Item.ofText e.className) ++ always 2 (.uint e.offset) ++ always 3 (.uint e.length)
    ++ always 4 (.uint e.checksum) ++ always 5 (Item.ofInt64 e.objects))

/-- The directory entry of an item. -/
def ofItem? (item : Item) : Option SubgraphEntry := do
  let r ← item.toRecord?
  let className ← r.read 1 Text.empty Item.toText?
  let offset ← r.read 2 0 Item.toUInt64?
  let length ← r.read 3 0 Item.toUInt64?
  let checksum ← r.read 4 0 Item.toUInt64?
  let objects ← r.read 5 0 Item.toInt64?
  return ⟨className, offset, length, checksum, objects⟩

end SubgraphEntry

namespace Directory

/-- The item of a directory. -/
def toItem (d : Directory) : Item :=
  .map (always 1 (buildToItem d.build) ++ always 2 (Item.ofInt64 d.seed)
    ++ unlessEmpty 3 ModuleRecord.toItem d.modules ++ unlessEmpty 4 Item.ofText d.classes
    ++ unlessEmpty 5 SubgraphEntry.toItem d.subgraphs)

/-- The directory of an item. -/
def ofItem? (item : Item) : Option Directory := do
  let r ← item.toRecord?
  let build ← r.read 1 ⟨Text.empty, Text.empty, Text.empty, 0⟩ buildOfItem?
  let seed ← r.read 2 0 Item.toInt64?
  let modules ← r.read 3 none (Item.toList? ModuleRecord.ofItem?)
  let classes ← r.read 4 none toTexts?
  let subgraphs ← r.read 5 none (Item.toList? SubgraphEntry.ofItem?)
  return ⟨build, seed, modules, classes, subgraphs⟩

/-- The bytes of a directory. -/
def encode (d : Directory) : Bytes := d.toItem.encode

/-- The directory that a byte string encodes. -/
def decode? (bs : Bytes) : Option Directory := (Cbor.parse bs).bind ofItem?

end Directory

end Image

end ClassSharing
