import ClassSharing.Text.Basic

/-!
# Data items

The data items of the concise binary object representation, and their canonical encoding: every
length in front of its contents, and every number in the fewest bytes.

The entries of a map are one flat list in which keys and values alternate. A text string is the list
of its chunks, since each chunk has to be valid by itself.

## Main definitions

* `Cbor.Item`
* `Cbor.head`: the initial bytes of an item
* `Cbor.Item.encode`: the canonical encoding
-/

namespace ClassSharing

namespace Cbor

/-- A data item. -/
inductive Item where
  /-- A natural number. -/
  | uint (n : UInt64)
  /-- The negative number `-1 - n`. -/
  | nint (n : UInt64)
  | bytes (contents : Bytes)
  | text (chunks : List Bytes)
  | array (items : List Item)
  /-- Keys and values in turn. -/
  | map (items : List Item)
  | tag (number : UInt64) (item : Item)
  /-- A simple value; false, true, null and undefined are 20 to 23. -/
  | simple (number : UInt8)
  /-- A floating-point number, by its bytes. -/
  | float (contents : Bytes)
deriving Inhabited

/-- The null item. -/
def Item.null : Item := .simple 22

/-- The item of a truth value. -/
def Item.ofBool (b : Bool) : Item := .simple (if b then 21 else 20)

/-- The item of a text. -/
def Item.ofText (t : Text) : Item := .text [t.bytes]

/-- The item of an integer. -/
def Item.ofInt64 (n : Int64) : Item := if n < 0 then .nint (~~~n).toUInt64 else .uint n.toUInt64

/-- The lowest `count` bytes of a number, highest first. -/
def bigEndian : (count n : Nat) → Bytes
  | 0, _ => []
  | count + 1, n => bigEndian count (n / 256) ++ [n.toUInt8]

/-- The initial bytes of an item: its major type and a number in the fewest bytes. -/
def head (major n : Nat) : Bytes :=
  if n < 24 then [(major * 32 + n).toUInt8]
  else if n < 0x100 then (major * 32 + 24).toUInt8 :: bigEndian 1 n
  else if n < 0x10000 then (major * 32 + 25).toUInt8 :: bigEndian 2 n
  else if n < 0x100000000 then (major * 32 + 26).toUInt8 :: bigEndian 4 n
  else (major * 32 + 27).toUInt8 :: bigEndian 8 n

/-- The encoding of a simple value. -/
def encodeSimple (n : UInt8) : Bytes := if n < 24 then [0xE0 + n] else [0xF8, n]

/-- The additional information of a floating-point number of a length in bytes. -/
def floatHead (length : Nat) : UInt8 :=
  if length = 2 then 0xF9 else if length = 4 then 0xFA else 0xFB

mutual

/-- The canonical encoding of an item. -/
def Item.encode : Item → Bytes
  | .uint n => head 0 n.toNat
  | .nint n => head 1 n.toNat
  | .bytes b => head 2 b.length ++ b
  | .text chunks => head 3 chunks.flatten.length ++ chunks.flatten
  | .array items => head 4 items.length ++ encodeAll items
  | .map items => head 5 (items.length / 2) ++ encodeAll items
  | .tag number item => head 6 number.toNat ++ item.encode
  | .simple number => encodeSimple number
  | .float contents => floatHead contents.length :: contents

/-- The encodings of items one after another. -/
def encodeAll : List Item → Bytes
  | [] => []
  | item :: rest => item.encode ++ encodeAll rest

end

end Cbor

end ClassSharing
