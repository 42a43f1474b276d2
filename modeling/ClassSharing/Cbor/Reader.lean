import ClassSharing.Cbor.Item

/-!
# Reading data items

The reader accepts every well-formed item, canonical or not: numbers in more bytes than needed,
strings, arrays and maps without a length in front, and tags. It bounds the nesting of arrays, maps
and tags inside tags, and the length of arrays and maps.

## Main definitions

* `Cbor.readItem`: the item at the start of a byte string
* `Cbor.parse`: the item that a whole byte string encodes
-/

namespace ClassSharing

namespace Cbor

/-- The deepest nesting of arrays, maps and tags inside tags. -/
def maxDepth : Nat := 32

/-- The greatest number of elements of an array and of entries of a map. -/
def maxLength : Nat := 131072

/-- The first byte of an item, taken apart, with the number that follows it. -/
structure Head where
  major : Nat
  /-- Whether a break ends the item, and no length stands in front. -/
  indefinite : Bool
  /-- The five bits that say how the number is written. -/
  info : Nat
  argument : Nat

/-- The number of a list of bytes, highest first. -/
def fromBigEndian (bs : Bytes) : Nat := bs.foldl (fun n b => n * 256 + b.toNat) 0

/-- The next `count` bytes and the rest. -/
def take? (count : Nat) (bs : Bytes) : Option (Bytes × Bytes) :=
  let front := bs.take count
  if front.length = count then some (front, bs.drop count) else none

/-- The number of bytes in which the number of a head is written. -/
def argumentWidth (info : Nat) : Nat :=
  if info = 24 then 1 else if info = 25 then 2 else if info = 26 then 4 else 8

/-- Reads the initial bytes of an item. A lone break is no item. -/
def readHead : Bytes → Option (Head × Bytes)
  | [] => none
  | b :: rest =>
    let major := b.toNat / 32
    let info := b.toNat % 32
    if info < 24 then some (⟨major, false, info, info⟩, rest)
    else if info < 28 then
      match take? (argumentWidth info) rest with
      | none => none
      | some (bs, rest) =>
        let argument := fromBigEndian bs
        if major = 7 ∧ info = 24 ∧ argument < 32 then none
        else some (⟨major, false, info, argument⟩, rest)
    else if info = 31 ∧ 2 ≤ major ∧ major ≤ 5 then some (⟨major, true, info, 0⟩, rest)
    else none

/-- The byte that ends an item without a length. -/
def breakByte : UInt8 := 0xFF

/-- Reads a fixed number of items. -/
def readMany (read : Bytes → Option (Item × Bytes)) :
    (count : Nat) → Bytes → Option (List Item × Bytes)
  | 0, bs => some ([], bs)
  | count + 1, bs =>
    match read bs with
    | none => none
    | some (item, rest) =>
      match readMany read count rest with
      | none => none
      | some (items, rest) => some (item :: items, rest)

/-- Reads items up to a break. -/
def readUntilBreak (read : Bytes → Option (Item × Bytes)) :
    (fuel : Nat) → Bytes → Option (List Item × Bytes)
  | 0, _ => none
  | _ + 1, [] => none
  | fuel + 1, b :: rest =>
    if b = breakByte then some ([], rest)
    else match read (b :: rest) with
      | none => none
      | some (item, rest) =>
        match readUntilBreak read fuel rest with
        | none => none
        | some (items, rest) => some (item :: items, rest)

/-- Reads the chunks of a string of a major type up to a break. Chunks have their length in front.
-/
def readChunks (major : Nat) : (fuel : Nat) → Bytes → Option (List Bytes × Bytes)
  | 0, _ => none
  | _ + 1, [] => none
  | fuel + 1, b :: rest =>
    if b = breakByte then some ([], rest)
    else match readHead (b :: rest) with
      | none => none
      | some (head, rest) =>
        if head.major ≠ major ∨ head.indefinite then none
        else match take? head.argument rest with
          | none => none
          | some (chunk, rest) =>
            match readChunks major fuel rest with
            | none => none
            | some (chunks, rest) => some (chunk :: chunks, rest)

/-- Reads a string of a major type after its head, as the list of its chunks. -/
def readString (head : Head) (bs : Bytes) : Option (List Bytes × Bytes) :=
  if head.indefinite then readChunks head.major (bs.length + 1) bs
  else (take? head.argument bs).map fun (chunk, rest) => ([chunk], rest)

/-- Reads the items of an array after its head. -/
def readArray (read : Bytes → Option (Item × Bytes)) (head : Head) (bs : Bytes) :
    Option (List Item × Bytes) :=
  if head.indefinite then
    match readUntilBreak read (bs.length + 1) bs with
    | none => none
    | some (items, rest) => if items.length ≤ maxLength then some (items, rest) else none
  else if head.argument ≤ maxLength then readMany read head.argument bs
  else none

/-- Reads the keys and values of a map after its head. -/
def readMap (read : Bytes → Option (Item × Bytes)) (head : Head) (bs : Bytes) :
    Option (List Item × Bytes) :=
  if head.indefinite then
    match readUntilBreak read (bs.length + 1) bs with
    | none => none
    | some (items, rest) =>
      if items.length % 2 = 0 ∧ items.length / 2 ≤ maxLength then some (items, rest) else none
  else if head.argument ≤ maxLength then readMany read (2 * head.argument) bs
  else none

/-- The item of a head of major type 7. -/
def readPrimitive (head : Head) : Item :=
  if head.info ≤ 24 then .simple head.argument.toUInt8
  else .float (bigEndian (argumentWidth head.info) head.argument)

/-- Reads the item at the start of a byte string. `depth` counts the arrays, maps and nested tags
around it, and `tagged` says whether it stands directly inside a tag. Every item takes at least one
byte, so the length of the input is fuel enough. -/
def readItem : (fuel depth : Nat) → (tagged : Bool) → Bytes → Option (Item × Bytes)
  | 0, _, _, _ => none
  | fuel + 1, depth, tagged, bs =>
    match readHead bs with
    | none => none
    | some (head, rest) =>
      match head.major with
      | 0 => some (.uint head.argument.toUInt64, rest)
      | 1 => some (.nint head.argument.toUInt64, rest)
      | 2 => (readString head rest).map fun (chunks, rest) => (.bytes chunks.flatten, rest)
      | 3 => (readString head rest).map fun (chunks, rest) => (.text chunks, rest)
      | 4 =>
        if depth < maxDepth then
          (readArray (readItem fuel (depth + 1) false) head rest).map
            fun (items, rest) => (.array items, rest)
        else none
      | 5 =>
        if depth < maxDepth then
          (readMap (readItem fuel (depth + 1) false) head rest).map
            fun (items, rest) => (.map items, rest)
        else none
      | 6 =>
        if tagged ∧ maxDepth ≤ depth then none
        else
          (readItem fuel (if tagged then depth + 1 else depth) true rest).map
            fun (item, rest) => (.tag head.argument.toUInt64 item, rest)
      | _ => some (readPrimitive head, rest)

/-- The item that a byte string encodes, if it encodes exactly one. -/
def parse (bs : Bytes) : Option Item :=
  match readItem bs.length 0 false bs with
  | some (item, []) => some item
  | _ => none

end Cbor

end ClassSharing
