import ClassSharing.Text.Basic

/-!
# The integrity checksum

The 64-bit XXH3 hash with seed zero and the default secret. Inputs of up to sixteen bytes are mixed
in one or two words, inputs of up to 240 bytes in pieces of sixteen, and longer inputs in stripes of
sixty-four bytes that feed eight accumulators.

## Main definitions

* `Checksum.sum`: the checksum of a byte string
-/

namespace ClassSharing

namespace Checksum

/-! ### Words -/

/-- The byte at a position, zero past the end. -/
def byteAt (data : Array UInt8) (i : Nat) : UInt8 := data[i]?.getD 0

/-- The little-endian 32-bit word at a position, as a 64-bit word. -/
def read32 (data : Array UInt8) (i : Nat) : UInt64 :=
  (byteAt data i).toUInt64 ||| (byteAt data (i + 1)).toUInt64 <<< 8
    ||| (byteAt data (i + 2)).toUInt64 <<< 16 ||| (byteAt data (i + 3)).toUInt64 <<< 24

/-- The little-endian 64-bit word at a position. -/
def read64 (data : Array UInt8) (i : Nat) : UInt64 :=
  read32 data i ||| read32 data (i + 4) <<< 32

/-- Rotation to the left. -/
def rotateLeft (x k : UInt64) : UInt64 := x <<< k ||| x >>> (64 - k)

/-- The bytes of a word in reverse order. -/
def reverseBytes (x : UInt64) : UInt64 :=
  (List.range 8).foldl (fun acc i => acc <<< 8 ||| ((x >>> (8 * i.toUInt64)) &&& 0xFF)) 0

/-- The two halves of the 128-bit product, combined by exclusive or. -/
def foldedProduct (x y : UInt64) : UInt64 :=
  let product := x.toNat * y.toNat
  product.toUInt64 ^^^ (product / 0x10000000000000000).toUInt64

/-! ### Constants -/

def prime32A : UInt64 := 0x9E3779B1

def prime32B : UInt64 := 0x85EBCA77

def prime32C : UInt64 := 0xC2B2AE3D

def prime64A : UInt64 := 0x9E3779B185EBCA87

def prime64B : UInt64 := 0xC2B2AE3D27D4EB4F

def prime64C : UInt64 := 0x165667B19E3779F9

def prime64D : UInt64 := 0x85EBCA77C2B2AE63

def prime64E : UInt64 := 0x27D4EB2F165667C5

/-- The key material that every length class mixes in. -/
def secret : Array UInt8 := #[
  0xb8, 0xfe, 0x6c, 0x39, 0x23, 0xa4, 0x4b, 0xbe, 0x7c, 0x01, 0x81, 0x2c, 0xf7, 0x21, 0xad, 0x1c,
  0xde, 0xd4, 0x6d, 0xe9, 0x83, 0x90, 0x97, 0xdb, 0x72, 0x40, 0xa4, 0xa4, 0xb7, 0xb3, 0x67, 0x1f,
  0xcb, 0x79, 0xe6, 0x4e, 0xcc, 0xc0, 0xe5, 0x78, 0x82, 0x5a, 0xd0, 0x7d, 0xcc, 0xff, 0x72, 0x21,
  0xb8, 0x08, 0x46, 0x74, 0xf7, 0x43, 0x24, 0x8e, 0xe0, 0x35, 0x90, 0xe6, 0x81, 0x3a, 0x26, 0x4c,
  0x3c, 0x28, 0x52, 0xbb, 0x91, 0xc3, 0x00, 0xcb, 0x88, 0xd0, 0x65, 0x8b, 0x1b, 0x53, 0x2e, 0xa3,
  0x71, 0x64, 0x48, 0x97, 0xa2, 0x0d, 0xf9, 0x4e, 0x38, 0x19, 0xef, 0x46, 0xa9, 0xde, 0xac, 0xd8,
  0xa8, 0xfa, 0x76, 0x3f, 0xe3, 0x9c, 0x34, 0x3f, 0xf9, 0xdc, 0xbb, 0xc7, 0xc7, 0x0b, 0x4f, 0x1d,
  0x8a, 0x51, 0xe0, 0x4b, 0xcd, 0xb4, 0x59, 0x31, 0xc8, 0x9f, 0x7e, 0xc9, 0xd9, 0x78, 0x73, 0x64,
  0xea, 0xc5, 0xac, 0x83, 0x34, 0xd3, 0xeb, 0xc3, 0xc5, 0x81, 0xa0, 0xff, 0xfa, 0x13, 0x63, 0xeb,
  0x17, 0x0d, 0xdd, 0x51, 0xb7, 0xf0, 0xda, 0x49, 0xd3, 0x16, 0x55, 0x26, 0x29, 0xd4, 0x68, 0x9e,
  0x2b, 0x16, 0xbe, 0x58, 0x7d, 0x47, 0xa1, 0xfc, 0x8f, 0xf8, 0xb8, 0xd1, 0x7a, 0xd0, 0x31, 0xce,
  0x45, 0xcb, 0x3a, 0x8f, 0x95, 0x16, 0x04, 0x28, 0xaf, 0xd7, 0xfb, 0xca, 0xbb, 0x4b, 0x40, 0x7e]

/-- The 64-bit word of the secret at a position. -/
def key (i : Nat) : UInt64 := read64 secret i

/-! ### Final mixing -/

/-- The strong final mix, for inputs of at most three bytes. -/
def strongAvalanche (h : UInt64) : UInt64 :=
  let h := (h ^^^ h >>> 33) * prime64B
  let h := (h ^^^ h >>> 29) * prime64C
  h ^^^ h >>> 32

/-- The final mix of all longer inputs but those of four to eight bytes. -/
def avalanche (h : UInt64) : UInt64 :=
  let h := (h ^^^ h >>> 37) * 0x165667919E3779F9
  h ^^^ h >>> 32

/-- The final mix of inputs of four to eight bytes, which takes in their length. -/
def lengthAvalanche (h length : UInt64) : UInt64 :=
  let h := (h ^^^ rotateLeft h 49 ^^^ rotateLeft h 24) * 0x9FB21C651E98DF25
  let h := (h ^^^ (h >>> 35 + length)) * 0x9FB21C651E98DF25
  h ^^^ h >>> 28

/-! ### Inputs of up to 240 bytes -/

/-- Inputs of one to three bytes. -/
def sumTiny (data : Array UInt8) : UInt64 :=
  let n := data.size
  let combined := (byteAt data 0).toUInt64 <<< 16 ||| (byteAt data (n / 2)).toUInt64 <<< 24
    ||| (byteAt data (n - 1)).toUInt64 ||| n.toUInt64 <<< 8
  strongAvalanche (combined ^^^ (read32 secret 0 ^^^ read32 secret 4))

/-- Inputs of four to eight bytes. -/
def sumSmall (data : Array UInt8) : UInt64 :=
  let n := data.size
  let word := read32 data (n - 4) + read32 data 0 <<< 32
  lengthAvalanche (word ^^^ (key 8 ^^^ key 16)) n.toUInt64

/-- Inputs of nine to sixteen bytes. -/
def sumMedium (data : Array UInt8) : UInt64 :=
  let n := data.size
  let low := read64 data 0 ^^^ (key 24 ^^^ key 32)
  let high := read64 data (n - 8) ^^^ (key 40 ^^^ key 48)
  avalanche (n.toUInt64 + reverseBytes low + high + foldedProduct low high)

/-- Sixteen bytes mixed with sixteen bytes of the secret. -/
def mixPiece (data : Array UInt8) (i k : Nat) : UInt64 :=
  foldedProduct (read64 data i ^^^ key k) (read64 data (i + 8) ^^^ key (k + 8))

/-- Inputs of 17 to 128 bytes: pieces from both ends towards the middle. -/
def sumPieces (data : Array UInt8) : UInt64 :=
  let n := data.size
  let outward := (List.range ((n - 1) / 32 + 1)).map fun i =>
    mixPiece data (16 * i) (32 * i) + mixPiece data (n - 16 * (i + 1)) (32 * i + 16)
  avalanche (outward.foldl (· + ·) (n.toUInt64 * prime64A))

/-- Inputs of 129 to 240 bytes: eight pieces, then the others with a shifted secret. -/
def sumLongPieces (data : Array UInt8) : UInt64 :=
  let n := data.size
  let first := (List.range 8).foldl (fun acc i => acc + mixPiece data (16 * i) (16 * i))
    (n.toUInt64 * prime64A)
  let others := (List.range (n / 16 - 8)).foldl
    (fun acc i => acc + mixPiece data (16 * (i + 8)) (16 * i + 3)) (avalanche first)
  avalanche (others + mixPiece data (n - 16) 119)

/-! ### Longer inputs -/

/-- The eight accumulators before the first stripe. -/
def initialLanes : List UInt64 :=
  [prime32C, prime64A, prime64B, prime64C, prime64D, prime32B, prime64E, prime32A]

/-- Exchanges the members of each pair of neighbours. -/
def swapPairs : List UInt64 → List UInt64
  | a :: b :: rest => b :: a :: swapPairs rest
  | rest => rest

/-- Eight consecutive words. -/
def words (data : Array UInt8) (i : Nat) : List UInt64 :=
  (List.range 8).map fun j => read64 data (i + 8 * j)

/-- The product of the two halves of a word. -/
def halvesProduct (x : UInt64) : UInt64 := (x &&& (0xFFFFFFFF : UInt64)) * (x >>> 32)

/-- Feeds the stripe at position `i` with the secret from position `k` to the accumulators. -/
def addStripe (data : Array UInt8) (lanes : List UInt64) (i k : Nat) : List UInt64 :=
  let stripe := words data i
  let keyed := List.zipWith (· ^^^ ·) stripe (words secret k)
  let products := keyed.map halvesProduct
  List.zipWith (· + ·) (List.zipWith (· + ·) lanes (swapPairs stripe)) products

/-- Feeds `count` stripes from position `i` on, shifting the secret by eight bytes each time. -/
def addStripes (data : Array UInt8) (lanes : List UInt64) (i count : Nat) : List UInt64 :=
  (List.range count).foldl (fun acc s => addStripe data acc (i + 64 * s) (8 * s)) lanes

/-- Scrambles the accumulators at the end of a block. -/
def scramble (lanes : List UInt64) : List UInt64 :=
  List.zipWith (fun (x k : UInt64) => (x ^^^ x >>> 47 ^^^ k) * prime32A) lanes (words secret 128)

/-- Folds the accumulators pair by pair. -/
def mergeLanes (k : Nat) (start : UInt64) : List UInt64 → UInt64
  | a :: b :: rest =>
    mergeLanes (k + 16) (start + foldedProduct (a ^^^ key k) (b ^^^ key (k + 8))) rest
  | _ => avalanche start

/-- Inputs of more than 240 bytes, in blocks of sixteen stripes. -/
def sumStripes (data : Array UInt8) : UInt64 :=
  let n := data.size
  let blocks := (n - 1) / 1024
  let lanes := (List.range blocks).foldl
    (fun acc b => scramble (addStripes data acc (1024 * b) 16)) initialLanes
  let rest := addStripes data lanes (1024 * blocks) ((n - 1 - 1024 * blocks) / 64)
  mergeLanes 11 (n.toUInt64 * prime64A) (addStripe data rest (n - 64) 121)

/-- The checksum of a byte string. -/
def sum (bytes : Bytes) : UInt64 :=
  let data := bytes.toArray
  let n := data.size
  if n = 0 then strongAvalanche (key 56 ^^^ key 64)
  else if n ≤ 3 then sumTiny data
  else if n ≤ 8 then sumSmall data
  else if n ≤ 16 then sumMedium data
  else if n ≤ 128 then sumPieces data
  else if n ≤ 240 then sumLongPieces data
  else sumStripes data

end Checksum

end ClassSharing
