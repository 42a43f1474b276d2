import ClassSharing.Fault
import ClassSharing.Image.Words

/-!
# The archive header

An archive begins with forty bytes: the letters MCDS, the format version, the kind, three bytes of
padding, the content flags, and the length and checksum of the directory that follows, with the
checksum of the base archive's directory in a dynamic archive.

## Main definitions

* `Kind.name`: static, dynamic, or neither
* `Header`, `Header.encode`, `Header.decode`
-/

namespace ClassSharing

namespace Image

/-! ### Kinds -/

/-- The kind of a base archive. -/
def staticKind : UInt8 := 1

/-- The kind of a layer on top of a base archive. -/
def dynamicKind : UInt8 := 2

/-- The name of a kind. -/
def kindName (kind : UInt8) : Text :=
  if kind = staticKind then "static"
  else if kind = dynamicKind then "dynamic"
  else "Kind(" ++ Text.decimal kind.toNat ++ ")"

/-! ### Headers -/

/-- The bytes that every archive begins with. -/
def magic : Bytes := [0x4D, 0x43, 0x44, 0x53]

/-- The version of the archive format. -/
def formatVersion : UInt32 := 1

/-- The length of a header in bytes. -/
def headerSize : Nat := 40

/-- The flag of archives with heap objects. -/
def heapFlag : UInt32 := 1

/-- The flag of archives with modules. -/
def modulesFlag : UInt32 := 2

/-- The fixed beginning of an archive. -/
structure Header where
  version : UInt32
  kind : UInt8
  flags : UInt32
  directoryLength : UInt64
  directoryChecksum : UInt64
  /-- The directory checksum of the base archive, zero in a base archive. -/
  baseChecksum : UInt64
deriving DecidableEq, Inhabited

namespace Header

/-- Whether the archive carries heap objects. -/
def hasHeap (h : Header) : Bool := h.flags &&& heapFlag != 0

/-- Whether the archive carries modules. -/
def hasModules (h : Header) : Bool := h.flags &&& modulesFlag != 0

/-- The forty bytes of a header. -/
def encode (h : Header) : Bytes :=
  magic ++ Words.encode 4 h.version.toNat ++ [h.kind, 0, 0, 0] ++ Words.encode 4 h.flags.toNat
    ++ Words.encode 8 h.directoryLength.toNat ++ Words.encode 8 h.directoryChecksum.toNat
    ++ Words.encode 8 h.baseChecksum.toNat

/-- The number in a range of bytes. -/
def field (data : Bytes) (start count : Nat) : Nat := Words.decode ((data.drop start).take count)

/-- Reads the header at the start of a byte string; the first flaw found counts. -/
def decode (data : Bytes) : Except HeaderFlaw Header :=
  if data.length < headerSize then .error .tooShort
  else if data.take 4 ≠ magic then .error .magic
  else
    let version := (field data 4 4).toUInt32
    let kind := (field data 8 1).toUInt8
    if version ≠ formatVersion then .error (.version version)
    else if kind ≠ staticKind ∧ kind ≠ dynamicKind then .error (.kind kind)
    else if (data.drop 9).take 3 ≠ [0, 0, 0] then .error .padding
    else .ok
      { version := version
        kind := kind
        flags := (field data 12 4).toUInt32
        directoryLength := (field data 16 8).toUInt64
        directoryChecksum := (field data 24 8).toUInt64
        baseChecksum := (field data 32 8).toUInt64 }

/-- A header has exactly forty bytes. -/
@[simp] theorem length_encode (h : Header) : h.encode.length = headerSize := by
  simp [encode, magic, headerSize]

end Header

end Image

end ClassSharing
