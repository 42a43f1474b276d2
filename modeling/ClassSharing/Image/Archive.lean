import ClassSharing.Files.Tree
import ClassSharing.Image.Codec
import ClassSharing.Image.Header

/-!
# Opened archives

An archive is a header, a directory and a heap region of subgraph records. Opening one checks the
header and the directory; a record is checked when it is asked for, so damage to one record does not
touch the others.

## Main definitions

* `Archive`, `Archive.decode`: an opened archive, and how bytes become one
* `Archive.openFile`: the archive in a file
* `Archive.refresh`: the archive as its file is now
* `Archive.subgraph`: the record of a class
-/

namespace ClassSharing

open Image

/-- An opened archive. -/
structure Archive where
  /-- The file that it was read from, empty without one. -/
  path : Text
  /-- The number of the file that the heap region is a view of. -/
  source : Option Nat
  header : Header
  directory : Directory
  heap : Bytes
  closed : Bool
deriving Inhabited

namespace Archive

/-! ### Opening -/

/-- The position at which the directory ends, computed in 64 bits. -/
def directoryEnd (h : Header) : UInt64 := headerSize.toUInt64 + h.directoryLength

/-- Opens the archive that a byte string holds. -/
def decode (data : Bytes) : Except Failure Archive :=
  match Header.decode data with
  | .error flaw => .error (.fault (.of (.header flaw)))
  | .ok h =>
    let stop := directoryEnd h
    if h.directoryLength = 0 || data.length < stop.toNat then
      .error (.fault (.of (.header (.directoryLength h.directoryLength))))
    else if stop.toNat < headerSize then .error (.panic (.sliceOutOfRange headerSize stop.toNat))
    else
      let directoryBytes := (data.take stop.toNat).drop headerSize
      let sum := Checksum.sum directoryBytes
      if sum ≠ h.directoryChecksum then
        .error (.fault (.of (.directory (.checksum sum h.directoryChecksum))))
      else match Directory.decode? directoryBytes with
        | none => .error (.fault (.of (.directory .undecodable)))
        | some d =>
          if h.kind = dynamicKind && !(d.subgraphs.getD []).isEmpty then
            .error (.fault (.of .heapInDynamic))
          else .ok
            { path := Text.empty, source := none, header := h, directory := d
              heap := data.drop stop.toNat, closed := false }

/-- A failure of opening the archive in a file. A panic stays one. -/
def invalid (path : Text) : Failure → Failure
  | .fault fault => .fault (.within (.validating path) fault)
  | .panic p => .panic p

/-- The number and the bytes of a file that is to be mapped. -/
def mapFile (t : FileTree) (path : Text) : Except Fault (Nat × Bytes) :=
  match t.find path with
  | .error reason => .error (FileTree.refuse "open" path reason)
  | .ok .directory =>
    .error (.within .memoryMapping (.of (.reported SystemReason.noSuchDevice.text)))
  | .ok (.file number contents) =>
    if contents.length < headerSize then .error (.of (.header .tooShort))
    else .ok (number, contents)
  | .ok .fullDevice => .error (.of (.header .tooShort))

/-- Opens the archive in a file. -/
def openFile (t : FileTree) (path : Text) : Except Failure Archive :=
  match mapFile t path with
  | .error fault => .error (.fault (.within (.mapping path) fault))
  | .ok (number, data) =>
    match decode data with
    | .error e => .error (invalid path e)
    | .ok a => .ok { a with path := path, source := some number }

/-- Bytes cut off or filled with zeros to a length. -/
def fitted (length : Nat) (data : Bytes) : Bytes :=
  data.take length ++ List.replicate (length - data.length) 0

/-- The archive as its file is now. The heap region of an archive in a file is a view of the file,
so it changes when the file is written to in place. -/
def refresh (t : FileTree) (a : Archive) : Archive :=
  match a.source.bind t.contentsOf? with
  | none => a
  | some data =>
    { a with heap := fitted a.heap.length (data.drop (directoryEnd a.header).toNat) }

/-! ### Contents -/

/-- The kind of the archive. -/
def kind (a : Archive) : UInt8 := a.header.kind

/-- What a layer on top of the archive refers to it by. -/
def identity (a : Archive) : UInt64 := a.header.directoryChecksum

/-- The build that dumped the archive. -/
def build (a : Archive) : Build := a.directory.build

/-- The archived modules. -/
def modules (a : Archive) : List ModuleRecord := a.directory.modules.getD []

/-- The archived class names. -/
def classes (a : Archive) : List Text := a.directory.classes.getD []

/-- The directory entries of the archived subgraphs. -/
def entries (a : Archive) : List SubgraphEntry := a.directory.subgraphs.getD []

/-- The entry of a class; of several entries the last counts. -/
def entry? (a : Archive) (className : Text) : Option SubgraphEntry :=
  a.entries.reverse.find? fun e => e.className = className

/-- The heap bytes of an entry, if they lie inside the heap region. -/
def recordBytes? (a : Archive) (e : SubgraphEntry) : Option Bytes :=
  let stop := e.offset + e.length
  if a.heap.length < stop.toNat || stop < e.offset then none
  else some ((a.heap.drop e.offset.toNat).take e.length.toNat)

/-- Reads and checks the record of an entry. -/
def readEntry (a : Archive) (className : Text) (e : SubgraphEntry) : Except Fault Subgraph :=
  match a.recordBytes? e with
  | none => .error (.of (.record (.pastHeap className)))
  | some data =>
    let sum := Checksum.sum data
    if sum ≠ e.checksum then .error (.of (.record (.checksum className sum e.checksum)))
    else match Subgraph.decode? data with
      | none => .error (.of (.record .undecodable))
      | some s =>
        if s.className ≠ className then .error (.of (.record (.names className s.className)))
        else .ok s

/-- The record of a class. -/
def subgraph (a : Archive) (className : Text) : Except Fault Subgraph :=
  if a.closed then .error (.of .closed)
  else match a.entry? className with
    | none => .error (.of (.noSubgraph className))
    | some e => a.readEntry className e

/-- The archive after its region was given back. -/
def close (a : Archive) : Archive := { a with closed := true }

end Archive

end ClassSharing
