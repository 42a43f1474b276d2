import ClassSharing.Image.Archive
import ClassSharing.Image.Collect
import ClassSharing.Sorting

/-!
# Writing archives

A writer gathers modules, class names and the subgraphs of classes, and encodes them as an
archive: the header, the directory, and the subgraph records one after another. Modules, class names
and records are written in ascending order of their names.

## Main definitions

* `Writer`, with `Writer.setBaseChecksum`, `Writer.addModules`, `Writer.addClasses`,
  `Writer.archiveFields`
* `Writer.directory`, `Writer.encode`
-/

namespace ClassSharing

open Image

/-- What has been gathered for an archive. -/
structure Writer where
  kind : UInt8
  build : Build
  seed : Int64
  /-- The identity of the archive that this one is a layer on. -/
  baseChecksum : UInt64
  modules : List ModuleRecord
  classes : List Text
  subgraphs : Table Subgraph
  /-- The classes that could not be archived, and why. -/
  skipped : Table Fault
deriving Inhabited

namespace Writer

/-- A writer that has gathered nothing. -/
def new (kind : UInt8) (build : Build) (seed : Int64) (baseChecksum : UInt64) : Writer :=
  ⟨kind, build, seed, baseChecksum, [], [], Table.empty, Table.empty⟩

/-! ### Gathering -/

/-- Notes the archive that this one is a layer on. -/
def setBaseChecksum (w : Writer) (sum : UInt64) : Writer := { w with baseChecksum := sum }

/-- The record of a module that is linked to a loader. -/
def moduleRecord? (m : Module) : Option ModuleRecord :=
  m.loader.map fun kind => ⟨m.name, kind.name, presentList m.packages⟩

/-- Adds the modules that are linked to a loader. -/
def addModules (w : Writer) (modules : List Module) : Writer :=
  { w with modules := w.modules ++ modules.filterMap moduleRecord? }

/-- Adds class names. -/
def addClasses (w : Writer) (names : List Text) : Writer := { w with classes := w.classes ++ names }

/-- Adds the subgraph of a class, or the reason why there is none. -/
def addSubgraph (w : Writer) (name : Text) : Except Fault Subgraph → Writer
  | .ok s => { w with subgraphs := w.subgraphs.insert name s }
  | .error fault => { w with skipped := w.skipped.insert name fault }

/-- Collects the subgraphs of specifications in order. A class that cannot be archived is skipped.
-/
def archiveEach (m : Machine) (w : Writer) : List FieldSpec → Except Panic Unit × Writer
  | [] => (.ok (), w)
  | spec :: rest =>
    match m.collectSubgraph spec with
    | .ok s => archiveEach m (w.addSubgraph spec.className (.ok s)) rest
    | .error (.fault fault) => archiveEach m (w.addSubgraph spec.className (.error fault)) rest
    | .error (.panic p) => (.error p, w)

/-- Collects the subgraphs of specifications. Only a static archive can have them. -/
def archiveFields (w : Writer) (m : Machine) (specs : List FieldSpec) :
    Except Failure Unit × Writer :=
  if w.kind = dynamicKind then (.error (.fault (.of .heapInDynamic)), w)
  else match archiveEach m w specs with
    | (.ok (), w) => (.ok (), w)
    | (.error p, w) => (.error (.panic p), w)

/-- The names of the archived classes, ascending. -/
def archived (w : Writer) : List Text := w.subgraphs.keys

/-! ### Encoding -/

/-- The directory entries and the heap region for named subgraphs, from an offset on. -/
def layOut : (offset : Nat) → List (Text × Subgraph) → List SubgraphEntry × Bytes
  | _, [] => ([], [])
  | offset, (name, s) :: rest =>
    let data := s.encode
    let (entries, heap) := layOut (offset + data.length) rest
    (⟨name, offset.toUInt64, data.length.toUInt64, Checksum.sum data,
      Int64.ofNat (s.objects.getD []).length⟩ :: entries, data ++ heap)

/-- The modules in ascending order of their names. -/
def sortedModules (w : Writer) : List ModuleRecord :=
  Sorting.sort (fun a b => a.name.precedes b.name) w.modules

/-- The directory of the archive. -/
def directory (w : Writer) : Directory :=
  { build := w.build
    seed := w.seed
    modules := presentList w.sortedModules
    classes := presentList (Text.sortedUnique w.classes)
    subgraphs := presentList (layOut 0 w.subgraphs.entries).1 }

/-- The flags of the archive's contents. -/
def flags (d : Directory) : UInt32 :=
  (if (d.subgraphs.getD []).isEmpty then 0 else heapFlag)
    ||| (if (d.modules.getD []).isEmpty then 0 else modulesFlag)

/-- The header for a directory with its bytes. -/
def header (w : Writer) (d : Directory) (bytes : Bytes) : Header :=
  { version := formatVersion
    kind := w.kind
    flags := flags d
    directoryLength := bytes.length.toUInt64
    directoryChecksum := Checksum.sum bytes
    baseChecksum := w.baseChecksum }

/-- The bytes of the archive. -/
def encode (w : Writer) : Bytes :=
  let d := w.directory
  let bytes := d.encode
  (w.header d bytes).encode ++ bytes ++ (layOut 0 w.subgraphs.entries).2

/-- Hands the archive to a receiver that takes at most `limit` bytes: what it took, and whether that
was all. -/
def writeTo (w : Writer) (limit : Nat) : Bytes × Except Fault Unit :=
  let data := w.encode
  if limit < data.length then (data.take limit, .error (.of .diskFull)) else (data, .ok ())

/-- Writes the archive to a file as a whole or not at all. -/
def writeFile (w : Writer) (t : FileTree) (refusals : FileTree.Refusals) (path : Text) :
    Except Fault Unit × FileTree :=
  t.install refusals path w.encode

end Writer

end ClassSharing
