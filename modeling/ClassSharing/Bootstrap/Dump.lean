import ClassSharing.Bootstrap.Basic
import ClassSharing.Image.Writer

/-!
# Dumping

A process that dumps writes the archive that its configuration names. A static dump holds the
subgraphs of some classes, the modules of all loaders and the names of the initialized classes; a
dynamic dump holds the names of the initialized classes that its base does not have.

## Main definitions

* `DumpReport`: what was written
* `Bootstrap.dump`
-/

namespace ClassSharing

open Image

/-- What a dump has written. -/
structure DumpReport where
  path : Text
  kind : UInt8
  /-- The archived classes of a static dump. -/
  archived : Option (List Text)
  skipped : Table Fault
  /-- The number of class names. -/
  classes : Nat
deriving Inhabited

namespace Machine

/-- The names of the initialized classes, ascending. -/
def readyNames (m : Machine) : List Text :=
  (m.allClasses.filter fun c => (m.classAt c).isReady).map m.className

end Machine

namespace MappedBoot

/-- Writes a static archive. -/
def dumpStatic (b : MappedBoot) (m : Machine) (t : FileTree) (seed : Int64)
    (specs : List FieldSpec) : Except Failure DumpReport × FileTree :=
  let names := m.readyNames
  let gathered := ((Writer.new staticKind b.build seed 0).addModules
    (m.allModules.map m.moduleAt)).addClasses names
  match gathered.archiveFields m specs with
  | (.error e, _) => (.error e, t)
  | (.ok (), w) =>
    let path := b.config.archivePath
    match w.writeFile t {} path with
    | (.error fault, t) => (.error (.fault fault), t)
    | (.ok (), t) => (.ok ⟨path, staticKind, some w.archived, w.skipped, names.length⟩, t)

/-- Writes a dynamic archive on top of the base. -/
def dumpDynamic (b : MappedBoot) (m : Machine) (t : FileTree) :
    Except Failure DumpReport × FileTree :=
  match b.base with
  | none => (.error (.fault (.of .noBase)), t)
  | some base =>
    let extra := m.readyNames.filter fun name => !base.classes.contains name
    let w := ((Writer.new dynamicKind b.build 0 0).setBaseChecksum base.identity).addClasses extra
    let path := b.config.topPath
    if b.config.mode? ≠ some .dumpDynamic || path.isEmpty then
      (.error (.fault (.of .topNeeded)), t)
    else match w.writeFile t {} path with
      | (.error fault, t) => (.error (.fault fault), t)
      | (.ok (), t) => (.ok ⟨path, dynamicKind, none, Table.empty, extra.length⟩, t)

end MappedBoot

/-- Writes the archive that the configuration of a bootstrap names. -/
def Bootstrap.dump (b : Bootstrap) (m : Machine) (t : FileTree) (seed : Int64)
    (specs : List FieldSpec) : Except Failure DumpReport × FileTree :=
  match b with
  | .mapped b =>
    if !b.status.isDumping then (.error (.fault (.of .notDumping)), t)
    else if b.status.isDumpingStatic then b.dumpStatic m t seed specs
    else b.dumpDynamic m t
  | _ => (.error (.fault (.of .notBootstrapped)), t)

end ClassSharing
