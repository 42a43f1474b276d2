import ClassSharing.Bootstrap.Basic

/-!
# Opening a bootstrap

The configuration decides which archives are mapped and what the status of the process is. A base
archive that cannot be used disables the use of archives, unless the configuration requires one; a
dynamic dump always needs its base.

## Main definitions

* `MappedBoot.mapBase`, `MappedBoot.mapTop`: the two archives of a configuration
* `MappedBoot.openWith`: the bootstrap of a configuration
-/

namespace ClassSharing

open Image

namespace MappedBoot

/-- The base archive of a configuration, if it can be used by a build. -/
def mapBase (t : FileTree) (c : Config) (build : Build) : Except Failure Archive :=
  match Archive.openFile t c.archivePath with
  | .error e => .error e
  | .ok a =>
    if a.kind ≠ staticKind then
      .error (.fault (.of (.archiveKind c.archivePath (kindName a.kind) (kindName staticKind))))
    else if a.build ≠ build then .error (.fault (.of (.buildMismatch a.build build)))
    else .ok a

/-- The base archive of a configuration, none if its file is missing. -/
def mapOptionalBase (t : FileTree) (c : Config) (build : Build) :
    Except Failure (Option Archive) :=
  if t.isMissing c.archivePath then .ok none else (mapBase t c build).map some

/-- The layer on top of a base archive, if it can be used with it. -/
def mapTop (t : FileTree) (c : Config) (base : Archive) : Except Failure Archive :=
  match Archive.openFile t c.topPath with
  | .error e => .error e
  | .ok a =>
    if a.kind ≠ dynamicKind then
      .error (.fault (.of (.archiveKind c.topPath (kindName a.kind) (kindName dynamicKind))))
    else if a.header.baseChecksum ≠ base.identity then
      .error (.fault (.of (.baseMismatch c.topPath)))
    else .ok a

/-- The layer of a configuration, none if there is none to use. A layer that cannot be used is a
failure only if archives are required. -/
def mapOptionalTop (t : FileTree) (c : Config) (base : Archive) :
    Except Failure (Option Archive) :=
  if c.topPath.isEmpty || t.isMissing c.topPath then .ok none
  else match mapTop t c base with
    | .ok a => .ok (some a)
    | .error (.panic p) => .error (.panic p)
    | .error (.fault fault) => if c.require then .error (.fault fault) else .ok none

/-- The archives that a configuration uses: the base, and the layer on top of it. -/
def mapArchives (t : FileTree) (c : Config) (build : Build) (optional : Bool) :
    Except Failure (Option Archive × Option Archive) :=
  let base := if optional then mapOptionalBase t c build else (mapBase t c build).map some
  match base with
  | .error e => .error e
  | .ok none => .ok (none, none)
  | .ok (some a) => (mapOptionalTop t c a).map fun top => (some a, top)

/-- The archives in use, or none if they cannot be used and need not be. -/
def mapUsed (t : FileTree) (c : Config) (build : Build) (optional : Bool) :
    Except Failure (Option Archive × Option Archive) :=
  match mapArchives t c build optional with
  | .ok archives => .ok archives
  | .error (.panic p) => .error (.panic p)
  | .error (.fault fault) => if c.require then .error (.fault fault) else .ok (none, none)

/-- The base archive of a dynamic dump. -/
def mapDumpBase (t : FileTree) (c : Config) (build : Build) : Except Failure Archive :=
  match mapBase t c build with
  | .ok a => .ok a
  | .error (.panic p) => .error (.panic p)
  | .error (.fault fault) => .error (.fault (.within .dynamicBase fault))

/-- The flags that do not depend on archives. -/
def loggingStatus (c : Config) : Status := Status.none.setIf c.lambdaForms Status.loggingFlag

/-- The bootstrap of a configuration. -/
def openWith (t : FileTree) (c : Config) (build : Build) : Except Failure MappedBoot :=
  let start := loggingStatus c
  match c.mode? with
  | none => .error (.fault (.of (.unknownArchiveMode c.mode)))
  | some .off => .ok ⟨c, build, start, none, none⟩
  | some .dumpStatic =>
    .ok ⟨c, build, start.set (Status.dumpingFlag ||| Status.staticFlag), none, none⟩
  | some .dumpDynamic =>
    (mapDumpBase t c build).map fun a =>
      ⟨c, build, start.set (Status.usingFlag ||| Status.dumpingFlag), some a, none⟩
  | some mode =>
    (mapUsed t c build (mode = .auto)).map fun (base, top) =>
      ⟨c, build, start.setIf base.isSome Status.usingFlag, base, top⟩

end MappedBoot

end ClassSharing
