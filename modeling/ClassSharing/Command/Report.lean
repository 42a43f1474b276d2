import ClassSharing.Command.Boot
import ClassSharing.Command.Columns

/-!
# Reports

What the commands print: the archive status of the process, the state of the boot library, what a
dump has written, and the contents of an archive file.

## Main definitions

* `Report`: text, and what put an end to it
* `Report.status`, `Report.library`, `Report.dump`, `Report.archive`
-/

namespace ClassSharing

/-- What a command prints, and what put an end to it if it did not end well. -/
structure Report where
  text : Text := Text.empty
  failure : Option Failure := none
deriving DecidableEq, Inhabited

namespace Report

/-! ### Lines -/

/-- A line of cells. -/
def row (cells : List Text) : Text := Text.join "\t" cells ++ "\n"

/-- The cells of a line with a label and a value. -/
def labelled (label value : Text) : List Text := [label, value]

/-- A number behind the mark of hexadecimal numbers. -/
def hexadecimal (n : UInt64) : Text := "0x" ++ Text.hexadecimal n.toNat

/-- A truth value. -/
def truth (b : Bool) : Text := if b then "true" else "false"

/-- A list of names between brackets. -/
def names (ts : List Text) : Text := "[" ++ Text.join " " ts ++ "]"

/-- The lines of several rows. -/
def rows (cells : List (List Text)) : Text := Text.join Text.empty (cells.map row)

/-- A report that did not get beyond a failure. -/
def failed (e : Failure) : Report := { failure := some e }

/-- A report in columns. What a panic has cut off is shown as far as it was settled. -/
def inColumns (text : Text) : Option Panic → Report
  | none => { text := Columns.render text }
  | some p => { text := Columns.settle text, failure := some (.panic p) }

/-! ### The status of a process -/

/-- The archives that a bootstrap has mapped, with their places. -/
def mappedRows : Bootstrap → List (List Text)
  | .mapped b =>
    (b.base.map fun a => labelled "base" a.path).toList
      ++ (b.top.map fun a => labelled "top" a.path).toList
  | _ => []

/-- The archive status of a process. -/
def status (c : Config) (b : Booted) : Act Report := do
  let status ← Session.gateStatus b.gate
  let seed ← Session.gateSeed b.gate
  let lines :=
    [labelled "mode" c.mode,
      labelled "status" status.describe,
      labelled "dumping" (truth status.isDumping),
      labelled "dumping static" (truth status.isDumpingStatic),
      labelled "dumping dynamic" (truth status.isDumpingDynamic),
      labelled "using" (truth status.isUsing),
      labelled "logging lambda forms" (truth status.isLogging),
      labelled "dump seed" (hexadecimal seed.toUInt64)]
      ++ mappedRows ((← get).bootAt b.boot)
  return inColumns (rows lines) none

/-! ### The state of the boot library -/

/-- The module that owns the namespace of a class on its loader. -/
def moduleOf (m : Machine) (c : ClassId) : Text :=
  let k := m.classAt c
  match (k.loader.bind m.loader?).bind fun l => l.packages.get? k.space with
  | some id => (m.moduleAt id).name
  | none => "-"

/-- The state of a class of the library. -/
def classRow (s : Session) (g : GraphId) (c : ClassId) : List Text :=
  let name := s.machine.className c
  [name, moduleOf s.machine c, (s.machine.stateOf c).name, (s.outcomeOf g name).name]

/-- The heads of the columns on classes. -/
def classHeads : List Text := ["CLASS", "MODULE", "STATE", "ARCHIVE"]

/-- The states of the classes of the library, and how many classes were restored. -/
def classRows (s : Session) (b : Booted) : List (List Text) :=
  classHeads :: b.library.classes.map (classRow s b.graph)
    ++ [[Text.empty],
      labelled "restored" (Text.decimal (s.outcomeCount b.graph .restored)),
      labelled "skipped" (Text.decimal (s.outcomeCount b.graph .skipped))]

/-- A module with its loader and its packages. -/
def moduleRow (m : Machine) (id : ModuleId) : List Text :=
  let mod := m.moduleAt id
  ["module " ++ mod.name, (mod.loader.map LoaderKind.name).getD "<nil>", names mod.packages]

/-- The modules, and how much has been generated. -/
def generatedRows (s : Session) (b : Booted) : List (List Text) :=
  s.machine.allModules.map (moduleRow s.machine)
    ++ [labelled "invoker forms" (Text.decimal b.invokers.forms.size),
      labelled "species" (Text.decimal b.invokers.species.size)]

/-- The row of the boxed number one. -/
def boxedRow (b : Booted) : Run Text := do
  match ← b.library.boxed 1 with
  | none => Run.panic .missingObject
  | some o =>
    let m ← Run.machine
    return row ["Integer(1)", m.describe (← Run.ofPanic (Library.fieldOrNil m o "value"))]

/-- The row of the default locale. -/
def localeRow (b : Booted) : Run Text := do
  let o ← b.library.localeFor "en" "US"
  return row ["default locale", ← Run.ofPanic (Library.localeTag (← Run.machine) o)]

/-- A row that is left out if it ends in a fault. -/
def unlessFault (body : Run Text) : Act (Except Panic Text) := do
  match ← body.run with
  | .ok text => return .ok text
  | .error (.fault _) => return .ok Text.empty
  | .error (.panic p) => return .error p

/-- The state of the boot library. -/
def library (b : Booted) : Act Report := do
  let head := rows (classRows (← get) b)
  match ← unlessFault (boxedRow b) with
  | .error p => return inColumns head (some p)
  | .ok boxed =>
    match ← unlessFault (localeRow b) with
    | .error p => return inColumns (head ++ boxed) (some p)
    | .ok locale =>
      return inColumns (head ++ boxed ++ locale ++ rows (generatedRows (← get) b)) none

/-! ### A dump -/

/-- The line of an archived class. -/
def archivedLine (name : Text) : Text := "  archived " ++ name ++ "\n"

/-- The line of a class that could not be archived. -/
def skippedLine (name : Text) (fault : Fault) : Text :=
  "  skipped " ++ name ++ ": " ++ fault.message ++ "\n"

/-- What a dump has written. -/
def dumped (r : DumpReport) : Text :=
  let first := "wrote " ++ Image.kindName r.kind ++ " archive " ++ r.path ++ " ("
    ++ Text.decimal r.classes ++ " classes)\n"
  let archived := (r.archived.getD []).map archivedLine
  let skipped := r.skipped.entries.map fun (name, fault) => skippedLine name fault
  Text.join Text.empty (first :: archived ++ skipped)

/-- Writes the archive of a process and says what has been written. -/
def dump (b : Booted) : Act Report := do
  let seed ← Session.gateSeed b.gate
  match ← (Session.dump b.boot seed Library.archivableFields).run with
  | .error e => return failed e
  | .ok report => return { text := dumped report }

/-! ### An archive file -/

/-- A module of an archive with its loader and its packages. -/
def moduleRecordRow (m : Image.ModuleRecord) : List Text :=
  ["module " ++ m.name, m.loader, names (m.packages.getD [])]

/-- A subgraph of an archive with its size. -/
def entryRow (e : Image.SubgraphEntry) : List Text :=
  ["subgraph " ++ e.className, Text.signedDecimal e.objects.toInt ++ " objects",
    Text.decimal e.length.toNat ++ " bytes"]

/-- The rows on an archive. -/
def archiveRows (a : Archive) : List (List Text) :=
  [labelled "path" a.path,
    labelled "kind" (Image.kindName a.kind),
    labelled "version" (Text.decimal a.header.version.toNat),
    labelled "identity" ("0x" ++ Text.word64 a.identity)]
    ++ (if a.header.baseChecksum = 0 then []
      else [labelled "base" ("0x" ++ Text.word64 a.header.baseChecksum)])
    ++ [labelled "build" a.build.describe,
      labelled "seed" (hexadecimal a.directory.seed.toUInt64),
      labelled "classes" (Text.decimal a.classes.length)]
    ++ a.modules.map moduleRecordRow ++ a.entries.map entryRow

/-- The contents of an archive file. -/
def archive (files : FileTree) (path : Text) : Report :=
  match Archive.openFile files path with
  | .error e => failed e
  | .ok a => inColumns (rows (archiveRows a)) none

end Report

end ClassSharing
