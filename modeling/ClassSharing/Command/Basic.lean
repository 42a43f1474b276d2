import ClassSharing.Command.Options
import ClassSharing.Command.Report

/-!
# Commands

A command line is carried out on a tree of files: the settings that hold for it are found, the log
is opened, and one of the four commands runs. The answer has the exit code, the output, the
message of the fault that ended the command, and the files as they are afterwards.

## Main definitions

* `Host`: what a command depends on besides its files
* `Command.Answer`
* `Command.perform`: a command line carried out
-/

namespace ClassSharing

/-- What a command depends on besides its files. -/
structure Host where
  /-- The environment variables of the process. -/
  environment : Table Text
  /-- What stands in for the virtual machine's description if the settings have none. -/
  platform : Text
  /-- The number that stands in for a dump seed where there is none. -/
  entropy : Int64
deriving Inhabited

namespace Command

/-- How a command ended. -/
structure Answer where
  exit : UInt32
  output : Text
  message : Option Text
  files : FileTree
  /-- Whether the use of the command line is to be explained. -/
  explains : Bool := false
deriving Inhabited

/-- The exit code of a fault. -/
def faultCode : UInt32 := 1

/-- The exit code of a panic, and of a command line that cannot be carried out. -/
def misuseCode : UInt32 := 2

/-- The answer to a command line that is not carried out. -/
def unused (exit : UInt32) (files : FileTree) : Answer :=
  { exit := exit, output := Text.empty, message := none, files := files, explains := true }

/-- The answer of a command that has reported. -/
def answer (files : FileTree) (r : Report) : Answer :=
  match r.failure with
  | none => { exit := 0, output := r.text, message := none, files := files }
  | some (.fault fault) =>
    { exit := faultCode, output := r.text, message := some fault.message, files := files }
  | some (.panic _) => { exit := misuseCode, output := r.text, message := none, files := files }

/-- The settings that hold for a command line. A mode on the command line counts before the settings
and is checked like them. -/
def settings (host : Host) (files : FileTree) (o : Options) : Except Fault Config :=
  match Config.find files host.environment o.directory with
  | .error fault => .error fault
  | .ok c => if o.mode.isEmpty then .ok c else { c with mode := o.mode }.checked

/-- The files with the log of the settings, which is made if it is missing. There may be something
in its way. -/
def openLog? (files : FileTree) (c : Config) : Option FileTree :=
  let path := c.logFilePath
  if path.isEmpty then some files
  else (files.openToAppend path).toOption.map Prod.snd

/-- Boots a process, reports on it and gives back what it has opened. -/
def booted (host : Host) (files : FileTree) (c : Config) (report : Booted → Act Report) : Answer :=
  let session := Session.new files Library.standardModules host.entropy
  match (Booted.start host.platform c).run session with
  | (.error e, s) => answer s.files (Report.failed e)
  | (.ok b, s) =>
    let (r, s) := report b s
    let (_, s) := b.close s
    answer s.files r

/-- Dumps, if the mode is one that does. -/
def dump (host : Host) (files : FileTree) (c : Config) : Answer :=
  if (c.mode?.map Mode.isDumping).getD false then booted host files c Report.dump
  else answer files (Report.failed (.fault (.of (.doesNotDump c.mode))))

/-- Carries a command out. Without one the library is booted and reported on. -/
def dispatch (host : Host) (files : FileTree) (c : Config) (o : Options) : Answer :=
  let command := o.argument 0
  if command = "status" then booted host files c (Report.status c)
  else if command = "run" || command.isEmpty then booted host files c Report.library
  else if command = "dump" then dump host files c
  else if command = "inspect" then
    answer files (Report.archive files (Config.orElse (o.argument 1) c.archivePath))
  else unused misuseCode files

/-- Carries a command line out. -/
def perform (host : Host) (files : FileTree) (arguments : List Text) : Answer :=
  match Options.parse arguments with
  | .error .help => unused 0 files
  | .error .misuse => unused misuseCode files
  | .ok o =>
    match settings host files o with
    | .error fault => answer files (Report.failed (.fault fault))
    | .ok c =>
      match openLog? files c with
      | none => { exit := faultCode, output := Text.empty, message := none, files := files }
      | some files => dispatch host files c o

/-! ### Files that a command looks at -/

/-- The files that settings may come from, for a command line that looks for them in a directory. -/
def settingsPaths (directory : Text) : List Text :=
  (Path.ancestors directory).flatMap fun d =>
    [Path.join d Config.fileName, Path.join d Config.variablesName]

/-- The files that settings and a command line name. -/
def namedPaths (c : Config) (o : Options) : List Text :=
  [c.archivePath, c.topPath, c.classListPath, c.logFilePath, o.argument 1].filter
    fun path => !path.isEmpty

end Command

end ClassSharing
