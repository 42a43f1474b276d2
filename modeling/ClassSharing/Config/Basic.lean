import ClassSharing.Fault
import ClassSharing.Files.Path
import ClassSharing.Text.Fold

/-!
# Configuration

What a process does with archives, where they are, what it logs, and under which build identity it
runs.

## Main definitions

* `Mode`: what the process does with archives
* `Config`, with `Config.withDefaults`, `Config.validate`, `Config.verbosity`
* `Config.archivePath`, `Config.topPath`, `Config.classListPath`, `Config.logFilePath`
-/

namespace ClassSharing

/-- What a process does with archives. -/
inductive Mode where
  | off | use | auto | dumpStatic | dumpDynamic
deriving DecidableEq, Inhabited

namespace Mode

/-- All modes. -/
def all : List Mode := [off, use, auto, dumpStatic, dumpDynamic]

/-- The name of a mode. -/
def name : Mode → Text
  | off => "off"
  | use => "use"
  | auto => "auto"
  | dumpStatic => "dump-static"
  | dumpDynamic => "dump-dynamic"

/-- The mode with a given name. -/
def ofName? (text : Text) : Option Mode := all.find? fun m => m.name = text

/-- Whether a process in this mode produces an archive. -/
def isDumping : Mode → Bool
  | dumpStatic | dumpDynamic => true
  | _ => false

theorem ofName?_name (m : Mode) : ofName? m.name = some m := by cases m <;> rfl

end Mode

/-- The settings of a process. Texts are as they were given; an empty one has not been. -/
structure Config where
  mode : Text := Text.empty
  path : Text := Text.empty
  /-- The layer on top of the archive at `path`. -/
  top : Text := Text.empty
  /-- Whether an archive that cannot be used is an error. -/
  require : Bool := false
  level : Text := Text.empty
  logFile : Text := Text.empty
  lambdaForms : Bool := false
  classList : Text := Text.empty
  release : Text := Text.empty
  debugLevel : Text := Text.empty
  vmInfo : Text := Text.empty
  /-- The directory that relative paths start from. -/
  directory : Text := Text.empty
deriving DecidableEq, Inhabited

namespace Config

/-- A text, or another one in place of an empty text. -/
def orElse (t other : Text) : Text := if t.isEmpty then other else t

/-- The settings with the defaults in place of those that were not given. -/
def withDefaults (c : Config) : Config :=
  { c with
    mode := orElse c.mode "auto"
    path := orElse c.path "build/classes.cds"
    level := orElse c.level "info"
    release := orElse c.release "0.1.0"
    debugLevel := orElse c.debugLevel "release" }

/-- The default settings in a directory. -/
def default (directory : Text) : Config := withDefaults { directory := directory }

/-- The mode, if it is known. -/
def mode? (c : Config) : Option Mode := Mode.ofName? c.mode

/-- The levels of the log, each with its verbosity. -/
def levels : List (Text × Int) :=
  [("critical", -1), ("error", 0), ("warning", 1), ("notice", 2), ("info", 3), ("debug", 4)]

/-- How much is logged. -/
def verbosity (c : Config) : Except Fault Int :=
  match levels.find? fun l => l.1 = c.level.lowered with
  | some (_, n) => .ok n
  | none => .error (.of (.unknownLevel c.level))

/-- Checks the settings: the mode and the level are known, and a dynamic dump has a place to go. -/
def validate (c : Config) : Except Fault Unit :=
  match c.mode? with
  | none => .error (.of (.unknownMode c.mode))
  | some mode =>
    if mode = .dumpDynamic && c.top.isEmpty then .error (.of .topRequired)
    else match c.verbosity with
      | .ok _ => .ok ()
      | .error fault => .error fault

/-! ### Paths -/

/-- A path as seen from the directory of the settings; no path stays none. -/
def locate (c : Config) (p : Text) : Text :=
  if p.isEmpty || Path.isAbsolute p then p else Path.join c.directory p

/-- Where the base archive is. -/
def archivePath (c : Config) : Text := c.locate c.path

/-- Where the layer on top of the base archive is, empty without one. -/
def topPath (c : Config) : Text := c.locate c.top

/-- Where the class list is, empty without one. -/
def classListPath (c : Config) : Text := c.locate c.classList

/-- Where the log is, empty for the standard error stream. -/
def logFilePath (c : Config) : Text := c.locate c.logFile

end Config

end ClassSharing
