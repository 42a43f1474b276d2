import ClassSharing.Config.File
import ClassSharing.EnvFile
import ClassSharing.Files.Tree

/-!
# Where settings come from

Settings come from a file, from a file of environment variables beside it, and from the
environment of the process. A variable of the process, even an empty one, counts before one of the
file of variables, and that before the settings file. Defaults fill what is then empty, and the
result is checked.

The settings file is looked for in a directory and in the directories around it, nearest first.

## Main definitions

* `Config.merge`: the settings of a file with the variables and the defaults applied
* `Config.load`: the settings in a directory
* `Config.find`: the settings that hold for a directory
-/

namespace ClassSharing

/-- The environment variables that settings depend on: those of the process, and those of a file. -/
structure Variables where
  process : Table Text
  file : Table Text
deriving DecidableEq, Inhabited

/-- The value of a variable; the process comes first. -/
def Variables.get? (v : Variables) (name : Text) : Option Text :=
  match v.process.get? name with
  | some value => some value
  | none => v.file.get? name

namespace Config

/-! ### Variables -/

def modeVariable : Text := "CDS_ARCHIVE_MODE"

def pathVariable : Text := "CDS_ARCHIVE_PATH"

def topVariable : Text := "CDS_ARCHIVE_TOP"

def lambdaFormsVariable : Text := "CDS_LOG_LAMBDA_FORMS"

/-- The spellings of true. -/
def trueSpellings : List Text := ["1", "t", "T", "TRUE", "true", "True"]

/-- The spellings of false. -/
def falseSpellings : List Text := ["0", "f", "F", "FALSE", "false", "False"]

/-- The truth value that a text spells. -/
def truth? (text : Text) : Option Bool :=
  if trueSpellings.contains text then some true
  else if falseSpellings.contains text then some false
  else none

/-- Whether lambda forms are logged: as the variable says, if it is set, else as the file says. -/
def lambdaFormsOf (c : Config) (v : Variables) : Except Fault Bool :=
  match v.get? lambdaFormsVariable with
  | none => .ok c.lambdaForms
  | some text =>
    match truth? text with
    | some b => .ok b
    | none => .error (.within (.environment lambdaFormsVariable) (.of (.notBoolean text)))

/-- The settings with those that variables override. Blanks around a mode do not count. -/
def override (c : Config) (v : Variables) : Except Fault Config :=
  match c.lambdaFormsOf v with
  | .error fault => .error fault
  | .ok lambdaForms => .ok
      { c with
        mode := ((v.get? modeVariable).map Text.trimmed).getD c.mode
        path := (v.get? pathVariable).getD c.path
        top := (v.get? topVariable).getD c.top
        lambdaForms := lambdaForms }

/-- The settings of a file with the variables and then the defaults applied. -/
def merge (c : Config) (v : Variables) : Except Fault Config := (c.override v).map withDefaults

/-- The settings, if they are sound. -/
def checked (c : Config) : Except Fault Config :=
  match c.validate with
  | .ok () => .ok c
  | .error fault => .error fault

/-! ### Files -/

/-- The name of a settings file. -/
def fileName : Text := "cds.toml"

/-- The name of a file of environment variables. -/
def variablesName : Text := ".env"

/-- The variables of the file in a directory. A directory need not have such a file. -/
def readVariables (t : FileTree) (directory : Text) : Except Fault (Table Text) :=
  match t.find (Path.join directory variablesName) with
  | .error .noSuchFile => .ok Table.empty
  | .ok (.file _ contents) =>
    match EnvFile.parse? contents with
    | some table => .ok table
    | none => .error (.of .unreadableEnvironment)
  | .ok .fullDevice => .ok Table.empty
  | _ => .error (.of .unreadableEnvironment)

/-- The settings of a file, in the directory that they hold for, with variables and defaults. -/
def complete (t : FileTree) (process : Table Text) (c : Config) : Except Fault Config :=
  match readVariables t c.directory with
  | .error fault => .error fault
  | .ok file => c.merge ⟨process, file⟩

/-- The settings as the file in a directory gives them. -/
def readFile (t : FileTree) (directory : Text) : Except Fault Config :=
  let path := Path.join directory fileName
  match t.read path with
  | .error fault => .error (.within (.reading path) fault)
  | .ok contents =>
    match parse? contents with
    | none => .error (.of (.unparsable path))
    | some c => .ok { c with directory := t.resolve directory }

/-- The settings in a directory. -/
def load (t : FileTree) (process : Table Text) (directory : Text) : Except Fault Config :=
  match readFile t directory with
  | .error fault => .error fault
  | .ok c =>
    match complete t process c with
    | .error fault => .error fault
    | .ok c =>
      match c.checked with
      | .error fault => .error (.within (.configuration (Path.join directory fileName)) fault)
      | .ok c => .ok c

/-- Whether a directory has a settings file. -/
def isIn (t : FileTree) (directory : Text) : Bool := t.exists? (Path.join directory fileName)

/-- The settings that hold for a directory: those of the nearest settings file in it or around it,
or the defaults if there is none. -/
def find (t : FileTree) (process : Table Text) (start : Text) : Except Fault Config :=
  let start := t.resolve start
  match (Path.ancestors start).find? (isIn t) with
  | some directory => load t process directory
  | none =>
    match complete t process { directory := start } with
    | .error fault => .error fault
    | .ok c => c.checked

end Config

end ClassSharing
