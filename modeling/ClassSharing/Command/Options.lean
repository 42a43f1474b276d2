import ClassSharing.Config.Load

/-!
# The command line

The command line has options in front and a command with its arguments behind them. An option is
written `-name`, `--name`, `-name=value` or, if it needs a value, `-name value`. Options end at the
first argument that is none, and `--` ends them explicitly.

## Main definitions

* `Options`: the options and the arguments behind them
* `Options.parse`: a command line read
* `Options.usage`: how the command line is to be used
-/

namespace ClassSharing

/-- What a command line says. -/
structure Options where
  /-- Where the settings are looked for. -/
  directory : Text := "."
  verbose : Bool := false
  /-- The mode that takes the place of the configured one, empty without one. -/
  mode : Text := Text.empty
  /-- The command and its arguments. -/
  arguments : List Text := []
deriving DecidableEq, Inhabited

/-- Why a command line is not carried out. -/
inductive Options.Stop where
  /-- Help was asked for. -/
  | help
  /-- An option is unknown or misused. -/
  | misuse
deriving DecidableEq, Inhabited

namespace Options

/-- An option with the value that is attached to it. -/
structure Flag where
  name : Bytes
  value : Option Text
deriving DecidableEq, Inhabited

/-- What an argument is, where options may stand. -/
inductive Argument where
  | flag (f : Flag)
  /-- The end of the options. -/
  | stop
  /-- No option. -/
  | plain
  /-- Neither an option nor anything else. -/
  | bad
deriving DecidableEq, Inhabited

def dash : UInt8 := 0x2D

def equalsSign : UInt8 := 0x3D

/-- An option without its dashes. The name has at least one byte, even if that is no letter. -/
def flagOf : Bytes → Argument
  | [] => .bad
  | b :: rest =>
    if b = dash || b = equalsSign then .bad
    else
      let name := b :: rest.takeWhile (· ≠ equalsSign)
      match rest.dropWhile (· ≠ equalsSign) with
      | [] => .flag ⟨name, none⟩
      | _ :: value => .flag ⟨name, some ⟨value⟩⟩

/-- What an argument is, where options may stand. -/
def classify (argument : Text) : Argument :=
  match argument.bytes with
  | [] | [_] => .plain
  | a :: b :: rest =>
    if a ≠ dash then .plain
    else if b = dash then (if rest.isEmpty then .stop else flagOf rest)
    else flagOf (b :: rest)

/-- The options that need a value. -/
inductive Valued where
  | directory | mode
deriving DecidableEq, Inhabited

/-- The option with a given name that needs a value. -/
def valued? (name : Text) : Option Valued :=
  if name = "config" then some .directory
  else if name = "mode" then some .mode
  else none

/-- The options with a value given to one of them. -/
def give (o : Options) (value : Text) : Valued → Options
  | .directory => { o with directory := value }
  | .mode => { o with mode := value }

/-- The option without a value of its own: verbosity, which may be switched off. -/
def switch (o : Options) (name : Text) (value : Option Text) : Except Stop Options :=
  if name = "v" then
    match value with
    | none => .ok { o with verbose := true }
    | some text =>
      match Config.truth? text with
      | some b => .ok { o with verbose := b }
      | none => .error .misuse
  else if name = "help" || name = "h" then .error .help
  else .error .misuse

/-- Reads arguments on top of the options before them. -/
def take (o : Options) : List Text → Except Stop Options
  | [] => .ok o
  | argument :: rest =>
    match classify argument with
    | .plain => .ok { o with arguments := argument :: rest }
    | .stop => .ok { o with arguments := rest }
    | .bad => .error .misuse
    | .flag f =>
      match valued? ⟨f.name⟩ with
      | none =>
        match o.switch ⟨f.name⟩ f.value with
        | .error stop => .error stop
        | .ok o => o.take rest
      | some option =>
        match f.value, rest with
        | some value, rest => (o.give value option).take rest
        | none, value :: rest => (o.give value option).take rest
        | none, [] => .error .misuse

/-- A command line read. -/
def parse (arguments : List Text) : Except Stop Options := take {} arguments

/-- How the command line is to be used. -/
def usage : Text :=
  "Usage: cds [options] <command> [args]\n\n"
    ++ "Commands:\n"
    ++ "  status          Print the archive status of this process\n"
    ++ "  run             Boot the library and report restored classes\n"
    ++ "  dump            Boot the library and write the configured archive\n"
    ++ "  inspect [path]  Print the contents of an archive file\n"
    ++ "\nOptions:\n"
    ++ "  -config string\n    \tDirectory to search for cds.toml (default \".\")\n"
    ++ "  -mode string\n    \tOverride archive.mode (off, use, auto, dump-static, dump-dynamic)\n"
    ++ "  -v\tVerbose (debug) logging\n"
    ++ "\nExamples:\n"
    ++ "  cds -mode dump-static dump   # Write build/classes.cds\n"
    ++ "  cds -mode use run            # Boot from the archive\n"

/-- An argument behind the options, empty if there is none. -/
def argument (o : Options) (i : Nat) : Text := (o.arguments[i]?).getD Text.empty

end Options

end ClassSharing
