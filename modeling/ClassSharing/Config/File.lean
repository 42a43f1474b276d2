import ClassSharing.Config.Basic
import ClassSharing.Toml.Document

/-!
# Settings in a file

A settings file has the tables `archive`, `log` and `build`. The names of tables and of their
entries count regardless of case, and where several names differ in case only, the exact one has
the last word. Unknown names are ignored; a known name with a value of another type is refused.

## Main definitions

* `Config.ofEntries?`: the settings of a document
* `Config.parse?`: the settings of a file
-/

namespace ClassSharing

open Toml

namespace Config

/-- The nodes whose names differ from a name in case only, and the node of that very name behind
them. -/
def nodesNamed (name : Text) (es : Entries) : List Node :=
  let alike := es.filter fun (k, _) => k.foldedEqual name
  let inexact := alike.filter fun (k, _) => k ≠ name
  let exact := alike.filter fun (k, _) => k = name
  (inexact ++ exact).map Prod.snd

/-- The text under a name, or `old` if there is none. -/
def textNamed? (old name : Text) (es : Entries) : Option Text :=
  (nodesNamed name es).foldlM (fun _ node =>
    match node with
    | .scalar (.text t) => some t
    | _ => none) old

/-- The truth value under a name, or `old` if there is none. -/
def flagNamed? (old : Bool) (name : Text) (es : Entries) : Option Bool :=
  (nodesNamed name es).foldlM (fun _ node =>
    match node with
    | .scalar (.boolean b) => some b
    | _ => none) old

/-- The settings with those of the tables under a name taken in. -/
def takeTables? (name : Text) (take : Config → Entries → Option Config) (c : Config)
    (es : Entries) : Option Config :=
  (nodesNamed name es).foldlM (fun c node =>
    match node with
    | .table entries => take c entries
    | _ => none) c

/-- Takes in the settings on archives. -/
def takeArchive? (c : Config) (es : Entries) : Option Config := do
  let mode ← textNamed? c.mode "mode" es
  let path ← textNamed? c.path "path" es
  let top ← textNamed? c.top "top" es
  let require ← flagNamed? c.require "require" es
  return { c with mode := mode, path := path, top := top, require := require }

/-- Takes in the settings on logging. -/
def takeLog? (c : Config) (es : Entries) : Option Config := do
  let level ← textNamed? c.level "level" es
  let logFile ← textNamed? c.logFile "file" es
  let lambdaForms ← flagNamed? c.lambdaForms "lambda-form-invokers" es
  let classList ← textNamed? c.classList "classlist" es
  return { c with
    level := level, logFile := logFile, lambdaForms := lambdaForms, classList := classList }

/-- Takes in the settings on the build identity. -/
def takeBuild? (c : Config) (es : Entries) : Option Config := do
  let release ← textNamed? c.release "release" es
  let debugLevel ← textNamed? c.debugLevel "debug-level" es
  let vmInfo ← textNamed? c.vmInfo "vm-info" es
  return { c with release := release, debugLevel := debugLevel, vmInfo := vmInfo }

/-- The settings of a document. -/
def ofEntries? (es : Entries) : Option Config := do
  let c ← takeTables? "archive" takeArchive? {} es
  let c ← takeTables? "log" takeLog? c es
  takeTables? "build" takeBuild? c es

/-- The settings of a file, if it is well formed and every known name has a value of its type. -/
def parse? (contents : Bytes) : Option Config := (Toml.parse? contents).bind ofEntries?

end Config

end ClassSharing
