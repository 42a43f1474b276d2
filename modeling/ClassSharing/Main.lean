import ClassSharing.Command.Basic

/-!
# The program

The outermost layer: it reads the files that a command may look at into a tree, has the command
carried out on it, and writes back what has changed.

## Main definitions

* `World.load`: a tree with what the disk has at some paths
* `World.store`: writes to the disk where two trees differ
* `main`
-/

namespace ClassSharing

namespace World

/-- The tree with what the disk has at a path. What can be neither read nor missed is a directory.
-/
def probe (t : FileTree) (path : String) : IO FileTree := do
  try
    return t.putNew path (← IO.FS.readBinFile path).toList
  catch
    | .noFileOrDirectory .. => return t
    | _ => return t.put path .directory

/-- The tree with what the disk has at a path, unless the tree knows the path. -/
def loadNode (t : FileTree) (path : Text) : IO FileTree := do
  match t.nodes.contains path, path.toString? with
  | false, some name => probe t name
  | _, _ => return t

/-- The tree with what the disk has at some paths and on the way to them. -/
def load (t : FileTree) (paths : List Text) : IO FileTree :=
  paths.foldlM (fun t path => (Path.waypoints t.workingDirectory path).foldlM loadNode t) t

/-- Writes a node to the disk. -/
def storeNode (path : String) : FileNode → IO Unit
  | .directory => IO.FS.createDirAll path
  | .file _ contents => IO.FS.writeBinFile path ⟨contents.toArray⟩
  | .fullDevice => return

/-- Writes to the disk where a tree differs from an earlier one. Directories come before what lies
in them, since the nodes are in the order of their paths. -/
def store (earlier t : FileTree) : IO Unit :=
  t.nodes.entries.forM fun (path, node) =>
    match path.toString? with
    | some name => if earlier.nodes.get? path = some node then return else storeNode name node
    | none => return

/-- The values of the environment variables that settings depend on. -/
def environment : IO (Table Text) := do
  let names := ["CDS_ARCHIVE_MODE", "CDS_ARCHIVE_PATH", "CDS_ARCHIVE_TOP", "CDS_LOG_LAMBDA_FORMS"]
  let values ← names.filterMapM fun name => do
    return (← IO.getEnv name).map fun value => (Text.ofString name, Text.ofString value)
  return Table.ofList values

/-- Writes text to a stream. -/
def print (stream : IO.FS.Stream) (t : Text) : IO Unit := do
  stream.write ⟨t.bytes.toArray⟩
  stream.flush

/-- The tree that a command line is carried out on. -/
def treeFor (host : Host) (workingDirectory : Text) (arguments : List Text) : IO FileTree := do
  let bare := FileTree.new workingDirectory
  match Options.parse arguments with
  | .error _ => return bare
  | .ok o =>
    let t ← load bare (Command.settingsPaths (bare.resolve o.directory))
    match Command.settings host t o with
    | .error _ => return t
    | .ok c => load t (Command.namedPaths c o)

end World

end ClassSharing

open ClassSharing in
/-- Carries a command line out on the files of the disk. -/
def main (arguments : List String) : IO UInt32 := do
  let arguments := arguments.map Text.ofString
  let workingDirectory := Text.ofString (← IO.currentDir).toString
  let host : Host :=
    { environment := ← World.environment, platform := "native"
      entropy := Int64.ofNat (← IO.rand 1 0x3FFFFFFFFFFFFFFF) }
  let earlier ← World.treeFor host workingDirectory arguments
  let answer := Command.perform host earlier arguments
  World.store earlier answer.files
  World.print (← IO.getStdout) answer.output
  if answer.explains then World.print (← IO.getStderr) Options.usage
  match answer.message with
  | some message => World.print (← IO.getStderr) ("cds: " ++ message ++ "\n")
  | none => pure ()
  return answer.exit
