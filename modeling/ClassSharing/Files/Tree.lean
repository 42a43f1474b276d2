import ClassSharing.Fault
import ClassSharing.Files.Path
import ClassSharing.Table

/-!
# A tree of files

The files that a process can see, as a value: directories, files with their contents, and the device
that takes no data. Reading and writing answer the faults that the operating system would.

A path is followed name by name: everything on the way has to be a directory, and `..` leads to the
directory around the one that has been reached. A path that ends with a slash means a directory.

A file has a number of its own, which it keeps when its contents change. A file that is removed and
made again is another file, so what goes to an open file that is no longer in the tree is lost.

## Main definitions

* `FileTree`: the nodes by absolute path, and the working directory
* `FileTree.place`: where a path leads
* `FileTree.find`: the node at a path, or why there is none
* `FileTree.read`, `FileTree.list`
* `FileTree.write`, `FileTree.remove`, `FileTree.removeAll`
* `FileTree.makeDirectories`, `FileTree.create`
* `FileTree.openToAppend`, `FileTree.append`: writing at the end of an open file
* `FileTree.install`: writes a file as a whole or not at all
-/

namespace ClassSharing

/-- What can be at a path. -/
inductive FileNode where
  | directory
  /-- A file with a number of its own. -/
  | file (number : Nat) (contents : Bytes)
  /-- A device whose every write fails. -/
  | fullDevice
deriving DecidableEq, Inhabited

/-- The files that a process can see. -/
structure FileTree where
  /-- The nodes by absolute clean path. -/
  nodes : Table FileNode
  /-- The directory that relative paths start from. -/
  workingDirectory : Text
  /-- A number that no file has had. -/
  nextNumber : Nat := 0
deriving DecidableEq, Inhabited

namespace FileTree

/-! ### Looking -/

/-- The absolute clean path that a path spells. -/
def resolve (t : FileTree) (path : Text) : Text := Path.absolute t.workingDirectory path

/-- The longest name that something can have. -/
def longestName : Nat := 255

/-- Why nothing can have a name, if nothing can. -/
def nameFlaw? (name : Text) : Option SystemReason :=
  if name.bytes.contains 0 then some .invalidArgument
  else if longestName < name.bytes.length then some .nameTooLong
  else none

/-- The length from which a path is too long. -/
def pathLimit : Nat := 4096

/-- Why a path leads nowhere in any tree, if it does. -/
def pathFlaw? (path : Text) : Option SystemReason :=
  if path.isEmpty then some .noSuchFile
  else if path.bytes.contains 0 then some .invalidArgument
  else if pathLimit ≤ path.bytes.length then some .nameTooLong
  else none

/-- Goes from a directory to something in it or to the directory around it. -/
def step (t : FileTree) (place name : Text) : Except SystemReason Text :=
  match t.nodes.get? place with
  | none => .error .noSuchFile
  | some .directory =>
    if name = "." then .ok place
    else if name = ".." then .ok (Path.directory place)
    else match nameFlaw? name with
      | some reason => .error reason
      | none => .ok (Path.join place name)
  | some _ => .error .notDirectory

/-- The place that names lead to from another place, one after the other. -/
def walk (t : FileTree) (place : Text) : List Text → Except SystemReason Text
  | [] => .ok place
  | name :: names =>
    match t.step place name with
    | .error reason => .error reason
    | .ok next => t.walk next names

/-- The place that a path leads to. It is in a directory, but there may be nothing at it. -/
def place (t : FileTree) (path : Text) : Except SystemReason Text :=
  match pathFlaw? path with
  | some reason => .error reason
  | none =>
    t.walk (if Path.isAbsolute path then "/" else t.workingDirectory) (Path.components path)

/-- The node at a path, or why there is none. -/
def find (t : FileTree) (path : Text) : Except SystemReason FileNode :=
  match t.place path with
  | .error reason => .error reason
  | .ok place =>
    match t.nodes.get? place with
    | none => .error .noSuchFile
    | some .directory => .ok .directory
    | some node => if Path.endsWithSlash path then .error .notDirectory else .ok node

/-- Whether there is a node at a path. -/
def exists? (t : FileTree) (path : Text) : Bool := (t.find path).toOption.isSome

/-- Whether a path is free: neither it nor something above it is in the way. -/
def isMissing (t : FileTree) (path : Text) : Bool :=
  match t.find path with
  | .error .noSuchFile => true
  | _ => false

/-- The place at which a file can be made or opened for writing. -/
def target (t : FileTree) (path : Text) : Except SystemReason Text :=
  match t.place path with
  | .error reason => .error reason
  | .ok place =>
    if Path.endsWithSlash path || t.nodes.get? place = some .directory then .error .isDirectory
    else .ok place

/-- The contents of the file with a number, if it is in the tree. -/
def contentsOf? (t : FileTree) (number : Nat) : Option Bytes :=
  t.nodes.values.findSome? fun
    | .file n contents => if n = number then some contents else none
    | _ => none

/-- A fault of the operating system. -/
def refuse (operation path : Text) (reason : SystemReason) : Fault :=
  .of (.system operation path reason)

/-- The contents of a file. -/
def read (t : FileTree) (path : Text) : Except Fault Bytes :=
  match t.find path with
  | .error reason => .error (refuse "open" path reason)
  | .ok .directory => .error (refuse "read" path .isDirectory)
  | .ok (.file _ contents) => .ok contents
  | .ok .fullDevice => .ok []

/-- The names of the nodes that lie directly at a place, in byte-wise order. -/
def namesIn (t : FileTree) (place : Text) : List Text :=
  let start := if place = "/" then place else place ++ "/"
  t.nodes.keys.filterMap fun key =>
    match Text.dropPrefix? start key with
    | some rest => if rest.isEmpty || rest.bytes.contains Path.slash then none else some rest
    | none => none

/-- The names of the nodes directly in a directory, in byte-wise order. -/
def list (t : FileTree) (path : Text) : Except Fault (List Text) :=
  match t.place path, t.find path with
  | .ok place, .ok .directory => .ok (t.namesIn place)
  | _, .error reason => .error (refuse "open" path reason)
  | _, _ => .error (refuse "open" path .notDirectory)

/-! ### Changing -/

/-- The tree with a node put at a place. -/
def put (t : FileTree) (place : Text) (node : FileNode) : FileTree :=
  { t with nodes := t.nodes.insert place node }

/-- The tree with a new file put at a place. -/
def putNew (t : FileTree) (place : Text) (contents : Bytes) : FileTree :=
  { t.put place (.file t.nextNumber contents) with nextNumber := t.nextNumber + 1 }

/-- The tree without the node at a place and without what lies in it. -/
def remove (t : FileTree) (place : Text) : FileTree :=
  { t with nodes := ⟨t.nodes.entries.filter fun (key, _) =>
      !(key = place || Text.beginsWith (place ++ "/") key)⟩ }

/-- The tree without what lies in the directory at a place. -/
def clear (t : FileTree) (place : Text) : FileTree :=
  (t.namesIn place).foldl (fun t name => t.remove (Path.join place name)) t

/-- Removes a name from a directory, with what lies in it. The directory around a directory is
emptied and stays. -/
def removeFrom (t : FileTree) (directory name : Text) : Except Fault Unit × FileTree :=
  let fault (reason : SystemReason) := refuse "unlinkat" (directory ++ "/" ++ name) reason
  match t.find directory, t.place (directory ++ "/" ++ name) with
  | .error .noSuchFile, _ => (.ok (), t)
  | .error reason, _ => (.error (refuse "open" directory reason), t)
  | _, .error reason => (.error (fault reason), t)
  | _, .ok place =>
    if name = ".." then (.error (fault .directoryNotEmpty), t.clear place)
    else (.ok (), t.remove place)

/-- Removes what is at a path, if anything is, with what lies in it. -/
def removeAll (t : FileTree) (path : Text) : Except Fault Unit × FileTree :=
  let (directory, name) := Path.split path
  if name = "." && !Path.endsWithSlash path then
    (.error (refuse "RemoveAll" path .invalidArgument), t)
  else if t.isMissing path then (.ok (), t)
  else t.removeFrom directory name

/-- Makes the directories of a list, each lying in the one before it, up to the first that cannot be
made. -/
def makeEach (t : FileTree) : List Text → Except Fault Unit × FileTree
  | [] => (.ok (), t)
  | path :: inner =>
    match t.nodes.get? path with
    | some .directory => t.makeEach inner
    | some _ => (.error (refuse "mkdir" path .notDirectory), t)
    | none =>
      match (pathFlaw? path).or (nameFlaw? (Path.split path).2) with
      | some reason => (.error (refuse "mkdir" path reason), t)
      | none => (t.put path .directory).makeEach inner

/-- Makes a directory and the directories around it, where they are missing. -/
def makeDirectories (t : FileTree) (path : Text) : Except Fault Unit × FileTree :=
  t.makeEach (Path.ancestors (t.resolve path)).reverse

/-- Puts contents into a file, which is made if it is missing. -/
def write (t : FileTree) (path : Text) (contents : Bytes) : Except Fault FileTree :=
  match t.target path with
  | .error reason => .error (refuse "open" path reason)
  | .ok place =>
    match t.nodes.get? place with
    | some (.file number _) => .ok (t.put place (.file number contents))
    | some _ => if contents.isEmpty then .ok t else .error (refuse "write" path .noSpace)
    | none => .ok (t.putNew place contents)

/-- Puts contents into a file. The directories around it are made as far as they can be. -/
def create (t : FileTree) (path : Text) (contents : Bytes) : Except Fault Unit × FileTree :=
  let ready := (t.makeDirectories (Path.directory path)).2
  match ready.write path contents with
  | .ok t => (.ok (), t)
  | .error fault => (.error fault, ready)

/-! ### Open files -/

/-- A file that is open for writing at its end. -/
structure Handle where
  /-- The path that it was opened with. -/
  path : Text
  place : Text
  /-- The number of the file. A device has none. -/
  number : Option Nat
deriving DecidableEq, Inhabited

/-- Opens a file for writing at its end. The file is made if it is missing. -/
def openToAppend (t : FileTree) (path : Text) : Except SystemReason (Handle × FileTree) :=
  match t.target path with
  | .error reason => .error reason
  | .ok place =>
    match t.nodes.get? place with
    | some (.file number _) => .ok (⟨path, place, some number⟩, t)
    | some _ => .ok (⟨path, place, none⟩, t)
    | none => .ok (⟨path, place, some t.nextNumber⟩, t.putNew place [])

/-- Writes at the end of an open file. What goes to a file that is no longer in the tree is lost. -/
def append (t : FileTree) (h : Handle) (more : Bytes) : Except Fault FileTree :=
  match h.number, t.nodes.get? h.place with
  | none, _ => .error (refuse "write" h.path .noSpace)
  | some number, some (.file n contents) =>
    .ok (if n = number then t.put h.place (.file n (contents ++ more)) else t)
  | _, _ => .ok t

/-! ### Writing as a whole -/

/-- What the operating system may refuse for reasons that the tree does not show. -/
structure Refusals where
  makeDirectory : Option SystemReason := none
  create : Option SystemReason := none
  write : Option SystemReason := none
  close : Option SystemReason := none
  rename : Option SystemReason := none
deriving Inhabited

/-- Names for temporary files: stars after a mark. -/
def temporaryName (i : Nat) : Text := ".cds-" ++ ⟨List.replicate (i + 1) 0x2A⟩

/-- A temporary name that is free in a directory. There are more names than nodes. -/
def freshPath (t : FileTree) (directory : Text) : Text :=
  let candidates :=
    (List.range (t.nodes.size + 1)).map fun i => Path.join directory (temporaryName i)
  (candidates.find? fun p => !t.nodes.contains (t.resolve p)).getD (Path.join directory ".cds-")

/-- Moves the node at a place to a path; a directory there is in the way. -/
def rename (t : FileTree) (source path : Text) : Except Fault FileTree :=
  match t.place path, t.nodes.get? source with
  | .error reason, _ => .error (.of (.renameRefused source path reason))
  | _, none => .error (.of (.renameRefused source path .noSuchFile))
  | .ok place, some node =>
    if t.nodes.get? place = some .directory then
      .error (.of (.renameRefused source path .fileExists))
    else .ok ((t.remove source).put place node)

/-- Writes a file as a whole or not at all: the contents go to a temporary file beside it, which
then takes its place, or is removed if anything goes wrong. The directory is made first and stays.
-/
def install (t : FileTree) (refusals : Refusals) (path : Text) (contents : Bytes) :
    Except Fault Unit × FileTree :=
  let directory := Path.directory path
  match refusals.makeDirectory with
  | some reason => (.error (.within .creatingDirectory (refuse "mkdir" directory reason)), t)
  | none =>
  match t.makeDirectories directory with
  | (.error fault, ready) => (.error (.within .creatingDirectory fault), ready)
  | (.ok (), ready) =>
  let temporary := ready.freshPath (ready.resolve directory)
  match refusals.create with
  | some reason => (.error (.within .creatingArchive (refuse "open" temporary reason)), ready)
  | none =>
  let written := ready.putNew temporary contents
  match refusals.write with
  | some reason =>
    (.error (.within .writingArchive (refuse "write" temporary reason)), written.remove temporary)
  | none =>
  match refusals.close with
  | some reason => (.error (refuse "close" temporary reason), written.remove temporary)
  | none =>
  match refusals.rename with
  | some reason =>
    (.error (.within (.installing path) (.of (.renameRefused temporary path reason))),
      written.remove temporary)
  | none =>
  match written.rename temporary path with
  | .error fault => (.error (.within (.installing path) fault), written.remove temporary)
  | .ok done => (.ok (), done)

/-- A tree with the root, the full device and an empty working directory. -/
def new (workingDirectory : Text) : FileTree :=
  let bare : FileTree :=
    { nodes := Table.ofList [("/", .directory), ("/dev", .directory), ("/dev/full", .fullDevice)]
      workingDirectory := workingDirectory }
  (bare.makeDirectories workingDirectory).2

end FileTree

end ClassSharing
