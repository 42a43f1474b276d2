import ClassSharing.Files.Tree

/-!
# Class lists

A class list is a file to which lines are appended. Lines gather in a buffer of 4096 bytes and reach
the file when the buffer is full or the list is closed. After the first failed write further lines
are dropped.

## Main definitions

* `ClassList`, `ClassList.openAt`
* `ClassList.emit`, `ClassList.close`
-/

namespace ClassSharing

/-- A file to which lines are appended. -/
structure ClassList where
  file : FileTree.Handle
  buffer : Bytes
  /-- The fault of the first write that failed. -/
  failure : Option Fault
  closed : Bool
deriving Inhabited

namespace ClassList

/-- The size of the buffer. -/
def capacity : Nat := 4096

/-- Opens a class list, creating the file if it is missing. -/
def openAt (t : FileTree) (path : Text) : Except Fault (ClassList × FileTree) :=
  match t.openToAppend path with
  | .error reason =>
    .error (.within (.openingClassList path) (FileTree.refuse "open" path reason))
  | .ok (file, t) => .ok (⟨file, [], none, false⟩, t)

/-- Writes bytes to the file; a fault is kept. -/
def write (l : ClassList) (t : FileTree) (bytes : Bytes) : ClassList × FileTree :=
  match t.append l.file bytes with
  | .ok t => (l, t)
  | .error fault => ({ l with failure := some fault }, t)

/-- Writes the buffer to the file. -/
def flush (l : ClassList) (t : FileTree) : ClassList × FileTree :=
  if l.failure.isSome || l.buffer.isEmpty then (l, t)
  else
    let (l', t') := l.write t l.buffer
    if l'.failure.isSome then (l', t') else ({ l' with buffer := [] }, t')

/-- Adds bytes to the buffer. Where they do not fit, an empty buffer is passed by and a buffer in
use is filled and written first. -/
def add (l : ClassList) (t : FileTree) (bytes : Bytes) : ClassList × FileTree :=
  let room := capacity - l.buffer.length
  if bytes.length ≤ room then ({ l with buffer := l.buffer ++ bytes }, t)
  else if l.buffer.isEmpty then l.write t bytes
  else
    let (l', t') := { l with buffer := l.buffer ++ bytes.take room }.flush t
    let rest := bytes.drop room
    if l'.failure.isSome then (l', t')
    else if rest.length ≤ capacity then ({ l' with buffer := rest }, t')
    else l'.write t' rest

/-- Adds a line. -/
def emit (l : ClassList) (t : FileTree) (line : Text) : ClassList × FileTree :=
  if l.failure.isSome || l.closed then (l, t) else l.add t (line.bytes ++ [0x0A])

/-- Writes what is left and closes the file. Closing it again does nothing. -/
def close (l : ClassList) (t : FileTree) : Except Fault Unit × ClassList × FileTree :=
  if l.closed then (.ok (), l, t)
  else
    let (l', t') := l.flush t
    match l'.failure with
    | some fault => (.error fault, { l' with closed := true }, t')
    | none => (.ok (), { l' with closed := true }, t')

end ClassList

end ClassSharing
