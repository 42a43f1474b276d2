import ClassSharing.Text.Basic

/-!
# Paths

Paths are texts with slashes between their components. A clean path has no empty component, no `.`,
and `..` only at the beginning of a relative path.

## Main definitions

* `Path.clean`, `Path.join`, `Path.absolute`, `Path.directory`
* `Path.ancestors`: a directory and the directories around it, up to the root
* `Path.waypoints`: the places that a walk along a path comes by
* `Path.split`: a path as the path of a directory and a name in it
-/

namespace ClassSharing

namespace Path

/-- The byte between components. -/
def slash : UInt8 := 0x2F

/-- Whether a path starts at the root. -/
def isAbsolute (p : Text) : Bool := p.bytes.head? == some slash

/-- The components between the slashes, without empty ones. -/
def components (p : Text) : List Text := (p.splitOn slash).filter fun c => !c.isEmpty

/-- Takes one component onto the components before it, which are in reverse. `..` drops the last
one; at the root there is nothing to drop, and a relative path may begin with it. -/
def enter (rooted : Bool) (before : List Text) (c : Text) : List Text :=
  if c = "." then before
  else if c = ".." then
    match before with
    | [] => if rooted then [] else [c]
    | last :: rest => if last = ".." then c :: before else rest
  else c :: before

/-- The components of the clean form of a path. -/
def cleanComponents (p : Text) : List Text :=
  ((components p).foldl (enter (isAbsolute p)) []).reverse

/-- The absolute path with given components. -/
def rooted (cs : List Text) : Text := "/" ++ Text.join "/" cs

/-- The shortest path that means the same. -/
def clean (p : Text) : Text :=
  let cs := cleanComponents p
  if isAbsolute p then rooted cs
  else if cs.isEmpty then "." else Text.join "/" cs

/-- A path inside a directory; an empty part does not count. -/
def join (directory p : Text) : Text :=
  if directory.isEmpty then (if p.isEmpty then Text.empty else clean p)
  else if p.isEmpty then clean directory
  else clean (directory ++ "/" ++ p)

/-- A path as seen from a working directory. -/
def absolute (workingDirectory p : Text) : Text :=
  if isAbsolute p then clean p else join workingDirectory p

/-- The directory that a path lies in. -/
def directory (p : Text) : Text :=
  let kept := p.bytes.reverse.dropWhile (· ≠ slash)
  clean ⟨kept.reverse⟩

/-- Whether a path ends with a slash, so that it can only mean a directory. -/
def endsWithSlash (p : Text) : Bool := p.bytes.getLast? == some slash

/-- A path without the slashes at its end as the path of a directory and a name in it. -/
def split (p : Text) : Text × Text :=
  let reversed := p.bytes.reverse.dropWhile (· = slash)
  let name : Text := ⟨(reversed.takeWhile (· ≠ slash)).reverse⟩
  let outer := ((reversed.dropWhile (· ≠ slash)).drop 1).reverse
  if outer.isEmpty then (if isAbsolute p then "/" else ".", name) else (⟨outer⟩, name)

/-- The places that a walk along a path comes by, from the root on. -/
def waypoints (workingDirectory p : Text) : List Text :=
  let names := if isAbsolute p then components p else components workingDirectory ++ components p
  (List.range (names.length + 1)).map fun n =>
    rooted ((names.take n).foldl (enter true) []).reverse

/-- The directories around one that is given by its components in reverse, innermost first. -/
def enclosing : List Text → List Text
  | [] => [rooted []]
  | c :: outer => rooted (c :: outer).reverse :: enclosing outer

/-- An absolute directory and the directories around it, up to the root. -/
def ancestors (p : Text) : List Text := enclosing (cleanComponents p).reverse

end Path

end ClassSharing
