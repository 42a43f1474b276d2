import ClassSharing.Bootstrap.Dump
import ClassSharing.Bootstrap.Open
import ClassSharing.Session.Basic

/-!
# What a session opens and closes

Bootstraps and class lists are opened from the files of a session, and stay in it when they are
closed: a closed bootstrap keeps its status, and a closed class list takes no more lines.

## Main definitions

* `Session.openBoot`, `Session.closeBoot`
* `Session.openClassList`, `Session.closeClassList`
* `Session.dump`: writes the archive that the configuration of a bootstrap names
-/

namespace ClassSharing

namespace Session

/-- The session with other files, of which the mapped archives are views. -/
def withFiles (s : Session) (files : FileTree) : Session :=
  { s with files := files, boots := s.boots.map (Bootstrap.refresh files) }

/-- Opens the bootstrap of a configuration for a build. -/
def openBoot (c : Config) (build : Build) : Run BootId := do
  let b ← Run.ofFailure (MappedBoot.openWith (← get).files c build)
  Run.act fun s => s.addBoot (.mapped b)

/-- Gives the archives of a bootstrap back. -/
def closeBoot (s : Session) (id : BootId) : Session :=
  s.updateBoot id fun
    | .mapped b => .mapped b.close
    | b => b

/-- Opens a class list. -/
def openClassList (path : Text) : Run ClassListId := do
  let s ← get
  let (list, files) ← Run.ofFault (ClassList.openAt s.files path)
  set { s with files := files, classLists := s.classLists.push list }
  return s.classLists.size

/-- Writes what a class list still holds and closes it. -/
def closeClassList (id : ClassListId) : Run Unit := do
  let s ← get
  match s.classLists[id]? with
  | none => return
  | some list =>
    let (answer, list, files) := list.close s.files
    set { s with files := files, classLists := s.classLists.modify id fun _ => list }
    Run.ofFault answer

/-- Writes the archive that the configuration of a bootstrap names. -/
def dump (id : BootId) (seed : Int64) (specs : List Image.FieldSpec) : Run DumpReport := do
  let s ← get
  let (answer, files) := (s.bootAt id).dump s.machine s.files seed specs
  set (s.withFiles files)
  Run.ofFailure answer

end Session

end ClassSharing
