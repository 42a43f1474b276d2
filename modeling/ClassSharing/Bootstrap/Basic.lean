import ClassSharing.Config.Basic
import ClassSharing.Image.Archive

/-!
# Bootstraps

A bootstrap is the privileged side of the archive: it knows the status of the process, the archived
subgraphs and modules, and the running build. A *mapped* bootstrap has archive files behind it; a
*synthetic* one answers from memory and counts how often it is asked.

## Main definitions

* `SyntheticBoot`, `MappedBoot`, `Bootstrap`
* `Bootstrap.status`, `Bootstrap.subgraph`, `Bootstrap.modules`, `Bootstrap.build`
-/

namespace ClassSharing

open Image

/-- A bootstrap that answers from memory. -/
structure SyntheticBoot where
  /-- The answers to the questions for the status, by how many were asked before. -/
  answer : Nat → Except Fault Status
  build : Build
  /-- The records by class; a class may have none in place of a record. -/
  subgraphs : Table (Option Subgraph)
  /-- The classes whose records are damaged. -/
  broken : Table Fault
  modules : List ModuleRecord
  statusCalls : Nat
  subgraphCalls : Nat

namespace SyntheticBoot

/-- A bootstrap without records that always gives the same status. -/
def new (answer : Except Fault Status) (build : Build) : SyntheticBoot :=
  ⟨fun _ => answer, build, Table.empty, Table.empty, [], 0, 0⟩

/-- The record of a class. -/
def subgraph (b : SyntheticBoot) (className : Text) : Except Fault (Option Subgraph) :=
  match b.broken.get? className with
  | some fault => .error fault
  | none =>
    match b.subgraphs.get? className with
    | some record => .ok record
    | none => .error (.of (.noSubgraph className))

end SyntheticBoot

/-- A bootstrap over archive files. -/
structure MappedBoot where
  config : Config
  build : Build
  status : Status
  base : Option Archive
  top : Option Archive
deriving Inhabited

namespace MappedBoot

/-- The record of a class. Only the base archive has records. -/
def subgraph (b : MappedBoot) (className : Text) : Except Fault (Option Subgraph) :=
  match b.base with
  | none => .error (.of (.noSubgraphUnmapped className))
  | some a => (a.subgraph className).map some

/-- The archived modules. -/
def modules (b : MappedBoot) : List ModuleRecord := (b.base.map Archive.modules).getD []

/-- The bootstrap as its archive files are now. -/
def refresh (t : FileTree) (b : MappedBoot) : MappedBoot :=
  { b with base := b.base.map (Archive.refresh t), top := b.top.map (Archive.refresh t) }

/-- Gives the archives back. The status stays. -/
def close (b : MappedBoot) : MappedBoot := { b with base := none, top := none }

end MappedBoot

/-- The privileged side of the archive. -/
inductive Bootstrap where
  /-- A bootstrap that never came about. -/
  | unopened
  | synthetic (boot : SyntheticBoot)
  | mapped (boot : MappedBoot)

instance : Inhabited Bootstrap := ⟨.unopened⟩

namespace Bootstrap

/-- The status of the process. -/
def status : Bootstrap → Except Fault Status
  | unopened => .error (.of .notBootstrapped)
  | synthetic b => b.answer b.statusCalls
  | mapped b => .ok b.status

/-- The bootstrap after a question for the status. -/
def afterStatus : Bootstrap → Bootstrap
  | synthetic b => synthetic { b with statusCalls := b.statusCalls + 1 }
  | b => b

/-- The record of a class. -/
def subgraph (b : Bootstrap) (className : Text) : Except Fault (Option Subgraph) :=
  match b with
  | unopened => .error (.of (.noSubgraphUnmapped className))
  | synthetic b => b.subgraph className
  | mapped b => b.subgraph className

/-- The bootstrap after a question for a record. -/
def afterSubgraph : Bootstrap → Bootstrap
  | synthetic b => synthetic { b with subgraphCalls := b.subgraphCalls + 1 }
  | b => b

/-- The archived modules. -/
def modules : Bootstrap → List ModuleRecord
  | unopened => []
  | synthetic b => b.modules
  | mapped b => b.modules

/-- The bootstrap as its archive files are now. -/
def refresh (t : FileTree) : Bootstrap → Bootstrap
  | mapped b => mapped (b.refresh t)
  | b => b

/-- The running build. -/
def build : Bootstrap → Build
  | unopened => default
  | synthetic b => b.build
  | mapped b => b.build

end Bootstrap

end ClassSharing
