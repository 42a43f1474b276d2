import ClassSharing.Bootstrap.Basic
import ClassSharing.Files.ClassList
import ClassSharing.Machine.Basic

/-!
# Sessions

A session is everything that one run of the program holds: the machine, the gates and object graphs
made so far, the bootstraps behind them, the files, and what has been reported along the way. Gates,
graphs, bootstraps and class lists are named by their positions, since several holders share them.

Every operation on a session is a state transformer. One that can fail keeps the changes made before
the failure.

## Main definitions

* `Sink`, `Gate`, `Outcome`, `Graph`, `ModuleSpec`, `Event`
* `Session`
* `Act`, `Run`: operations on sessions that cannot and that can fail
-/

namespace ClassSharing

/-! ### Parts -/

/-- The position of a bootstrap in the list of all bootstraps. -/
abbrev BootId := Nat

/-- The position of a class list in the list of all class lists. -/
abbrev ClassListId := Nat

/-- Where a diagnostic line goes. -/
inductive Sink where
  /-- The log of the process, which nobody looks at. -/
  | log
  /-- The recorded lines. -/
  | record
  /-- A sink that panics. -/
  | broken
  | classList (id : ClassListId)
deriving DecidableEq, Inhabited

/-- A gate answers questions about the archive status. The status is asked for once and kept. -/
structure Gate where
  boot : Option BootId
  /-- The sinks that a line goes to, one after another. -/
  sinks : List Sink
  /-- The status, once it is known. -/
  status : Option Status
deriving DecidableEq, Inhabited

/-- How the restoration of a class's archived statics went. -/
inductive Outcome where
  | notAttempted
  | restored
  | skipped
deriving DecidableEq, Inhabited

/-- The name of the outcome with a given number. -/
def Outcome.nameOf (code : UInt8) : Text :=
  match code with
  | 0 => "NotAttempted"
  | 1 => "Restored"
  | 2 => "Skipped"
  | _ => "Unknown"

/-- The name of an outcome. -/
def Outcome.name : Outcome → Text
  | notAttempted => nameOf 0
  | restored => nameOf 1
  | skipped => nameOf 2

/-- An object graph restores archived statics through a gate. -/
structure Graph where
  gate : GateId
  /-- The outcomes by class. -/
  results : Table Outcome
  modulesDefined : Bool
deriving Inhabited

/-- A module of the boot library's module graph. -/
structure ModuleSpec where
  name : Text
  loader : LoaderKind
  packages : List Text
deriving DecidableEq, Inhabited

/-- What the journal of a session notes. -/
inductive Event where
  /-- A class moved to another state. -/
  | moved (c : ClassId) (state : InitState)
  /-- A request for a class was granted. -/
  | granted (c : ClassId)
  /-- The restoration that precedes a class's initializer begins. -/
  | consulting (c : ClassId)
  /-- The restoration that precedes a class's initializer is over. -/
  | consulted (c : ClassId)
  /-- The initializer of a class was entered. -/
  | entered (c : ClassId)
  /-- Someone asked a graph to restore a class, other than the initialization of that class. -/
  | asked (g : GraphId) (c : ClassId)
  /-- Restoration by a graph assigned the statics of a class. The objects built for it have the
  given classes, which were in the given states. -/
  | assigned (g : GraphId) (c : ClassId) (built : List (ClassId × InitState))
  /-- A graph recorded an outcome. -/
  | recorded (g : GraphId) (className : Text) (outcome : Outcome)
deriving DecidableEq, Inhabited

/-! ### Sessions -/

/-- Everything that one run of the program holds. -/
structure Session where
  machine : Machine
  /-- The object graph that is consulted before static initializers. -/
  hook : Option GraphId
  graphs : Array Graph
  gates : Array Gate
  boots : Array Bootstrap
  classLists : Array ClassList
  /-- The gate of the whole process. -/
  installed : Option GateId
  files : FileTree
  /-- The objects that scripts and requests from outside have names for. -/
  bindings : Table ObjectId
  /-- The module graph that the library resolves. -/
  moduleSpecs : List ModuleSpec
  /-- The number that stands in for a dump seed where there is none. -/
  entropy : Int64
  /-- What the seed source answered last. -/
  lastSeed : Option Int64
  /-- The lines that scripts have traced. -/
  trace : List Text
  /-- The defects of the startup order. -/
  fatal : List Text
  /-- The recorded diagnostic lines. -/
  lines : List Text
  /-- The classes that someone waits for. -/
  awaited : List ClassId
  journal : List Event
deriving Inhabited

/-- An operation on a session. -/
abbrev Act (α : Type) := StateM Session α

/-- An operation on a session that can fail. -/
abbrev Run (α : Type) := ExceptT Failure (StateM Session) α

/-- How a class is requested. -/
abbrev Requester := ClassId → Act (Except Fault Unit)

namespace Session

/-! ### Looking and changing -/

/-- A gate by its position. -/
def gateAt (s : Session) (id : GateId) : Gate := s.gates[id]?.getD default

/-- A bootstrap by its position. -/
def bootAt (s : Session) (id : BootId) : Bootstrap := s.boots[id]?.getD .unopened

/-- An object graph by its position. -/
def graphAt (s : Session) (id : GraphId) : Graph := s.graphs[id]?.getD default

/-- The session with another machine. -/
def withMachine (s : Session) (m : Machine) : Session := { s with machine := m }

/-- The session with one gate changed. -/
def updateGate (s : Session) (id : GateId) (f : Gate → Gate) : Session :=
  { s with gates := s.gates.modify id f }

/-- The session with one bootstrap changed. -/
def updateBoot (s : Session) (id : BootId) (f : Bootstrap → Bootstrap) : Session :=
  { s with boots := s.boots.modify id f }

/-- The session with one object graph changed. -/
def updateGraph (s : Session) (id : GraphId) (f : Graph → Graph) : Session :=
  { s with graphs := s.graphs.modify id f }

/-- The session with an event noted. -/
def note (s : Session) (e : Event) : Session := { s with journal := s.journal ++ [e] }

/-- The session with a class moved to another state. -/
def move (s : Session) (c : ClassId) (state : InitState) : Session :=
  (s.withMachine (s.machine.setState c state)).note (.moved c state)

/-- The session with a startup defect reported. -/
def reportFatal (s : Session) (message : Text) : Session :=
  { s with fatal := s.fatal ++ [message] }

/-- The session with a line traced. -/
def addTrace (s : Session) (line : Text) : Session := { s with trace := s.trace ++ [line] }

/-- Adds a gate. -/
def addGate (s : Session) (g : Gate) : GateId × Session :=
  (s.gates.size, { s with gates := s.gates.push g })

/-- Adds a bootstrap. -/
def addBoot (s : Session) (b : Bootstrap) : BootId × Session :=
  (s.boots.size, { s with boots := s.boots.push b })

/-- Adds an object graph over a gate. -/
def addGraph (s : Session) (gate : GateId) : GraphId × Session :=
  (s.graphs.size, { s with graphs := s.graphs.push ⟨gate, Table.empty, false⟩ })

/-- A session with nothing but a new machine. -/
def new (files : FileTree) (moduleSpecs : List ModuleSpec) (entropy : Int64) : Session :=
  { machine := Machine.new, hook := none, graphs := #[], gates := #[], boots := #[]
    classLists := #[], installed := none, files := files, bindings := Table.empty
    moduleSpecs := moduleSpecs, entropy := entropy, lastSeed := none, trace := [], fatal := []
    lines := [], awaited := [], journal := [] }

/-- The session with a new machine in place of the old one, and without what belonged to it. -/
def renewMachine (s : Session) : Session :=
  { s with machine := Machine.new, hook := none, installed := none, bindings := Table.empty }

/-- The session with nothing reported. -/
def clearReports (s : Session) : Session :=
  { s with trace := [], fatal := [], lines := [], awaited := [] }

end Session

/-! ### Running -/

namespace Run

/-- Fails with a fault. -/
def fault {α : Type} (f : Fault) : Run α := throw (.fault f)

/-- Panics. -/
def panic {α : Type} (p : Panic) : Run α := throw (.panic p)

/-- An answer that may be a fault. -/
def ofFault {α : Type} : Except Fault α → Run α
  | .ok a => pure a
  | .error f => fault f

/-- An answer that may be a panic. -/
def ofPanic {α : Type} : Except Panic α → Run α
  | .ok a => pure a
  | .error p => panic p

/-- An answer that may be either. -/
def ofFailure {α : Type} : Except Failure α → Run α
  | .ok a => pure a
  | .error e => throw e

/-- The machine. -/
def machine : Run Machine := do return (← get).machine

/-- Replaces the machine. -/
def setMachine (m : Machine) : Run Unit := modify fun s => s.withMachine m

/-- Changes the machine by an operation with a result. -/
def onMachine {α : Type} (f : Machine → α × Machine) : Run α := do
  let (a, m) := f (← machine)
  setMachine m
  return a

/-- An action that cannot fail. -/
def act {α : Type} (a : Act α) : Run α := ExceptT.lift a

/-- Requests a class and fails with its fault. -/
def require (request : Requester) (c : ClassId) : Run Unit := do ofFault (← act (request c))

end Run

end ClassSharing
