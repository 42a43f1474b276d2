import ClassSharing.Image.Materialize
import ClassSharing.Session.Gate

/-!
# Restoring archived statics

An object graph restores the archived statics of a class: it asks the bootstrap for the record, has
every class that the record needs initialized, builds the objects and assigns the fields together.
Whatever goes wrong, the statics stay as they were and the ordinary initializer computes them. The
outcome for a class is recorded and never revised.

How a class is requested is a parameter, because requesting a class may in turn restore it.

## Main definitions

* `Session.restore`: one restoration
* `Session.tryRestore`: a restoration with its outcome recorded
* `Session.askRestore`: a restoration that someone asks for
* `Session.defineArchivedModules`: links the archived modules to the loaders, once
-/

namespace ClassSharing

open Image

/-- An operation on a session that can answer with a fault. -/
abbrev Attempt (α : Type) := ExceptT Fault (StateM Session) α

namespace Session

/-! ### One restoration -/

/-- The record of a class from the bootstrap behind a graph. -/
def archivedSubgraph (g : GraphId) (name : Text) : Attempt (Option Subgraph) := do
  let s ← get
  match (s.gateAt (s.graphAt g).gate).boot with
  | none => throw (.of (.noSubgraph name))
  | some b =>
    set (s.updateBoot b Bootstrap.afterSubgraph)
    match (s.bootAt b).subgraph name with
    | .ok record => return record
    | .error fault => throw fault

/-- Checks that a record is about a class and names only its declared fields. -/
def checkRecord (m : Machine) (c : ClassId) (record : Option Subgraph) : Except Fault Subgraph :=
  let name := m.className c
  match record with
  | none => .error (.of (.record (.describesOther name)))
  | some r =>
    if r.className ≠ name then .error (.of (.record (.describesOther name)))
    else match (r.fields.getD []).find? fun f => !(m.classAt c).statics.has f.name with
      | some f => .error (.of (.undeclaredField f.name))
      | none => .ok r

/-- Requests the classes that a record needs, in order, and adds them to the classes that its
objects may have. -/
def prepareClasses (request : Requester) (allowed : Table ClassId) :
    List Text → Attempt (Table ClassId)
  | [] => return allowed
  | name :: rest => do
    match (← get).machine.lookup name with
    | none => throw (.of (.referencedClassNotFound name))
    | some k =>
      match ← ExceptT.lift (request k) with
      | .error fault => throw (.within (.referencedClass name) fault)
      | .ok () => prepareClasses request (allowed.insert name k) rest

/-- The classes of objects with the states that they are in. -/
def classStates (m : Machine) (objects : List Object) : List (ClassId × InitState) :=
  objects.filterMap fun o => o.classId.map fun c => (c, m.stateOf c)

/-- Puts the objects of a restoration on the heap and assigns the statics of the class. -/
def commit (g : GraphId) (c : ClassId) (objects : List Object)
    (values : List (Text × Value)) : Attempt Unit := do
  let s ← get
  let m := { s.machine with objects := s.machine.objects ++ objects.toArray }
  match m.setAllStatics c values with
  | .error fault => throw fault
  | .ok m => set ((s.withMachine m).note (.assigned g c (classStates m objects)))

/-- Restores the archived statics of a class. -/
def restore (request : Requester) (g : GraphId) (c : ClassId) : Attempt Unit := do
  let name := (← get).machine.className c
  let record ← archivedSubgraph g name
  match checkRecord (← get).machine c record with
  | .error fault => throw fault
  | .ok r =>
    let allowed ← prepareClasses request (Table.empty.insert name c) (r.classes.getD [])
    match r.materialize (← get).machine allowed with
    | .error fault => throw fault
    | .ok (objects, values) => commit g c objects values

/-! ### Outcomes -/

/-- Whether the archive behind a graph is in use. -/
def isUsing (g : GraphId) : Act Bool := do
  return (← gateStatus ((← get).graphAt g).gate).isUsing

/-- The session with an outcome recorded for a class. -/
def withOutcome (s : Session) (g : GraphId) (name : Text) (outcome : Outcome) : Session :=
  (s.updateGraph g fun graph =>
    { graph with results := graph.results.insert name outcome }).note (.recorded g name outcome)

/-- Records the outcome for a class, unless one is recorded already, and answers the recorded one.
-/
def recordOutcome (g : GraphId) (name : Text) (outcome : Outcome) : Act Outcome := fun s =>
  match (s.graphAt g).results.get? name with
  | some earlier => (earlier, s)
  | none => (outcome, s.withOutcome g name outcome)

/-- Restores the archived statics of a class, if an archive is in use and no outcome is recorded. -/
def tryRestore (request : Requester) (g : GraphId) (c : ClassId) : Act Outcome := do
  if ← isUsing g then
    let s ← get
    let name := s.machine.className c
    match (s.graphAt g).results.get? name with
    | some earlier => return earlier
    | none =>
      match ← (restore request g c).run with
      | .ok () => recordOutcome g name .restored
      | .error _ => recordOutcome g name .skipped
  else return .notAttempted

/-- Asks a graph to restore the archived statics of a class. -/
def askRestore (request : Requester) (g : GraphId) (c : ClassId) : Act Outcome := do
  modify fun s => s.note (.asked g c)
  tryRestore request g c

/-- The recorded outcome for a class. -/
def outcomeOf (s : Session) (g : GraphId) (name : Text) : Outcome :=
  ((s.graphAt g).results.get? name).getD .notAttempted

/-- How many classes have a given outcome. -/
def outcomeCount (s : Session) (g : GraphId) (outcome : Outcome) : Nat :=
  (s.graphAt g).results.values.countP fun r => r = outcome

/-! ### Archived modules -/

/-- Makes a module and links it to a loader. A module that is refused leaves nothing behind. -/
def linkModule (m : Machine) (kind : LoaderKind) (name : Text) (packages : List Text) :
    Except Failure Machine :=
  let (id, made) := m.addModule name packages
  made.defineModule kind id

/-- The loader that an archived module is linked to, given the loaders of this process. -/
def moduleLoader (platformLoader systemLoader : LoaderKind) (record : ModuleRecord) :
    Except Fault LoaderKind :=
  match LoaderKind.ofName record.loader with
  | .error fault => .error fault
  | .ok .boot => .ok .boot
  | .ok .platform => .ok platformLoader
  | .ok .system => .ok systemLoader

/-- Links archived modules in order. A record that is refused does not stop the others. -/
def linkModules (platformLoader systemLoader : LoaderKind) :
    Machine → List ModuleRecord → List Fault × Machine
  | m, [] => ([], m)
  | m, record :: rest =>
    match moduleLoader platformLoader systemLoader record with
    | .error fault =>
      let (faults, m) := linkModules platformLoader systemLoader m rest
      (.within (.moduleNamed record.name) fault :: faults, m)
    | .ok kind =>
      match linkModule m kind record.name (record.packages.getD []) with
      | .ok m => linkModules platformLoader systemLoader m rest
      | .error (.fault fault) =>
        let (faults, m) := linkModules platformLoader systemLoader m rest
        (.within (.moduleNamed record.name) fault :: faults, m)
      | .error (.panic _) => linkModules platformLoader systemLoader m rest

/-- Links the archived modules to the loaders of this process. It has to have both loaders, and it
happens once. -/
def defineArchivedModules (g : GraphId) (platformLoader systemLoader : Option LoaderKind) :
    Attempt Unit := do
  match platformLoader, systemLoader with
  | some platformLoader, some systemLoader =>
    if ((← get).graphAt g).modulesDefined then throw (.of .modulesAlreadyDefined)
    modify fun s => s.updateGraph g fun graph => { graph with modulesDefined := true }
    if ← ExceptT.lift (isUsing g) then
      let s ← get
      match (s.gateAt (s.graphAt g).gate).boot with
      | none => return
      | some b =>
        let (faults, m) := linkModules platformLoader systemLoader s.machine (s.bootAt b).modules
        set (s.withMachine m)
        match Fault.join? faults with
        | some fault => throw fault
        | none => return
  | _, _ => throw (.of .nilLoader)

end Session

end ClassSharing
