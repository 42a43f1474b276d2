import ClassSharing.Session.Basic

/-!
# Gates

A gate asks its bootstrap for the status once, at the first question, and answers every later one
from what it got. A bootstrap that cannot answer, or whose answer is inconsistent, is a defect of
the startup order: it is reported, and the gate answers as if no archive were in use.

## Main definitions

* `Session.gateStatus`, `Session.gateSeed`
* `Session.logForm`, `Session.logSpecies`
* `Session.installGate`, `Session.defaultGate`
-/

namespace ClassSharing

namespace Session

/-! ### The status -/

/-- The status that an answer of a bootstrap stands for, or the defect to report. -/
def judge : Except Fault Status → Except Text Status
  | .error fault => .error ("archive status query failed: " ++ fault.message)
  | .ok status =>
    match status.flaw? with
    | some flaw => .error ("archive status is inconsistent: " ++ flaw.message)
    | none => .ok status

/-- The session with the status of a gate fixed. -/
def fixStatus (s : Session) (g : GateId) (status : Status) : Session :=
  s.updateGate g fun gate => { gate with status := some status }

/-- Asks the bootstrap of a gate for the status. -/
def askStatus (s : Session) (g : GateId) : Status × Session :=
  match (s.gateAt g).boot with
  | none =>
    (Status.none, (s.reportFatal (Cause.message .notBootstrapped)).fixStatus g Status.none)
  | some b =>
    let asked := s.updateBoot b Bootstrap.afterStatus
    match judge (s.bootAt b).status with
    | .ok status => (status, asked.fixStatus g status)
    | .error message => (Status.none, (asked.reportFatal message).fixStatus g Status.none)

/-- The status that a gate answers from. -/
def gateStatus (g : GateId) : Act Status := fun s =>
  match (s.gateAt g).status with
  | some status => (status, s)
  | none => s.askStatus g

/-- The seed that makes a static dump reproducible, zero in every other process. -/
def gateSeed (g : GateId) : Act Int64 := do
  let status ← gateStatus g
  let s ← get
  match status.isDumpingStatic, (s.gateAt g).boot with
  | true, some b => return (s.bootAt b).build.dumpSeed
  | _, _ => return 0

/-! ### Diagnostic lines -/

/-- Gives a line to a sink and says whether the sink took it. -/
def deliver (s : Session) (sink : Sink) (line : Text) : Bool × Session :=
  match sink with
  | .log => (true, s)
  | .record => (true, { s with lines := s.lines ++ [line] })
  | .broken => (false, s)
  | .classList id =>
    match s.classLists[id]? with
    | none => (true, s)
    | some list =>
      let (list, files) := list.emit s.files line
      (true, { s with classLists := s.classLists.modify id fun _ => list, files := files })

/-- Gives a line to sinks one after another, up to one that panics. -/
def deliverAll (s : Session) (line : Text) : List Sink → Session
  | [] => s
  | sink :: rest =>
    match s.deliver sink line with
    | (true, s) => s.deliverAll line rest
    | (false, s) => s

/-- Gives a line to the sinks of a gate, if the gate logs. -/
def logLine (g : GateId) (line : Text) : Act Unit := do
  if (← gateStatus g).isLogging then
    modify fun s => s.deliverAll line (s.gateAt g).sinks

/-- The type of a form as a caller gives it. -/
inductive Shown where
  /-- There is none. -/
  | absent
  | text (t : Text)
  /-- Something that panics when it is shown. -/
  | broken
deriving DecidableEq, Inhabited

/-- What is written for a type. -/
def Shown.written : Shown → Text
  | absent => "null"
  | text t => t
  | broken => "?"

/-- The line of a generated form. -/
def formLine (label holder name : Text) (type : Shown) : Text :=
  label ++ " " ++ holder ++ " " ++ name ++ " " ++ type.written

/-- The line of a generated species class. -/
def speciesLine (label className : Text) : Text := label ++ " " ++ className

/-- Logs a generated form. -/
def logForm (g : GateId) (label holder name : Text) (type : Shown) : Act Unit :=
  logLine g (formLine label holder name type)

/-- Logs a generated species class. -/
def logSpecies (g : GateId) (label className : Text) : Act Unit :=
  logLine g (speciesLine label className)

/-! ### The gate of the process -/

/-- Makes a gate over a bootstrap. Nothing is asked yet. -/
def newGate (boot : Option BootId) (sinks : List Sink) : Act GateId := fun s =>
  s.addGate ⟨boot, sinks, none⟩

/-- Makes a gate the one of the whole process. This succeeds once. -/
def installGate (boot : Option BootId) (sinks : List Sink) : Act (Except Fault GateId) := do
  let g ← newGate boot sinks
  match (← get).installed with
  | some _ => return .error (.of .alreadyInstalled)
  | none =>
    modify fun s => { s with installed := some g }
    return .ok g

/-- The gate of the process. Asking before it is installed is a defect of the startup order. -/
def defaultGate : Act (Option GateId) := do
  match (← get).installed with
  | some g => return some g
  | none =>
    modify fun s => s.reportFatal (Cause.message .notBootstrapped)
    return none

/-- The status that the gate of the process answers from. -/
def defaultStatus : Act Status := do
  match ← defaultGate with
  | some g => gateStatus g
  | none => return Status.none

/-- The seed that the gate of the process answers. -/
def defaultSeed : Act Int64 := do
  match ← defaultGate with
  | some g => gateSeed g
  | none => return 0

end Session

end ClassSharing
