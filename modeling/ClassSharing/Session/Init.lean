import ClassSharing.Library.Initializers
import ClassSharing.Session.Restore
import ClassSharing.Session.Script

/-!
# Class initialization

A class is initialized when it is first requested: its superclass first, then its archived statics
if an archive is in use, then its static initializer. A class that is being initialized is granted
to whoever asks for it, so classes may refer to each other. A class whose initialization failed
stays erroneous and is never tried again.

Initialization is recursive through superclasses, through the classes that archived records need and
through scripts. Every request that does not return at once moves a class out of the uninitialized
state, so the number of uninitialized classes bounds the depth.

## Main definitions

* `Session.runInitializer`: the three steps, with the way classes are requested as a parameter
* `Session.requestStep`: one request, with the way classes are requested inside it as a parameter
* `Session.requestWithin`: a request with a bound on the depth
* `Session.request`: a request
* `Session.awaitedAnswers`: what those get who waited for a class
-/

namespace ClassSharing

namespace Session

/-! ### The three steps -/

/-- The static initializer of a class. -/
def runBody (request : Requester) (c : ClassId) : Initializer → Run Unit
  | .none => return
  | .script actions => performAll request c actions
  | .integerCache integer => Library.fillIntegerCache c integer
  | .collections set seeds => Library.makeCollections c set seeds
  | .moduleGraph descriptor set collections =>
    Library.resolveModuleGraph request c descriptor set collections
  | .localeCache locale => Library.makeLocales c locale

/-- Requests the superclass of a class, if it has one. -/
def requestSuperclass (request : Requester) (c : ClassId) : Act (Except Fault Unit) := do
  let k := (← get).machine.classAt c
  match k.superclass with
  | none => return .ok ()
  | some parent =>
    match ← request parent with
    | .ok () => return .ok ()
    | .error fault => return .error (.within (.superclassOf k.fullName) fault)

/-- Restores the archived statics of a class, if a graph is consulted and an archive is in use. -/
def consultHook (request : Requester) (c : ClassId) : Act Unit := do
  match (← get).hook with
  | none => return
  | some g =>
    if ← isUsing g then
      modify fun s => s.note (.consulting c)
      let _ ← tryRestore request g c
      modify fun s => s.note (.consulted c)

/-- Enters the static initializer of a class. A panic in it is a fault of the class. -/
def enterInitializer (request : Requester) (c : ClassId) : Act (Except Fault Unit) := do
  let k := (← get).machine.classAt c
  match k.initializer with
  | .none => return .ok ()
  | initializer =>
    modify fun s => s.note (.entered c)
    match ← (runBody request c initializer).run with
    | .ok () => return .ok ()
    | .error (.fault fault) => return .error (.initializerFailed k.fullName fault)
    | .error (.panic p) => return .error (.of (.initializerPanicked k.fullName p.message))

/-- The initialization of a class that has just begun. -/
def runInitializer (request : Requester) (c : ClassId) : Act (Except Fault Unit) := do
  match ← requestSuperclass request c with
  | .error fault => return .error fault
  | .ok () =>
    consultHook request c
    enterInitializer request c

/-! ### Requests -/

/-- The session with the initialization of a class begun. -/
def begin (s : Session) (c : ClassId) : Session := s.move c .running

/-- The session with the initialization of a class over. -/
def finish (s : Session) (c : ClassId) : Except Fault Unit → Session
  | .ok () => (s.move c .ready).note (.granted c)
  | .error fault => s.move c (.erroneous fault)

/-- One request for a class, with the way classes are requested inside it as a parameter. -/
def requestStep (request : Requester) : Requester := fun c => do
  let s ← get
  match s.machine.stateOf c with
  | .ready | .running =>
    modify fun s => s.note (.granted c)
    return .ok ()
  | .erroneous cause => return .error (.erroneousClass (s.machine.className c) cause)
  | .uninitialized =>
    modify fun s => s.begin c
    let answer ← runInitializer request c
    modify fun s => s.finish c answer
    return answer

/-- Requests a class. Requests that are more than `depth` levels inside this one do nothing. -/
def requestWithin : (depth : Nat) → Requester
  | 0 => requestStep fun _ => return .ok ()
  | depth + 1 => requestStep (requestWithin depth)

/-- Requests a class. -/
def request : Requester := fun c s => requestWithin s.machine.uninitializedCount c s

/-- Requests a class by name. -/
def requestByName (name : Text) : Act (Except Fault Unit) := requestNamed request name

/-- Restores the archived statics of a class from outside an initialization. -/
def restoreClass (g : GraphId) (c : ClassId) : Act Outcome := askRestore request g c

/-- What somebody gets who waited for a class. -/
def awaitedAnswer (s : Session) (c : ClassId) : Except Fault Unit :=
  match s.machine.stateOf c with
  | .erroneous cause => .error (.erroneousClass (s.machine.className c) cause)
  | _ => .ok ()

/-- What those get who waited for a class, in order. -/
def awaitedAnswers (s : Session) : List (Except Fault Unit) := s.awaited.map s.awaitedAnswer

end Session

end ClassSharing
