import ClassSharing.Session.Restore

/-!
# Running scripts

## Main definitions

* `Session.evaluate`: the value that an operand denotes
* `Session.perform`: one action of a script
* `Session.performAll`: a whole script
-/

namespace ClassSharing

namespace Session

/-! ### Operands -/

/-- Why an operand denotes nothing. -/
inductive OperandFlaw where
  | noObject (name : Text)
  | noClass (name : Text)
  | panic (p : Panic)
deriving DecidableEq, Inhabited

/-- The message about a name that nothing has. -/
def OperandFlaw.message : OperandFlaw → Text
  | noObject name => "no object " ++ name.quoted
  | noClass name => "no class " ++ name.quoted
  | panic p => p.message

/-- A panic that an operand causes in a script. -/
def OperandFlaw.toPanic : OperandFlaw → Panic
  | panic p => p
  | flaw => .misuse flaw.message

/-- The object bound to a name. -/
def bound (s : Session) (name : Text) : Except OperandFlaw ObjectId :=
  match s.bindings.get? name with
  | some o => .ok o
  | none => .error (.noObject name)

/-- The class registered under a name. -/
def classNamed (s : Session) (name : Text) : Except OperandFlaw ClassId :=
  match s.machine.lookup name with
  | some c => .ok c
  | none => .error (.noClass name)

/-- The value that an operand denotes. -/
def evaluate (s : Session) : Operand → Except OperandFlaw Value
  | .literal v => .ok v
  | .binding name => (s.bound name).map Value.obj
  | .static className field => (s.classNamed className).map fun c => s.machine.static c field
  | .element array i =>
    match s.evaluate array with
    | .error flaw => .error flaw
    | .ok (.obj o) =>
      match s.machine.getElement o i with
      | .ok v => .ok v
      | .error p => .error (.panic p)
    | .ok _ => .error (.panic .missingObject)

/-- The session with a name bound to an object. -/
def bind (s : Session) (name : Text) (o : ObjectId) : Session :=
  { s with bindings := s.bindings.insert name o }

/-! ### Actions -/

/-- An answer that a flaw turns into a panic. -/
def orPanic {α : Type} : Except OperandFlaw α → Run α
  | .ok a => pure a
  | .error flaw => Run.panic flaw.toPanic

/-- The value of an operand in a script. -/
def valueOf (operand : Operand) : Run Value := do orPanic ((← get).evaluate operand)

/-- Traces a line. -/
def traceLine (line : Text) : Run Unit := modify fun s => s.addTrace line

/-- Requests a class by name. -/
def requestNamed (request : Requester) (name : Text) : Act (Except Fault Unit) := do
  match (← get).machine.lookup name with
  | none => return .error (.of (.classNotFound name))
  | some c => request c

/-- One action of a script of the class `c`. -/
def perform (request : Requester) (c : ClassId) : Action → Run Unit
  | .set field operand => do
    let v ← valueOf operand
    Run.setMachine (← Run.ofFault ((← Run.machine).setStatic c field v))
  | .setIfNil field operand => do
    if ((← Run.machine).static c field).isNil then
      let v ← valueOf operand
      Run.setMachine (← Run.ofFault ((← Run.machine).setStatic c field v))
  | .setAll values => do
    let values ← values.mapM fun (field, operand) => do return (field, ← valueOf operand)
    Run.setMachine (← Run.ofFault ((← Run.machine).setAllStatics c values))
  | .request name => do Run.ofFault (← Run.act (requestNamed request name))
  | .tryRequest name => do
    match ← Run.act (requestNamed request name) with
    | .ok () => traceLine (name ++ ": ok")
    | .error fault => traceLine (name ++ ": " ++ fault.message)
  | .restore g name => do
    let k ← orPanic ((← get).classNamed name)
    let outcome ← Run.act (askRestore request g k)
    traceLine (name ++ ": " ++ outcome.name)
  | .see name => do
    let k ← orPanic ((← get).classNamed name)
    traceLine (name ++ "=" ++ ((← Run.machine).stateOf k).name)
  | .show field => do
    let m ← Run.machine
    traceLine (field ++ "=" ++ m.describe (m.static c field))
  | .trace line => traceLine line
  | .new name className => do
    let k ← orPanic ((← get).classNamed className)
    let o ← Run.onMachine fun m => m.instantiate k
    modify fun s => s.bind name o
  | .newIndexed name className size => do
    let k ← orPanic ((← get).classNamed className)
    let (o, m) ← Run.ofPanic ((← Run.machine).instantiateIndexed k size)
    modify fun s => (s.withMachine m).bind name o
  | .put name field operand => do
    let o ← orPanic ((← get).bound name)
    let v ← valueOf operand
    Run.setMachine (← Run.ofFailure ((← Run.machine).setField o field v))
  | .putAt name i operand => do
    let o ← orPanic ((← get).bound name)
    let v ← valueOf operand
    Run.setMachine (← Run.ofPanic ((← Run.machine).setElement o i v))
  | .traceText operand => do
    let v ← valueOf operand
    traceLine (← Run.ofPanic v.toText)
  | .fail text => Run.fault (.of (.reported text))
  | .panic text => Run.panic (.misuse text)
  | .panicFault text => Run.panic (.unexpected (.of (.reported text)))
  | .spawn name => do
    let k ← orPanic ((← get).classNamed name)
    modify fun s => { s with awaited := s.awaited ++ [k] }

/-- The actions of a script of the class `c`, up to the first that fails. -/
def performAll (request : Requester) (c : ClassId) : List Action → Run Unit
  | [] => return
  | action :: rest => do
    perform request c action
    performAll request c rest

end Session

end ClassSharing
