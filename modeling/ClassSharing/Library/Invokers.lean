import ClassSharing.Library.Basic
import ClassSharing.Library.MethodType

/-!
# Invoker forms and species

Invoker forms are objects that stand for generated code, kept on the holder class they were asked
for; a species is a class generated for a list of bound types. Each form and each species is made at
its first request and logged once.

## Main definitions

* `Invokers`: what has been generated so far
* `Invokers.invoker`, `Invokers.forms`, `Invokers.speciesFor`
-/

namespace ClassSharing

/-- The generated forms and species. -/
structure Invokers where
  /-- The gate that generated forms are logged through. -/
  log : Option GateId
  formClass : Option ClassId
  holders : Table ClassId
  /-- The forms, by holder, kind and method type joined by blanks. -/
  forms : Table ObjectId
  /-- The species, by their bound types. -/
  species : Table ClassId
deriving Inhabited

namespace Invokers

def formLabel : Text := "[LF_RESOLVE]"

def speciesLabel : Text := "[SPECIES_RESOLVE]"

def invokersHolder : Text := "core.invoke::Invokers$Holder"

def directHolder : Text := "core.invoke::DirectMethodHandle$Holder"

def delegatingHolder : Text := "core.invoke::DelegatingMethodHandle$Holder"

def formClassName : Text := "core.invoke::LambdaForm"

/-- The holders that forms can be asked for, with their names inside the namespace. -/
def knownHolders : List (Text × Text) :=
  [(invokersHolder, "Invokers$Holder"), (directHolder, "DirectMethodHandle$Holder"),
    (delegatingHolder, "DelegatingMethodHandle$Holder")]

/-- No forms and no species. -/
def new (log : Option GateId) : Invokers :=
  ⟨log, none, Table.empty, Table.empty, Table.empty⟩

/-- What a form is found by. -/
def formKey (holder kind : Text) (type : MethodType) : Text :=
  holder ++ " " ++ kind ++ " " ++ type.text

/-- Defines a generated class on the boot loader. -/
def generateClass (name : Text) (instanceVariables statics : List Text) : Run ClassId := do
  let spec : ClassSpec :=
    { name := name, space := Library.invokeSpace, superclass := some Machine.objectClass
      instanceVariables := instanceVariables, statics := statics }
  let (c, m) ← Run.ofFault ((← Run.machine).defineClass spec .boot)
  Run.setMachine m
  return c

/-- The class of a holder, defined at its first request. -/
def holderClass (iv : Invokers) (holder : Text) : Run ClassId := do
  match iv.holders.get? holder with
  | some c => return c
  | none =>
    match knownHolders.find? fun (full, _) => full = holder with
    | none => Run.fault (.of (.unknownHolder holder))
    | some (_, name) =>
      match (← Run.machine).lookup holder with
      | some c => return c
      | none => generateClass name [] ["forms"]

/-- The class of forms, defined at its first request. -/
def lambdaFormClass (iv : Invokers) : Run ClassId := do
  match iv.formClass with
  | some c => return c
  | none =>
    match (← Run.machine).lookup formClassName with
    | some c => return c
    | none => generateClass "LambdaForm" ["holder", "name", "type"] []

/-- Makes a form and puts it at the end of the forms of its holder. The array of forms is replaced
and never changed. -/
def makeForm (holderClass formClass : ClassId) (holder kind : Text) (type : MethodType) :
    Run ObjectId := do
  let form ← Library.make formClass
    [("holder", .str holder), ("name", .str kind), ("type", .str type.text)]
  let m ← Run.machine
  let earlier := match m.static holderClass "forms" with
    | .obj o => (m.objectAt o).elementList
    | _ => []
  let array ← Library.makeArray (earlier ++ [.obj form])
  Library.assign holderClass "forms" (.obj array)
  return form

/-- The form for a holder, a kind and a method type. Answers the form and what has been generated.
-/
def invoker (iv : Invokers) (holder kind : Text) (type : MethodType) :
    Act (Except Failure ObjectId × Invokers) := do
  match iv.forms.get? (formKey holder kind type) with
  | some form => return (.ok form, iv)
  | none =>
    match ← (iv.holderClass holder).run with
    | .error e => return (.error e, iv)
    | .ok hc =>
      let iv := { iv with holders := iv.holders.insert holder hc }
      match ← iv.lambdaFormClass.run with
      | .error e => return (.error e, iv)
      | .ok fc =>
        let iv := { iv with formClass := some fc }
        match ← (makeForm hc fc holder kind type).run with
        | .error e => return (.error e, iv)
        | .ok form =>
          match iv.log with
          | some g => Session.logForm g formLabel holder kind (.text type.text)
          | none => pure ()
          return (.ok form, { iv with forms := iv.forms.insert (formKey holder kind type) form })

/-- The forms of a holder, in the order of their generation, if it has any. -/
def formsOf (iv : Invokers) (m : Machine) (holder : Text) : Option (List (Option ObjectId)) :=
  match iv.holders.get? holder with
  | none => none
  | some c =>
    match m.static c "forms" with
    | .obj o => some ((m.objectAt o).elementList.map Value.object?)
    | _ => none

/-- The names of the instance variables of a species. -/
def argumentNames (count : Nat) : List Text :=
  (List.range count).map fun i => "arg" ++ Text.decimal i

/-- The species class for bound types, defined at its first request. -/
def speciesFor (iv : Invokers) (types : Text) : Act (Except Failure ClassId × Invokers) := do
  match BasicType.parseAll types with
  | .error fault => return (.error (.fault fault), iv)
  | .ok parsed =>
    match iv.species.get? types with
    | some c => return (.ok c, iv)
    | none =>
      match ← (generateClass ("BoundMethodHandle$Species_" ++ types)
          (argumentNames parsed.length) []).run with
      | .error e => return (.error e, iv)
      | .ok c =>
        match iv.log with
        | some g => Session.logSpecies g speciesLabel ((← get).machine.className c)
        | none => pure ()
        return (.ok c, { iv with species := iv.species.insert types c })

end Invokers

end ClassSharing
