import ClassSharing.Library.Invokers
import ClassSharing.Session.Boot

/-!
# Booting

A booted process has its archives mapped, the gate of the process installed, the boot library
initialized, its modules linked and the invoker forms made that every program needs. A fault on the
way gives back what has been opened; a panic leaves it as it is.

## Main definitions

* `Booted`: what a booted process works with
* `Booted.start`, `Booted.close`
-/

namespace ClassSharing

/-- What a booted process works with. -/
structure Booted where
  boot : BootId
  classList : Option ClassListId
  gate : GateId
  graph : GraphId
  library : Library
  invokers : Invokers
deriving Inhabited

namespace Booted

/-! ### Opening and closing -/

/-- The build identity that a configuration asks for on a platform. -/
def buildOf (platform : Text) (c : Config) : Build :=
  { release := c.release, debugLevel := c.debugLevel
    vmInfo := Config.orElse c.vmInfo platform, major := 1 }

/-- Gives a class list and a bootstrap back. What the class list holds is written first. -/
def giveBack (boot : BootId) (classList : Option ClassListId) : Act Unit := do
  match classList with
  | none => pure ()
  | some id => let _ ← (Session.closeClassList id).run
  modify fun s => s.closeBoot boot

/-- Gives a class list and a bootstrap back if an operation ends with a fault. -/
def guarded {α : Type} (boot : BootId) (classList : Option ClassListId) (body : Run α) : Run α :=
  body.tryCatch fun
    | .fault fault => do
      Run.act (giveBack boot classList)
      Run.fault fault
    | .panic p => Run.panic p

/-- Opens the class list of a configuration, if it has one. -/
def openList (c : Config) : Run (Option ClassListId) := do
  if c.classListPath.isEmpty then return none
  else return some (← Session.openClassList c.classListPath)

/-! ### Invoker forms -/

/-- The method types that every program needs forms for. -/
def warmTypes : List Text := ["(L)L", "(LL)L", "(LI)V"]

/-- The holders and the kinds of form that every program needs. -/
def warmForms : List (Text × Text) :=
  [(Invokers.invokersHolder, "invokeExact_MT"), (Invokers.directHolder, "invokeStatic"),
    (Invokers.delegatingHolder, "delegate")]

/-- The bound types that every program needs species for. -/
def warmSpecies : List Text := ["L", "LL"]

/-- Makes a form. -/
def warmForm (iv : Invokers) (form : Text × Text) (type : MethodType) : Run Invokers := do
  let (answer, iv) ← Run.act (iv.invoker form.1 form.2 type)
  let _ ← Run.ofFailure answer
  return iv

/-- Makes the forms of a method type. -/
def warmType (iv : Invokers) (signature : Text) : Run Invokers := do
  let type ← Run.ofFault (MethodType.parse signature)
  warmForms.foldlM (fun iv form => warmForm iv form type) iv

/-- Makes a species. -/
def warmOne (iv : Invokers) (types : Text) : Run Invokers := do
  let (answer, iv) ← Run.act (iv.speciesFor types)
  let _ ← Run.ofFailure answer
  return iv

/-- Makes the forms and the species that every program needs. -/
def warm (iv : Invokers) : Run Invokers := do
  let iv ← warmTypes.foldlM warmType iv
  warmSpecies.foldlM warmOne iv

/-! ### Starting -/

/-- Links the modules: first the archived ones, where a refused record is no obstacle, then those of
the module graph that are missing. -/
def linkModules (graph : GraphId) (library : Library) : Run Unit := do
  Run.onMachine fun m => ((), m.createLoaders)
  let _ ← Run.act (Session.defineArchivedModules graph (some .platform) (some .system)).run
  (library.defineModules (some .platform) (some .system)).tryCatch fun
    | .fault fault => Run.fault (.within .moduleGraph fault)
    | .panic p => Run.panic p

/-- Installs the gate of the process and brings up the boot library. -/
def bringUp (boot : BootId) (classList : Option ClassListId) : Run Booted := do
  let gate ← Run.ofFault (← Run.act
    (Session.installGate (some boot) (.log :: (classList.map Sink.classList).toList)))
  let library ← Library.install (.gate gate)
  let graph ← Run.act fun s => s.addGraph gate
  modify fun s => { s with hook := some graph }
  linkModules graph library
  library.requestAll
  let invokers ← warm (Invokers.new (some gate))
  return { boot, classList, gate, graph, library, invokers }

/-- Boots a process with a configuration. -/
def start (platform : Text) (c : Config) : Run Booted := do
  let boot ← Session.openBoot c (buildOf platform c)
  let classList ← guarded boot none (openList c)
  guarded boot classList (bringUp boot classList)

/-- Gives back what a booted process has opened. -/
def close (b : Booted) : Act Unit := giveBack b.boot b.classList

end Booted

end ClassSharing
