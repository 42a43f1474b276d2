import ClassSharing.Library.SetTable
import ClassSharing.Session.Gate

/-!
# The initializers of the boot library

Four classes of the boot library have static state that is worth archiving: the cache of boxed
integers, the shared empty collections, the module graph and the preallocated locales. Each
initializer keeps an archived array that has the right size, and otherwise computes it; then it sets
the statics that depend on it.

## Main definitions

* `Library.fillIntegerCache`, `Library.makeCollections`, `Library.resolveModuleGraph`,
  `Library.makeLocales`: the four initializers
* `Library.setOf`, `Library.emptySet`: immutable sets
-/

namespace ClassSharing

namespace Library

/-! ### Objects -/

/-- A new instance of a class with some instance variables set. The class has to have them. -/
def make (c : ClassId) (fields : List (Text × Value)) : Run ObjectId := do
  let o ← Run.onMachine fun m => m.instantiate c
  for (name, value) in fields do
    match (← Run.machine).setField o name value with
    | .ok m => Run.setMachine m
    | .error (.fault fault) => Run.panic (.unexpected fault)
    | .error (.panic p) => Run.panic p
  return o

/-- A new array. -/
def makeArray (values : List Value) : Run ObjectId := Run.onMachine fun m => m.newArray values

/-- Whether a value is an array of a given size. -/
def isArrayOfSize (m : Machine) (v : Value) (size : Nat) : Bool :=
  match v with
  | .obj o => (m.objectAt o).classId = some Machine.arrayClass && (m.objectAt o).size = size
  | _ => false

/-- Assigns a static field. -/
def assign (c : ClassId) (name : Text) (v : Value) : Run Unit := do
  Run.setMachine (← Run.ofFault ((← Run.machine).setStatic c name v))

/-- Assigns several static fields together. -/
def assignAll (c : ClassId) (values : List (Text × Value)) : Run Unit := do
  Run.setMachine (← Run.ofFault ((← Run.machine).setAllStatics c values))

/-- The archived array in a static field if it has the given size, and otherwise a new one, which is
put there. -/
def archivedOr (c : ClassId) (name : Text) (size : Nat) (compute : Run ObjectId) : Run Value := do
  let m ← Run.machine
  if isArrayOfSize m (m.static c name) size then return m.static c name
  else
    let o ← compute
    assign c name (.obj o)
    return .obj o

/-- An element of an array. -/
def elementOf (array : Value) (i : Nat) : Run Value := do
  match array with
  | .obj o => Run.ofPanic ((← Run.machine).getElement o i)
  | _ => Run.panic .missingObject

/-! ### Boxed integers -/

/-- The least cached integer. -/
def cacheLow : Int := -128

/-- The greatest cached integer. -/
def cacheHigh : Int := 127

/-- The number of cached integers. -/
def cacheSize : Nat := (cacheHigh - cacheLow + 1).toNat

/-- A new boxed integer. -/
def box (integer : ClassId) (n : Int64) : Run ObjectId := make integer [("value", .int n)]

/-- Fills the cache of boxed integers. -/
def fillIntegerCache (c integer : ClassId) : Run Unit := do
  let cache ← archivedOr c "archivedCache" cacheSize do
    let boxes ← (List.range cacheSize).mapM fun (i : Nat) => do
      return Value.obj (← box integer (Int64.ofInt (cacheLow + i)))
    makeArray boxes
  assignAll c [("low", .int (Int64.ofInt cacheLow)), ("high", .int (Int64.ofInt cacheHigh)),
    ("cache", cache)]

/-! ### Sets -/

/-- A new set of elements, which have to be different integers and strings. -/
def newSet (set : ClassId) (elements : List Value) : Run ObjectId := do
  let m ← Run.machine
  let table ← Run.ofFault (SetTable.ofElements m.describe elements)
  let array ← makeArray table
  make set [("table", .obj array), ("size", .int (Int64.ofNat elements.length))]

/-- The number that scrambles a seed into a salt. -/
def saltColor : UInt64 := 0x243F6A8885A308D3

/-- The salt of a seed. -/
def saltOf (seed : Int64) : Int64 :=
  Int64.ofNat ((saltColor * seed.toUInt64) >>> 16).toUInt32.toNat

/-- The dump seed that a source gives, zero if it has none. -/
def askSeed (seeds : SeedSource) : Act Int64 := do
  match seeds with
  | .absent => return 0
  | .constant seed =>
    modify fun s => { s with lastSeed := some seed }
    return seed
  | .gate g =>
    let seed ← Session.gateSeed g
    modify fun s => { s with lastSeed := some seed }
    return seed

/-- Makes the salt and the shared empty collections. -/
def makeCollections (c set : ClassId) (seeds : SeedSource) : Run Unit := do
  let asked ← Run.act (askSeed seeds)
  let entropy := (← get).entropy
  let salt := saltOf (if asked = 0 then entropy else asked)
  let archived ← archivedOr c "archivedObjects" 2 do
    let emptyList ← makeArray []
    let emptySet ← newSet set []
    makeArray [.obj emptyList, .obj emptySet]
  assignAll c [("salt", .int salt), ("reverse", .bool (salt &&& 1 = 0)),
    ("emptyList", ← elementOf archived 0), ("emptySet", ← elementOf archived 1)]

/-- The shared empty set. -/
def emptySet (request : Requester) (collections : ClassId) : Run (Option ObjectId) := do
  Run.require request collections
  return ((← Run.machine).static collections "emptySet").object?

/-- An immutable set of elements. Without elements it is the shared empty set. -/
def setOf (request : Requester) (set collections : ClassId) (elements : List Value) :
    Run (Option ObjectId) := do
  if elements.isEmpty then emptySet request collections
  else return some (← newSet set elements)

/-! ### The module graph -/

/-- The descriptor of a module. -/
def describeModule (request : Requester) (descriptor set collections : ClassId)
    (spec : ModuleSpec) : Run Value := do
  let packages ← (setOf request set collections (spec.packages.map Value.str)).tryCatch fun e =>
    match e with
    | .fault fault => Run.fault (.within (.moduleNamed spec.name) fault)
    | .panic p => Run.panic p
  let o ← make descriptor [("name", .str spec.name), ("loader", .str spec.loader.name),
    ("packages", Value.ofObject? packages)]
  return .obj o

/-- Resolves the module graph. -/
def resolveModuleGraph (request : Requester) (c descriptor set collections : ClassId) :
    Run Unit := do
  let specs := (← get).moduleSpecs
  let graph ← archivedOr c "archivedGraph" specs.length do
    makeArray (← specs.mapM (describeModule request descriptor set collections))
  assign c "descriptors" graph

/-! ### Locales -/

/-- The preallocated locales: their static fields, languages and regions, in archived order. -/
def knownLocales : List (Text × Text × Text) :=
  [("root", "", ""), ("english", "en", ""), ("us", "en", "US")]

/-- A new locale. -/
def newLocale (locale : ClassId) (language region : Text) : Run ObjectId :=
  make locale [("language", .str language), ("region", .str region)]

/-- Makes the preallocated locales. -/
def makeLocales (c locale : ClassId) : Run Unit := do
  let archived ← archivedOr c "archivedLocales" knownLocales.length do
    let locales ← knownLocales.mapM fun (_, language, region) => do
      return Value.obj (← newLocale locale language region)
    makeArray locales
  let statics ← knownLocales.zipIdx.mapM fun ((name, _, _), i) => do
    return (name, ← elementOf archived i)
  assignAll c statics

end Library

end ClassSharing
