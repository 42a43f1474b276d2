import ClassSharing.Session.Init

/-!
# The boot library

The classes of the boot library, and what programs ask of them: boxed integers, locales, immutable
sets and the module graph.

## Main definitions

* `Library`, `Library.install`
* `Library.boxed`, `Library.localeFor`, `Library.localeTag`
* `Library.setContains`, `Library.setElements`
* `Library.descriptors`, `Library.defineModules`
* `Library.archivableFields`
-/

namespace ClassSharing

/-- The installed classes of the boot library. -/
structure Library where
  integer : ClassId
  integerCache : ClassId
  set : ClassId
  collections : ClassId
  descriptor : ClassId
  moduleGraph : ClassId
  locale : ClassId
  localeCache : ClassId
deriving DecidableEq, Inhabited

namespace Library

/-! ### Installation -/

def langSpace : Text := "core.lang"

def utilSpace : Text := "core.util"

def moduleSpace : Text := "core.module"

def invokeSpace : Text := "core.invoke"

/-- The module graph of the boot library. -/
def standardModules : List ModuleSpec :=
  [⟨"core.base", .boot, [langSpace, utilSpace, moduleSpace, invokeSpace]⟩,
    ⟨"core.sql", .platform, ["core.sql", "core.sql.driver"]⟩,
    ⟨"core.net", .platform, ["core.net", "core.net.http", "core.net.http.internal"]⟩,
    ⟨"app", .system, ["app", "app.internal"]⟩]

/-- Defines a class of the library on the boot loader. -/
def defineClass (space name : Text) (instanceVariables statics : List Text)
    (initializer : Initializer) : Run ClassId := do
  let spec : ClassSpec :=
    { name := name, space := space, superclass := some Machine.objectClass
      instanceVariables := instanceVariables, statics := statics, initializer := initializer }
  match (← Run.machine).defineClass spec .boot with
  | .ok (c, m) =>
    Run.setMachine m
    return c
  | .error fault => Run.fault (.within .library fault)

/-- Defines the classes of the library. The classes defined before a failure stay. -/
def install (seeds : SeedSource) : Run Library := do
  modify fun s => { s with lastSeed := none }
  let integer ← defineClass langSpace "Integer" ["value"] [] .none
  let integerCache ← defineClass langSpace "IntegerCache" []
    ["low", "high", "cache", "archivedCache"] (.integerCache integer)
  let set ← defineClass utilSpace "SetN" ["table", "size"] [] .none
  let collections ← defineClass utilSpace "ImmutableCollections" []
    ["salt", "reverse", "emptyList", "emptySet", "archivedObjects"] (.collections set seeds)
  let descriptor ← defineClass moduleSpace "ModuleDescriptor" ["name", "loader", "packages"] []
    .none
  let moduleGraph ← defineClass moduleSpace "ModuleGraph" []
    ["descriptors", "archivedGraph"] (.moduleGraph descriptor set collections)
  let locale ← defineClass utilSpace "Locale" ["language", "region"] [] .none
  let localeCache ← defineClass utilSpace "LocaleCache" []
    ["root", "english", "us", "archivedLocales"] (.localeCache locale)
  return ⟨integer, integerCache, set, collections, descriptor, moduleGraph, locale, localeCache⟩

/-- The classes with archivable state, in the order of their initialization. -/
def classes (lib : Library) : List ClassId :=
  [lib.integerCache, lib.collections, lib.moduleGraph, lib.localeCache]

/-- Requests classes in order, up to the first fault. -/
def requestEach : List ClassId → Run Unit
  | [] => return
  | c :: rest => do
    Run.require Session.request c
    requestEach rest

/-- Initializes all classes with archivable state, up to the first fault. -/
def requestAll (lib : Library) : Run Unit := requestEach lib.classes

/-- The static fields whose object graphs are archived. -/
def archivableFields : List Image.FieldSpec :=
  [⟨"core.lang::IntegerCache", ["archivedCache"]⟩,
    ⟨"core.util::ImmutableCollections", ["archivedObjects"]⟩,
    ⟨"core.module::ModuleGraph", ["archivedGraph"]⟩,
    ⟨"core.util::LocaleCache", ["archivedLocales"]⟩]

/-! ### Boxed integers -/

/-- The boxed form of an integer, shared within the bounds of the cache. -/
def boxed (lib : Library) (n : Int64) : Run (Option ObjectId) := do
  Run.require Session.request lib.integerCache
  if cacheLow ≤ n.toInt && n.toInt ≤ cacheHigh then
    let m ← Run.machine
    match (m.static lib.integerCache "cache").object? with
    | none => Run.fault (.of .integerCacheMissing)
    | some cache => return (← Run.ofPanic (m.getElement cache (n.toInt - cacheLow))).object?
  else return some (← box lib.integer n)

/-! ### Locales -/

/-- The locale for a language and a region, shared if it is preallocated. -/
def localeFor (lib : Library) (language region : Text) : Run ObjectId := do
  Run.require Session.request lib.localeCache
  match knownLocales.find? fun (_, l, r) => l = language && r = region with
  | some (name, _, _) =>
    match ((← Run.machine).static lib.localeCache name).object? with
    | some o => return o
    | none => Run.fault (.of (.localeMissing name))
  | none => newLocale lib.locale language region

/-- An instance variable, nil if the object has none of that name. -/
def fieldOrNil (m : Machine) (o : ObjectId) (name : Text) : Except Panic Value :=
  match m.getField o name with
  | .ok v => .ok v
  | .error (.fault _) => .ok .nil
  | .error (.panic p) => .error p

/-- The language of a locale, followed by its region if it has one. -/
def localeTag (m : Machine) (o : ObjectId) : Except Panic Text := do
  let language ← fieldOrNil m o "language"
  let region ← (← fieldOrNil m o "region").toText
  let language ← language.toText
  return if region.isEmpty then language else language ++ "_" ++ region

/-! ### Sets -/

/-- The table of a set, if the object is one. -/
def tableOf (m : Machine) (set : Option ObjectId) : Except Panic (Option ObjectId) :=
  match set with
  | none => .ok none
  | some o =>
    match m.getField o "table" with
    | .ok v => .ok v.object?
    | .error (.fault _) => .ok none
    | .error (.panic p) => .error p

/-- The places of the table of a set, none if the object is no set. -/
def placesOf (m : Machine) (set : Option ObjectId) : Except Panic (List Value) := do
  match ← tableOf m set with
  | none => return []
  | some table => return (m.objectAt table).elementList

/-- Whether a set has an element. -/
def setContains (m : Machine) (set : Option ObjectId) (v : Value) : Except Panic Bool := do
  return SetTable.contains (← placesOf m set) v

/-- The elements of a set, in the order that the salt gives. -/
def setElements (lib : Library) (set : Option ObjectId) : Run (List Value) := do
  Run.require Session.request lib.collections
  let m ← Run.machine
  let places ← Run.ofPanic (placesOf m set)
  if places.isEmpty then return []
  else
    let salt ← Run.ofPanic (m.static lib.collections "salt").toInt
    let backwards ← Run.ofPanic (m.static lib.collections "reverse").toBool
    return SetTable.visit places salt backwards

/-! ### Modules -/

/-- The module that a descriptor describes. -/
def readDescriptor (lib : Library) (o : ObjectId) : Run ModuleSpec := do
  let m ← Run.machine
  let name ← Run.ofPanic (fieldOrNil m o "name")
  let loader ← Run.ofPanic (fieldOrNil m o "loader")
  let packages ← Run.ofPanic (fieldOrNil m o "packages")
  let kind ← Run.ofFault (LoaderKind.ofName (← Run.ofPanic loader.toText))
  let name ← Run.ofPanic name.toText
  let elements ← (lib.setElements packages.object?).tryCatch fun e =>
    match e with
    | .fault fault => Run.fault (.within (.moduleNamed name) fault)
    | .panic p => Run.panic p
  let packages ← elements.mapM fun v => Run.ofPanic v.toText
  return ⟨name, kind, Text.sorted packages⟩

/-- The module that the descriptor at a position describes. -/
def descriptorAt (lib : Library) (graph : ObjectId) (i : Nat) : Run ModuleSpec := do
  match (← Run.ofPanic ((← Run.machine).getElement graph i)).object? with
  | none => Run.fault (.of (.descriptorMissing i))
  | some o => lib.readDescriptor o

/-- The modules of the module graph, each with its packages sorted. -/
def descriptors (lib : Library) : Run (List ModuleSpec) := do
  Run.require Session.request lib.moduleGraph
  let m ← Run.machine
  match (m.static lib.moduleGraph "descriptors").object? with
  | none => Run.fault (.of .moduleGraphMissing)
  | some graph => (List.range (m.objectAt graph).size).mapM fun i => lib.descriptorAt graph i

/-- Links a module of the graph to its loader, unless the loader has it. -/
def defineModule (platformLoader systemLoader : Option LoaderKind) (spec : ModuleSpec) :
    Run Unit := do
  let chosen : Option LoaderKind := match spec.loader with
    | .boot => some .boot
    | .platform => platformLoader
    | .system => systemLoader
  let m ← Run.machine
  match chosen.bind fun kind => (m.loader? kind).map fun l => (kind, l) with
  | none => Run.fault (.of (.loaderMissing spec.name spec.loader.name))
  | some (kind, l) =>
    if l.modules.contains spec.name then return
    else Run.setMachine (← Run.ofFailure (Session.linkModule m kind spec.name spec.packages))

/-- Links modules of the graph in order, up to the first fault. -/
def defineEach (platformLoader systemLoader : Option LoaderKind) : List ModuleSpec → Run Unit
  | [] => return
  | spec :: rest => do
    defineModule platformLoader systemLoader spec
    defineEach platformLoader systemLoader rest

/-- Links every module of the graph to its loader. -/
def defineModules (lib : Library) (platformLoader systemLoader : Option LoaderKind) :
    Run Unit := do
  defineEach platformLoader systemLoader (← lib.descriptors)

end Library

end ClassSharing
