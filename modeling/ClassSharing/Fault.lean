import ClassSharing.Build
import ClassSharing.Status
import ClassSharing.Text.Quoted

/-!
# Faults and panics

Everything that can go wrong is a value. A `Fault` is an answer of an operation: a cause, possibly
seen from several contexts. A `Panic` is a broken promise of a caller, such as an index past the end
of an array; it ends the computation that meets it, unless a class initializer is there to turn it
into a fault.

## Main definitions

* `Cause`: what went wrong, with `Cause.message` and `Cause.kind?`
* `Context`: what was being done, with `Context.text`
* `Fault`: causes within contexts, with `Fault.message` and `Fault.wraps`
* `Fault.kinds`: the kinds that a fault wraps, in the order in which they are reported
* `Panic`, `Failure`
-/

namespace ClassSharing

/-! ### Kinds -/

/-- The kinds of faults that callers tell apart. -/
inductive FaultKind where
  | notBootstrapped | alreadyInstalled | modulesAlreadyDefined | nilLoader | invalidMagic
  | versionMismatch | corruptHeader | corruptDirectory | corruptRecord | noSubgraph | baseMismatch
  | notArchivable | heapInDynamic | closed | buildMismatch | notDumping | noBase | packageConflict
  | erroneousClass | initializerFailed | classNotFound | duplicateElement | noSuchFile
deriving DecidableEq, Inhabited

namespace FaultKind

/-- All kinds, in the order in which they are reported. -/
def all : List FaultKind :=
  [notBootstrapped, alreadyInstalled, modulesAlreadyDefined, nilLoader, invalidMagic,
    versionMismatch, corruptHeader, corruptDirectory, corruptRecord, noSubgraph, baseMismatch,
    notArchivable, heapInDynamic, closed, buildMismatch, notDumping, noBase, packageConflict,
    erroneousClass, initializerFailed, classNotFound, duplicateElement, noSuchFile]

/-- The sentence that every fault of the kind begins with, or contains. -/
def sentence : FaultKind → Text
  | notBootstrapped => "archive status queried before bootstrap completed"
  | alreadyInstalled => "archive gate already installed"
  | modulesAlreadyDefined => "archived modules already defined"
  | nilLoader => "archived modules need both platform and system loaders"
  | invalidMagic => "invalid magic number: expected MCDS"
  | versionMismatch => "archive version mismatch"
  | corruptHeader => "corrupt archive header"
  | corruptDirectory => "corrupt archive directory"
  | corruptRecord => "corrupt subgraph record"
  | noSubgraph => "no archived subgraph for class"
  | baseMismatch => "dynamic archive does not match base archive"
  | notArchivable => "object graph is not archivable"
  | heapInDynamic => "dynamic archives cannot carry heap objects"
  | closed => "archive is closed"
  | buildMismatch => "archive was dumped by a different build"
  | notDumping => "process is not dumping an archive"
  | noBase => "dynamic dump needs a mapped base archive"
  | packageConflict => "package already defined by another module"
  | erroneousClass => "class is in erroneous state"
  | initializerFailed => "static initializer failed"
  | classNotFound => "class not found"
  | duplicateElement => "duplicate element"
  | noSuchFile => "no such file or directory"

end FaultKind

/-! ### Causes -/

/-- What is wrong with an archive header. -/
inductive HeaderFlaw where
  | tooShort
  | magic
  | version (got : UInt32)
  | kind (got : UInt8)
  | padding
  | directoryLength (got : UInt64)
deriving DecidableEq, Inhabited

/-- What is wrong with an archive directory. -/
inductive DirectoryFlaw where
  | undecodable
  | checksum (found recorded : UInt64)
deriving DecidableEq, Inhabited

/-- What is wrong with a subgraph record. -/
inductive RecordFlaw where
  | undecodable
  | pastHeap (className : Text)
  | checksum (className : Text) (found recorded : UInt64)
  | names (className recorded : Text)
  | describesOther (className : Text)
  | unlistedClass (index : Nat) (className : Text)
  | slotCount (className : Text) (declared recorded : Nat)
  | elementsOfPlainObject (index : Nat)
  | reference (index : Int64)
  | valueTag (tag : UInt8)
deriving DecidableEq, Inhabited

/-- Why an object graph cannot be archived. -/
inductive ArchivingFlaw where
  | uninitialized (className : Text)
  | notOnBootLoader (className : Text)
  | noStaticField (className field : Text)
  | foreignReference (className loader : Text)
deriving DecidableEq, Inhabited

/-- Why the operating system refused a file operation. -/
inductive SystemReason where
  | noSuchFile | isDirectory | notDirectory | fileExists | noSpace | noSuchDevice
  | directoryNotEmpty | nameTooLong | invalidArgument
deriving DecidableEq, Inhabited

/-- The wording of the operating system. -/
def SystemReason.text : SystemReason → Text
  | noSuchFile => "no such file or directory"
  | isDirectory => "is a directory"
  | notDirectory => "not a directory"
  | fileExists => "file exists"
  | noSpace => "no space left on device"
  | noSuchDevice => "no such device"
  | directoryNotEmpty => "directory not empty"
  | nameTooLong => "file name too long"
  | invalidArgument => "invalid argument"

/-- What went wrong. -/
inductive Cause where
  | reported (text : Text)
  -- classes, objects and loaders
  | unknownLoaderKind (name : Text)
  | packageConflict (package owner newcomer : Text)
  | classDefined (name : Text)
  | noInstanceVariable (className name : Text)
  | noStaticField (className name : Text)
  | classNotFound (name : Text)
  | referencedClassNotFound (name : Text)
  | initializerPanicked (className text : Text)
  -- gates and restoration
  | notBootstrapped
  | alreadyInstalled
  | modulesAlreadyDefined
  | nilLoader
  | status (flaw : Status.Flaw)
  | undeclaredField (name : Text)
  -- archives
  | header (flaw : HeaderFlaw)
  | directory (flaw : DirectoryFlaw)
  | record (flaw : RecordFlaw)
  | archiving (flaw : ArchivingFlaw)
  | noSubgraph (className : Text)
  | noSubgraphUnmapped (className : Text)
  | heapInDynamic
  | closed
  -- files
  | system (operation path : Text) (reason : SystemReason)
  | renameRefused (source target : Text) (reason : SystemReason)
  | diskFull
  -- the library
  | duplicateElement (value : Text)
  | unhashable (tag : Text)
  | fullTable
  | integerCacheMissing
  | localeMissing (name : Text)
  | moduleGraphMissing
  | descriptorMissing (index : Nat)
  | loaderMissing (module loader : Text)
  | unknownHolder (name : Text)
  | basicType (byte : UInt8) (index : Nat) (text : Text)
  | methodType (text : Text)
  -- configuration and bootstrap
  | unparsable (path : Text)
  | unreadableEnvironment
  | unknownMode (mode : Text)
  | topRequired
  | unknownLevel (level : Text)
  | notBoolean (text : Text)
  | unknownArchiveMode (mode : Text)
  | archiveKind (path found wanted : Text)
  | baseMismatch (path : Text)
  | buildMismatch (archive running : Build)
  | notDumping
  | noBase
  | topNeeded
  | doesNotDump (mode : Text)
deriving DecidableEq, Inhabited

/-- The message of a header flaw. -/
def HeaderFlaw.message : HeaderFlaw → Text
  | tooShort => FaultKind.sentence .corruptHeader
  | magic => FaultKind.sentence .invalidMagic
  | version got => FaultKind.sentence .versionMismatch ++ ": got " ++ Text.decimal got.toNat
      ++ ", want 1"
  | kind got => FaultKind.sentence .corruptHeader ++ ": unknown kind " ++ Text.decimal got.toNat
  | padding => FaultKind.sentence .corruptHeader ++ ": non-zero padding"
  | directoryLength got => FaultKind.sentence .corruptHeader ++ ": directory length "
      ++ Text.decimal got.toNat ++ " exceeds file"

/-- The kind of a header flaw. -/
def HeaderFlaw.faultKind : HeaderFlaw → FaultKind
  | magic => .invalidMagic
  | version _ => .versionMismatch
  | _ => .corruptHeader

/-- The message of a directory flaw. -/
def DirectoryFlaw.message : DirectoryFlaw → Text
  | undecodable => FaultKind.sentence .corruptDirectory
  | checksum found recorded => FaultKind.sentence .corruptDirectory ++ ": checksum "
      ++ Text.word64 found ++ ", header says " ++ Text.word64 recorded

/-- What a record flaw says after the sentence of its kind. -/
def RecordFlaw.detail : RecordFlaw → Text
  | undecodable => Text.empty
  | pastHeap c => ": " ++ c ++ " extends past heap region"
  | checksum c found recorded => ": " ++ c ++ " checksum " ++ Text.word64 found
      ++ ", directory says " ++ Text.word64 recorded
  | names c recorded => ": record for " ++ c ++ " names " ++ recorded
  | describesOther c => ": record does not describe " ++ c
  | unlistedClass i c => ": object " ++ Text.decimal i ++ " has unlisted class " ++ c
  | slotCount c declared recorded => ": " ++ c ++ " has " ++ Text.decimal declared
      ++ " slots, archive has " ++ Text.decimal recorded
  | elementsOfPlainObject i => ": object " ++ Text.decimal i
      ++ " has elements but is not indexed"
  | reference i => ": reference " ++ Text.signedDecimal i.toInt ++ " out of range"
  | valueTag t => ": unknown value tag " ++ Text.decimal t.toNat

/-- What an archiving flaw says after the sentence of its kind. -/
def ArchivingFlaw.detail : ArchivingFlaw → Text
  | uninitialized c => c ++ " is not initialized"
  | notOnBootLoader c => c ++ " is not defined by the boot loader"
  | noStaticField c field => c ++ " has no static field " ++ field.quoted
  | foreignReference c loader => "references " ++ c ++ " from the " ++ loader ++ " loader"

namespace Cause

/-- The message of a cause. -/
def message : Cause → Text
  | reported text => text
  | unknownLoaderKind name => "unknown loader kind " ++ name.quoted
  | packageConflict package owner newcomer => FaultKind.sentence .packageConflict ++ ": "
      ++ package ++ " in " ++ owner ++ " and " ++ newcomer
  | classDefined name => "class " ++ name ++ " already defined"
  | noInstanceVariable c name => c ++ " has no instance variable " ++ name.quoted
  | noStaticField c name => c ++ " has no static field " ++ name.quoted
  | classNotFound name => FaultKind.sentence .classNotFound ++ ": " ++ name
  | referencedClassNotFound name =>
      FaultKind.sentence .classNotFound ++ ": referenced class " ++ name
  | initializerPanicked c text => FaultKind.sentence .initializerFailed ++ ": " ++ c
      ++ ": panic: " ++ text
  | notBootstrapped => FaultKind.sentence .notBootstrapped
  | alreadyInstalled => FaultKind.sentence .alreadyInstalled
  | modulesAlreadyDefined => FaultKind.sentence .modulesAlreadyDefined
  | nilLoader => FaultKind.sentence .nilLoader
  | status flaw => flaw.message
  | undeclaredField name => "archived field " ++ name.quoted ++ " is not declared"
  | header flaw => flaw.message
  | directory flaw => flaw.message
  | record flaw => FaultKind.sentence .corruptRecord ++ flaw.detail
  | archiving flaw => FaultKind.sentence .notArchivable ++ ": " ++ flaw.detail
  | noSubgraph c => FaultKind.sentence .noSubgraph ++ ": " ++ c
  | noSubgraphUnmapped c => FaultKind.sentence .noSubgraph ++ ": " ++ c ++ " (no archive mapped)"
  | heapInDynamic => FaultKind.sentence .heapInDynamic
  | closed => FaultKind.sentence .closed
  | system operation path reason => operation ++ " " ++ path ++ ": " ++ reason.text
  | renameRefused source target reason =>
      "rename " ++ source ++ " " ++ target ++ ": " ++ reason.text
  | diskFull => "disk full"
  | duplicateElement value => FaultKind.sentence .duplicateElement ++ ": " ++ value
  | unhashable tag => "cannot hash " ++ tag ++ " values"
  | fullTable => "set table is full"
  | integerCacheMissing => "integer cache is not populated"
  | localeMissing name => "locale cache has no " ++ name
  | moduleGraphMissing => "module graph is not resolved"
  | descriptorMissing i => "module descriptor " ++ Text.decimal i ++ " is nil"
  | loaderMissing module loader => "module " ++ module ++ ": no " ++ loader ++ " loader"
  | unknownHolder name => "unknown invoker holder " ++ name.quoted
  | basicType byte i text => "bad basic type " ++ Text.quotedByte byte ++ " at " ++ Text.decimal i
      ++ " in " ++ text.quoted
  | methodType text => "bad method type " ++ text.quoted
  | unparsable path => "parse error in " ++ path
  | unreadableEnvironment => "cannot read .env"
  | unknownMode mode => "archive.mode: unknown mode " ++ mode.quoted
  | topRequired => "archive.top: required for dump-dynamic"
  | unknownLevel level => "log.level: unknown level " ++ level.quoted
  | notBoolean text => "strconv.ParseBool: parsing " ++ text.quoted ++ ": invalid syntax"
  | unknownArchiveMode mode => "unknown archive mode " ++ mode.quoted
  | archiveKind path found wanted => path ++ " is a " ++ found ++ " archive, want " ++ wanted
  | baseMismatch path => FaultKind.sentence .baseMismatch ++ ": " ++ path
  | buildMismatch archive running => FaultKind.sentence .buildMismatch ++ ": archive "
      ++ archive.describe ++ ", running " ++ running.describe
  | notDumping => FaultKind.sentence .notDumping
  | noBase => FaultKind.sentence .noBase
  | topNeeded => "dynamic dump needs archive.top"
  | doesNotDump mode => "archive.mode " ++ mode.quoted
      ++ " does not dump; use -mode dump-static or dump-dynamic"

/-- The kind of a cause, for those that callers tell apart. -/
def kind? : Cause → Option FaultKind
  | packageConflict .. => some .packageConflict
  | classNotFound _ | referencedClassNotFound _ => some .classNotFound
  | initializerPanicked .. => some .initializerFailed
  | notBootstrapped => some .notBootstrapped
  | alreadyInstalled => some .alreadyInstalled
  | modulesAlreadyDefined => some .modulesAlreadyDefined
  | nilLoader => some .nilLoader
  | header flaw => some flaw.faultKind
  | directory _ => some .corruptDirectory
  | record _ => some .corruptRecord
  | archiving _ => some .notArchivable
  | noSubgraph _ | noSubgraphUnmapped _ => some .noSubgraph
  | heapInDynamic => some .heapInDynamic
  | closed => some .closed
  | system _ _ .noSuchFile | renameRefused _ _ .noSuchFile => some .noSuchFile
  | duplicateElement _ => some .duplicateElement
  | baseMismatch _ => some .baseMismatch
  | buildMismatch .. => some .buildMismatch
  | notDumping => some .notDumping
  | noBase => some .noBase
  | _ => none

end Cause

/-! ### Contexts -/

/-- What was being done when something went wrong. -/
inductive Context where
  | superclassOf (className : Text)
  | referencedClass (className : Text)
  | moduleNamed (name : Text)
  | field (name : Text)
  | mapping (path : Text)
  | validating (path : Text)
  | creatingDirectory
  | creatingArchive
  | writingArchive
  | installing (path : Text)
  | openingClassList (path : Text)
  | library
  | reading (path : Text)
  | configuration (path : Text)
  | environment (name : Text)
  | dynamicBase
  | moduleGraph
  | memoryMapping
deriving DecidableEq, Inhabited

/-- The words that stand before the message of a fault. -/
def Context.text : Context → Text
  | superclassOf c => "initializing superclass of " ++ c
  | referencedClass c => "initializing referenced class " ++ c
  | moduleNamed name => "module " ++ name
  | field name => "field " ++ name
  | mapping path => "cannot map archive " ++ path
  | validating path => "invalid archive " ++ path
  | creatingDirectory => "cannot create archive directory"
  | creatingArchive => "cannot create archive"
  | writingArchive => "cannot write archive"
  | installing path => "cannot install archive " ++ path
  | openingClassList path => "cannot open class list " ++ path
  | library => "corelib"
  | reading path => "cannot read " ++ path
  | configuration path => path
  | environment name => name
  | dynamicBase => "dynamic dump needs a base archive"
  | moduleGraph => "module graph"
  | memoryMapping => "mmap"

/-! ### Faults -/

/-- An answer that reports a failure. -/
inductive Fault where
  /-- A plain cause. -/
  | of (cause : Cause)
  /-- A fault seen from a wider context. -/
  | within (context : Context) (fault : Fault)
  /-- The static initializer of a class reported a fault. -/
  | initializerFailed (className : Text) (fault : Fault)
  /-- A class whose initialization failed before was requested again. -/
  | erroneousClass (className : Text) (fault : Fault)
  /-- Two faults of one operation. -/
  | both (first second : Fault)
deriving DecidableEq, Inhabited

instance : Coe Cause Fault := ⟨Fault.of⟩

namespace Fault

/-- The message of a fault. -/
def message : Fault → Text
  | of cause => cause.message
  | within context fault => context.text ++ ": " ++ fault.message
  | initializerFailed c fault => FaultKind.sentence .initializerFailed ++ ": " ++ c ++ ": "
      ++ fault.message
  | erroneousClass c fault => FaultKind.sentence .erroneousClass ++ ": " ++ c ++ ": "
      ++ fault.message
  | both first second => first.message ++ "\n" ++ second.message

/-- Whether a fault is of a kind or wraps one of that kind. -/
def wraps (kind : FaultKind) : Fault → Bool
  | of cause => cause.kind? = some kind
  | within _ fault => fault.wraps kind
  | initializerFailed _ fault => kind = .initializerFailed || fault.wraps kind
  | erroneousClass _ fault => kind = .erroneousClass || fault.wraps kind
  | both first second => first.wraps kind || second.wraps kind

/-- The kinds that a fault wraps, in the order in which they are reported. -/
def kinds (fault : Fault) : List FaultKind := FaultKind.all.filter fault.wraps

/-- All faults of a list as one, if there is any. -/
def join? : List Fault → Option Fault
  | [] => none
  | fault :: rest =>
    match join? rest with
    | none => some fault
    | some others => some (both fault others)

end Fault

/-! ### Panics -/

/-- A broken promise of a caller. -/
inductive Panic where
  /-- A message of the operation that was misused. -/
  | misuse (text : Text)
  /-- A fault that the caller had ruled out. -/
  | unexpected (fault : Fault)
  | indexOutOfRange (index : Int) (length : Nat)
  | sliceOutOfRange (low high : Nat)
  | lengthOutOfRange
  /-- An object was used that is not there. -/
  | missingObject
deriving DecidableEq, Inhabited

/-- The message of a panic. -/
def Panic.message : Panic → Text
  | misuse text => text
  | unexpected fault => fault.message
  | indexOutOfRange i length =>
      if i < 0 then "runtime error: index out of range [" ++ Text.signedDecimal i ++ "]"
      else "runtime error: index out of range [" ++ Text.signedDecimal i ++ "] with length "
        ++ Text.decimal length
  | sliceOutOfRange low high => "runtime error: slice bounds out of range [" ++ Text.decimal low
      ++ ":" ++ Text.decimal high ++ "]"
  | lengthOutOfRange => "runtime error: makeslice: len out of range"
  | missingObject => "runtime error: invalid memory address or nil pointer dereference"

/-- How a computation ends that has no result. -/
inductive Failure where
  | fault (fault : Fault)
  | panic (panic : Panic)
deriving DecidableEq, Inhabited

instance : Coe Fault Failure := ⟨Failure.fault⟩

instance : Coe Panic Failure := ⟨Failure.panic⟩

end ClassSharing
