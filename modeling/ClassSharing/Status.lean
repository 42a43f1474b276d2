import ClassSharing.Text.Basic

/-!
# The status word

A process decides once, while it boots, whether it dumps an archive, whether that is a static dump,
whether it uses an archive, and whether it logs the invoker forms it generates. The four answers are
packed into the low bits of a word.

## Main definitions

* `Status`: the word, with a predicate for each flag
* `Status.describe`: the set flags by name
* `Status.flaw?`: what is wrong with a word that no process may have
-/

namespace ClassSharing

/-- The packed archive status of a process. -/
structure Status where
  bits : UInt32
deriving DecidableEq, Inhabited

namespace Status

/-- No flag set. -/
def none : Status := ⟨0⟩

/-- The process dumps an archive. -/
def dumpingFlag : UInt32 := 1

/-- The archive that is dumped is a static one. -/
def staticFlag : UInt32 := 2

/-- The process uses an archive. -/
def usingFlag : UInt32 := 4

/-- The process logs generated invoker forms. -/
def loggingFlag : UInt32 := 8

/-- All flags that have a meaning. -/
def knownBits : UInt32 := 15

/-- Whether the process dumps an archive. -/
def isDumping (s : Status) : Bool := s.bits &&& dumpingFlag != 0

/-- Whether the process dumps a static archive. -/
def isDumpingStatic (s : Status) : Bool := s.bits &&& staticFlag != 0

/-- Whether the process dumps an archive that is not static. -/
def isDumpingDynamic (s : Status) : Bool := s.isDumping && !s.isDumpingStatic

/-- Whether the process uses an archive. -/
def isUsing (s : Status) : Bool := s.bits &&& usingFlag != 0

/-- Whether the process logs generated invoker forms. -/
def isLogging (s : Status) : Bool := s.bits &&& loggingFlag != 0

/-- The bits without a meaning. -/
def unknownBits (s : Status) : UInt32 := s.bits &&& ~~~knownBits

/-- The status with more flags set. -/
def set (s : Status) (flags : UInt32) : Status := ⟨s.bits ||| flags⟩

/-- The status with flags set if a condition holds. -/
def setIf (s : Status) (condition : Bool) (flags : UInt32) : Status :=
  if condition then s.set flags else s

/-- The names of the set flags, joined by bars. -/
def describe (s : Status) : Text :=
  if s.bits = 0 then "none"
  else
    let named : List (Bool × Text) :=
      [(s.isDumping, "dump"), (s.isDumpingStatic, "static"), (s.isUsing, "use"),
        (s.isLogging, "log-lambda-forms"),
        (s.unknownBits != 0, "0x" ++ Text.hexadecimal s.unknownBits.toNat)]
    Text.join "|" ((named.filter Prod.fst).map Prod.snd)

/-- What can be wrong with a status word. -/
inductive Flaw where
  /-- Bits without a meaning are set. -/
  | unknownBits (bits : UInt32)
  /-- A static dump is announced, but no dump. -/
  | staticWithoutDump (status : Status)
deriving DecidableEq, Inhabited

/-- The message of a flaw. -/
def Flaw.message : Flaw → Text
  | unknownBits bits => "unknown status bits 0x" ++ Text.hexadecimal bits.toNat
  | staticWithoutDump status => "status " ++ status.describe ++ ": static dump without dump"

/-- The first flaw of a status word, if it has one. -/
def flaw? (s : Status) : Option Flaw :=
  if s.unknownBits != 0 then some (.unknownBits s.unknownBits)
  else if s.isDumpingStatic && !s.isDumping then some (.staticWithoutDump s)
  else Option.none

end Status

end ClassSharing
