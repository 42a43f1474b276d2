import ClassSharing.Checksum

/-!
# Build identities

An archive may only be used by the build that dumped it. A build is identified by a release, a
debug level, a free description and a major version, and its *dump seed* is a hash of the four.

## Main definitions

* `Build`: the identity, and its one-line description `Build.describe`
* `Build.dumpSeed`: the seed that makes dumps of one build reproducible; never zero

## Main results

* `Build.dumpSeed_ne_zero`: a dumping process never reports the seed zero, which means "no dump"
-/

namespace ClassSharing

/-- The identity of the build that produced an archive. -/
structure Build where
  release : Text
  debugLevel : Text
  vmInfo : Text
  major : Int64
deriving DecidableEq, Inhabited

namespace Build

/-- The build on one line. -/
def describe (b : Build) : Text :=
  b.release ++ "-" ++ b.debugLevel ++ " (" ++ b.vmInfo ++ ") major "
    ++ Text.signedDecimal b.major.toInt

/-- The bytes that the seed is a hash of: the four parts, each closed by a zero byte. -/
def seedInput (b : Build) : Bytes :=
  [b.release, b.debugLevel, b.vmInfo, Text.signedDecimal b.major.toInt].flatMap
    fun part => part.bytes ++ [0]

/-- The seed that stands in for a hash of zero. -/
def fallbackSeed : Int64 := 0x87654321

/-- The seed for dumps of this build. -/
def dumpSeed (b : Build) : Int64 :=
  let seed := (Checksum.sum b.seedInput).toInt64
  if seed = 0 then fallbackSeed else seed

theorem dumpSeed_ne_zero (b : Build) : b.dumpSeed ≠ 0 := by
  unfold dumpSeed
  simp only
  split
  · decide
  · assumption

end Build

end ClassSharing
