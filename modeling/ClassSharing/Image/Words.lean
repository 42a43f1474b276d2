import ClassSharing.Text.Basic

/-!
# Little-endian words

## Main definitions

* `Words.encode`: a number as a fixed count of bytes, lowest first
* `Words.decode`: the number of a list of bytes, lowest first
* `Words.limit`: the least number that does not fit in a count of bytes

## Main results

* `Words.decode_encode`, `Words.encode_decode`: the two are inverse to each other
-/

namespace ClassSharing

namespace Words

/-- The lowest `count` bytes of a number, lowest first. -/
def encode : (count n : Nat) → Bytes
  | 0, _ => []
  | count + 1, n => n.toUInt8 :: encode count (n / 256)

/-- The number of a list of bytes, lowest first. -/
def decode : Bytes → Nat
  | [] => 0
  | b :: rest => b.toNat + 256 * decode rest

/-- The least number that does not fit in a count of bytes. -/
def limit : (count : Nat) → Nat
  | 0 => 1
  | count + 1 => 256 * limit count

@[simp] theorem length_encode (count n : Nat) : (encode count n).length = count := by
  induction count generalizing n with
  | zero => rfl
  | succ count ih => simp [encode, ih]

theorem decode_lt (bs : Bytes) : decode bs < limit bs.length := by
  induction bs with
  | nil => decide
  | cons b rest ih =>
    have := b.toNat_lt
    simp only [decode, List.length_cons, limit]
    omega

/-- Reading what was written gives the part of the number that fits. -/
theorem decode_encode (count n : Nat) : decode (encode count n) = n % limit count := by
  induction count generalizing n with
  | zero => simp [encode, decode, limit, Nat.mod_one]
  | succ count ih =>
    simp only [encode, decode, ih, limit]
    rw [Nat.mod_mul]
    simp [Nat.toUInt8]

/-- Writing what was read gives the bytes back. -/
theorem encode_decode (bs : Bytes) : encode bs.length (decode bs) = bs := by
  induction bs with
  | nil => rfl
  | cons b rest ih =>
    have hb := b.toNat_lt
    have hdiv : (b.toNat + 256 * decode rest) / 256 = decode rest := by omega
    have hmod : (b.toNat + 256 * decode rest).toUInt8 = b := by
      apply UInt8.toNat_inj.1
      simp only [Nat.toUInt8, UInt8.toNat_ofNat']
      omega
    simp only [decode, List.length_cons, encode, hdiv, hmod, ih]

end Words

end ClassSharing
