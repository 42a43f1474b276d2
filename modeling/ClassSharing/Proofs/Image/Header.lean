import ClassSharing.Image.Header
import Mathlib.Algebra.Group.Nat.Defs
import Mathlib.Data.Set.Function
import Mathlib.Tactic.Common

/-!
# The header codec

A header is read at fixed offsets and written at fixed offsets, so the two directions of the codec
are one fact about each field: the bytes of the field are the word of the number read there.

## Main results

* `Image.Header.take_eq_encode`: what the reader accepts are the forty bytes that the writer writes
* `Image.Header.decode_encode`: the reader gives a valid header back, whatever follows it
-/

namespace ClassSharing

namespace Image

namespace Header

/-! ### Fields -/

/-- The bytes of a field are the word of the number in it. -/
theorem encode_field (data : Bytes) (start count : Nat) (h : start + count ≤ data.length) :
    Words.encode count (field data start count) = (data.drop start).take count := by
  have hlen : ((data.drop start).take count).length = count := by
    rw [List.length_take, List.length_drop]
    omega
  have hword := Words.encode_decode ((data.drop start).take count)
  rw [hlen] at hword
  exact hword

theorem field_lt (data : Bytes) (start count : Nat) :
    field data start count < Words.limit ((data.drop start).take count).length :=
  Words.decode_lt _

/-- A field of four bytes is a number of 32 bits. -/
theorem field_four_lt (data : Bytes) (start : Nat) (h : start + 4 ≤ data.length) :
    field data start 4 < 4294967296 := by
  have hlen : ((data.drop start).take 4).length = 4 := by
    rw [List.length_take, List.length_drop]
    omega
  have hlt := field_lt data start 4
  rw [hlen] at hlt
  exact hlt

/-- A field of eight bytes is a number of 64 bits. -/
theorem field_eight_lt (data : Bytes) (start : Nat) (h : start + 8 ≤ data.length) :
    field data start 8 < 18446744073709551616 := by
  have hlen : ((data.drop start).take 8).length = 8 := by
    rw [List.length_take, List.length_drop]
    omega
  have hlt := field_lt data start 8
  rw [hlen] at hlt
  exact hlt

/-- A field of one byte is that byte. -/
theorem toUInt8_field_one (data : Bytes) (start : Nat) (h : start + 1 ≤ data.length) :
    [(field data start 1).toUInt8] = (data.drop start).take 1 :=
  encode_field data start 1 h

/-! ### The reader after the writer -/

/-- What is left of the length, kind, version and padding checks when they have all passed. -/
theorem decode_eq_ok_iff {data : Bytes} {h : Header} :
    decode data = .ok h ↔
      headerSize ≤ data.length ∧ data.take 4 = magic ∧ h.version = formatVersion ∧
        (h.kind = staticKind ∨ h.kind = dynamicKind) ∧ (data.drop 9).take 3 = [0, 0, 0] ∧
        h = { version := (field data 4 4).toUInt32, kind := (field data 8 1).toUInt8
              flags := (field data 12 4).toUInt32
              directoryLength := (field data 16 8).toUInt64
              directoryChecksum := (field data 24 8).toUInt64
              baseChecksum := (field data 32 8).toUInt64 } := by
  rw [decode]
  constructor
  · intro hd
    split at hd
    · cases hd
    · split at hd
      · cases hd
      · simp only at hd
        split at hd
        · cases hd
        · split at hd
          · cases hd
          · split at hd
            · cases hd
            · rename_i hlen hmagic hversion hkind hpadding
              obtain rfl := Except.ok.inj hd
              refine ⟨by omega, not_not.1 hmagic, not_not.1 hversion, ?_, not_not.1 hpadding, rfl⟩
              by_contra hneither
              exact hkind (not_or.1 hneither)
  · rintro ⟨hlen, hmagic, hversion, hkind, hpadding, rfl⟩
    rw [if_neg (by omega), if_neg (not_not.2 hmagic)]
    simp only at hversion hkind ⊢
    rw [if_neg (not_not.2 hversion), if_neg (by rw [not_and_or, not_not, not_not]; exact hkind),
      if_neg (not_not.2 hpadding)]

/-- **What the reader accepts is what the writer writes.** The forty bytes of an accepted header are
the encoding of the header read. -/
theorem take_eq_encode {data : Bytes} {h : Header} (hd : decode data = .ok h) :
    data.take headerSize = h.encode := by
  obtain ⟨hlen, hmagic, -, -, hpadding, rfl⟩ := decode_eq_ok_iff.1 hd
  rw [headerSize] at hlen
  have hversion := encode_field data 4 4 (by omega)
  have hkind := toUInt8_field_one data 8 (by omega)
  have hflags := encode_field data 12 4 (by omega)
  have hlength := encode_field data 16 8 (by omega)
  have hsum := encode_field data 24 8 (by omega)
  have hbase := encode_field data 32 8 (by omega)
  have hcut : data.take headerSize
      = data.take 4 ++ (data.drop 4).take 4 ++ ((data.drop 8).take 1 ++ (data.drop 9).take 3)
        ++ (data.drop 12).take 4 ++ (data.drop 16).take 8 ++ (data.drop 24).take 8
        ++ (data.drop 32).take 8 := by
    rw [← List.append_assoc, ← List.take_add, ← List.take_add, ← List.take_add, ← List.take_add,
      ← List.take_add, ← List.take_add, ← List.take_add, headerSize]
  rw [hcut, hmagic, ← hversion, ← hkind, hpadding, ← hflags, ← hlength, ← hsum, ← hbase, encode]
  simp only [UInt32.toNat_ofNat_of_lt' (field_four_lt data 4 (by omega)),
    Nat.toUInt32, Nat.toUInt64,
    UInt32.toNat_ofNat_of_lt' (field_four_lt data 12 (by omega)),
    UInt64.toNat_ofNat_of_lt' (field_eight_lt data 16 (by omega)),
    UInt64.toNat_ofNat_of_lt' (field_eight_lt data 24 (by omega)),
    UInt64.toNat_ofNat_of_lt' (field_eight_lt data 32 (by omega))]
  rfl

/-- The version is read where it was written. -/
theorem field_version (h : Header) (rest : Bytes) :
    field (h.encode ++ rest) 4 4 = h.version.toNat :=
  (Words.decode_encode 4 _).trans (Nat.mod_eq_of_lt h.version.toNat_lt)

/-- The kind is read where it was written. -/
theorem field_kind (h : Header) (rest : Bytes) : field (h.encode ++ rest) 8 1 = h.kind.toNat :=
  Nat.add_zero _

/-- **The reader gives back what the writer wrote**, if the version and the kind are valid. Whatever
follows the header does not matter. -/
theorem decode_encode {h : Header} (hversion : h.version = formatVersion)
    (hkind : h.kind = staticKind ∨ h.kind = dynamicKind) (rest : Bytes) :
    decode (h.encode ++ rest) = .ok h := by
  -- the offsets are literals, so each field of the written bytes reduces to the word written there
  have hf : field (h.encode ++ rest) 12 4 = h.flags.toNat :=
    (Words.decode_encode 4 _).trans (Nat.mod_eq_of_lt h.flags.toNat_lt)
  have hl : field (h.encode ++ rest) 16 8 = h.directoryLength.toNat :=
    (Words.decode_encode 8 _).trans (Nat.mod_eq_of_lt h.directoryLength.toNat_lt)
  have hs : field (h.encode ++ rest) 24 8 = h.directoryChecksum.toNat :=
    (Words.decode_encode 8 _).trans (Nat.mod_eq_of_lt h.directoryChecksum.toNat_lt)
  have hb : field (h.encode ++ rest) 32 8 = h.baseChecksum.toNat :=
    (Words.decode_encode 8 _).trans (Nat.mod_eq_of_lt h.baseChecksum.toNat_lt)
  refine decode_eq_ok_iff.2 ⟨?_, rfl, hversion, hkind, rfl, ?_⟩
  · rw [List.length_append, length_encode]
    omega
  · rw [field_version, field_kind, hf, hl, hs, hb]
    simp [Nat.toUInt32, Nat.toUInt64, Nat.toUInt8]

/-- The reader accepts no other kind that the writer writes. -/
theorem kind_of_decode_encode {h h' : Header} {rest : Bytes}
    (hd : decode (h.encode ++ rest) = .ok h') : h.kind = staticKind ∨ h.kind = dynamicKind := by
  obtain ⟨-, -, -, hkind, -, rfl⟩ := decode_eq_ok_iff.1 hd
  simpa only [field_kind, Nat.toUInt8, UInt8.ofNat_toNat] using hkind

/-! ### The codec as a bijection -/

/-- A header of the present version and of one of the two kinds. The flags, the length and the two
checksums are free. -/
structure Valid (h : Header) : Prop where
  version : h.version = formatVersion
  kind : h.kind = staticKind ∨ h.kind = dynamicKind

instance (h : Header) : Decidable h.Valid :=
  decidable_of_iff (h.version = formatVersion ∧ (h.kind = staticKind ∨ h.kind = dynamicKind))
    ⟨fun hv => ⟨hv.1, hv.2⟩, fun hv => ⟨hv.version, hv.kind⟩⟩

/-- The byte strings that begin with a valid header, in terms of their bytes alone. -/
structure Acceptable (data : Bytes) : Prop where
  sized : headerSize ≤ data.length
  letters : data.take 4 = [0x4D, 0x43, 0x44, 0x53]
  version : (data.drop 4).take 4 = [1, 0, 0, 0]
  kind : (data.drop 8).take 1 = [1] ∨ (data.drop 8).take 1 = [2]
  padding : (data.drop 9).take 3 = [0, 0, 0]

/-- The refusals of the reader for what the writer writes: the version is looked at before the
kind. -/
theorem decode_encode_eq (h : Header) (rest : Bytes) :
    decode (h.encode ++ rest)
      = if h.version ≠ formatVersion then .error (.version h.version)
        else if h.kind ≠ staticKind ∧ h.kind ≠ dynamicKind then .error (.kind h.kind)
        else .ok h := by
  have hlen : ¬ (h.encode ++ rest).length < headerSize := by
    rw [List.length_append, length_encode]
    omega
  have hletters : (h.encode ++ rest).take 4 = magic := rfl
  by_cases hversion : h.version = formatVersion
  · by_cases hkind : h.kind ≠ staticKind ∧ h.kind ≠ dynamicKind
    · rw [if_neg (not_not.2 hversion), if_pos hkind, decode, if_neg hlen,
        if_neg (not_not.2 hletters)]
      simp only [field_version, field_kind, Nat.toUInt32, Nat.toUInt8, UInt32.ofNat_toNat,
        UInt8.ofNat_toNat]
      rw [if_neg (not_not.2 hversion), if_pos hkind]
    · rw [if_neg (not_not.2 hversion), if_neg hkind]
      rw [not_and_or, not_not, not_not] at hkind
      exact decode_encode hversion hkind rest
  · rw [if_pos hversion, decode, if_neg hlen, if_neg (not_not.2 hletters)]
    simp only [field_version, Nat.toUInt32, UInt32.ofNat_toNat]
    rw [if_pos hversion]

/-- The reader accepts exactly the byte strings whose first forty bytes are the encoding of a valid
header, and the header is the one that it answers. -/
theorem decode_eq_ok_iff_take {data : Bytes} {h : Header} :
    decode data = .ok h ↔ h.Valid ∧ data.take headerSize = h.encode := by
  constructor
  · intro hd
    obtain ⟨-, -, hversion, hkind, -, -⟩ := decode_eq_ok_iff.1 hd
    exact ⟨⟨hversion, hkind⟩, take_eq_encode hd⟩
  · rintro ⟨hvalid, htake⟩
    have hcut : data = h.encode ++ data.drop headerSize := by
      rw [← htake, List.take_append_drop]
    rw [hcut]
    exact decode_encode hvalid.version hvalid.kind _

/-- A byte string is acceptable exactly if the reader answers a header for it. -/
theorem acceptable_iff {data : Bytes} : Acceptable data ↔ ∃ h, decode data = .ok h := by
  constructor
  · rintro ⟨hlen, hletters, hversion, hkind, hpadding⟩
    have hv : field data 4 4 = 1 := by rw [field, hversion]; rfl
    have hk : field data 8 1 = 1 ∨ field data 8 1 = 2 := by
      refine hkind.imp ?_ ?_ <;> intro hbyte <;> rw [field, hbyte] <;> rfl
    refine ⟨_, decode_eq_ok_iff.2 ⟨hlen, hletters, ?_, ?_, hpadding, rfl⟩⟩
    · simp only [hv]
      rfl
    · refine hk.imp ?_ ?_ <;> intro hbyte <;> simp only [hbyte] <;> rfl
  · rintro ⟨h, hd⟩
    obtain ⟨hlen, hletters, hversion, hkind, hpadding, hfields⟩ := decode_eq_ok_iff.1 hd
    rw [headerSize] at hlen
    have hword : (data.drop 4).take 4 = Words.encode 4 h.version.toNat := by
      rw [← encode_field data 4 4 (by omega), hfields]
      simp only [Nat.toUInt32, UInt32.toNat_ofNat_of_lt' (field_four_lt data 4 (by omega))]
    have hbyte : (data.drop 8).take 1 = [h.kind] := by
      rw [← toUInt8_field_one data 8 (by omega), hfields]
    refine ⟨hlen, hletters, ?_, ?_, hpadding⟩
    · rw [hword, hversion]
      rfl
    · rw [hbyte]
      exact hkind.imp (fun hs => by rw [hs]; rfl) (fun hs => by rw [hs]; rfl)

/-- **The header codec is a bijection onto the valid headers.** Every header is written as forty
bytes. The reader answers the header for them, whatever follows, if it is valid, and names the
version or else the kind if it is not; and whatever it answers, for any byte string, the first forty
bytes are those of the header answered. So it accepts exactly the byte strings that have the
letters, the version, one of the kinds and zero padding in place, and among those of forty bytes
there is exactly one for each valid header. -/
theorem codec_exact :
    (∀ h : Header, h.encode.length = 40) ∧
    (∀ (h : Header) (rest : Bytes), decode (h.encode ++ rest)
      = if h.version ≠ formatVersion then .error (.version h.version)
        else if h.kind ≠ staticKind ∧ h.kind ≠ dynamicKind then .error (.kind h.kind)
        else .ok h) ∧
    (∀ (data : Bytes) (h : Header),
      decode data = .ok h ↔ h.Valid ∧ data.take headerSize = h.encode) ∧
    (∀ data : Bytes, (∃ h, decode data = .ok h) ↔ Acceptable data) ∧
    Set.BijOn encode {h | h.Valid} {data | data.length = headerSize ∧ Acceptable data} := by
  have hreads (h : Header) (hvalid : h.Valid) : decode h.encode = .ok h := by
    have := decode_encode hvalid.version hvalid.kind []
    rwa [List.append_nil] at this
  refine ⟨length_encode, decode_encode_eq, fun _ _ => decode_eq_ok_iff_take,
    fun _ => acceptable_iff.symm, ?_, ?_, ?_⟩
  · intro h hvalid
    exact ⟨length_encode h, acceptable_iff.2 ⟨h, hreads h hvalid⟩⟩
  · intro h hvalid h' hvalid' heq
    have hsame : (.ok h : Except HeaderFlaw Header) = .ok h' := by
      rw [← hreads h hvalid, ← hreads h' hvalid', heq]
    exact Except.ok.inj hsame
  · rintro data ⟨hlen, hacceptable⟩
    obtain ⟨h, hd⟩ := acceptable_iff.1 hacceptable
    obtain ⟨hvalid, htake⟩ := decode_eq_ok_iff_take.1 hd
    rw [List.take_of_length_le hlen.le] at htake
    exact ⟨h, hvalid, htake.symm⟩

end Header

end Image

end ClassSharing
