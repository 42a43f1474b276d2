import ClassSharing.Cbor.Reader
import Mathlib.Algebra.Group.Nat.Defs
import Mathlib.Tactic.Common

/-!
# Reading canonical items back

The reader accepts many spellings of an item, the encoder writes one of them. Reading that one back
gives the item, if the item is one that the reader can represent and is willing to read: a text in
one chunk, lists within the limit, and nesting within the depth that is left.

What a list needs is stated member by member, so an induction over `Item.Fits` has the hypothesis
for each member and the reader of a list is a lemma about the reader of its members.

## Main definitions

* `Cbor.Item.Fits`: the items that are read back, with the nesting that is left

## Main results

* `Cbor.readHead_head`: the initial bytes of an item
* `Cbor.readItem_encode`: an item followed by anything
* `Cbor.parse_encode`: an item alone
-/

namespace ClassSharing

namespace Cbor

/-! ### Numbers -/

@[simp] theorem length_bigEndian (count n : Nat) : (bigEndian count n).length = count := by
  induction count generalizing n with
  | zero => rfl
  | succ count ih => rw [bigEndian, List.length_append, ih, List.length_singleton]

theorem fromBigEndian_concat (bs : Bytes) (b : UInt8) :
    fromBigEndian (bs ++ [b]) = fromBigEndian bs * 256 + b.toNat := by
  rw [fromBigEndian, List.foldl_append]
  rfl

/-- Reading what was written gives the part of the number that fits. -/
theorem fromBigEndian_bigEndian (count n : Nat) :
    fromBigEndian (bigEndian count n) = n % 256 ^ count := by
  induction count generalizing n with
  | zero => rw [bigEndian, Nat.pow_zero, Nat.mod_one]; rfl
  | succ count ih =>
    have hlow : n.toUInt8.toNat = n % 256 := UInt8.toNat_ofNat'
    rw [bigEndian, fromBigEndian_concat, ih, hlow, Nat.pow_succ, Nat.mul_comm (256 ^ count),
      Nat.mod_mul]
    omega

theorem take?_append {front rest : Bytes} {count : Nat} (h : front.length = count) :
    take? count (front ++ rest) = some (front, rest) := by
  rw [take?, List.take_left' h, List.drop_left' h]
  simp [h]

/-- A head whose number is in its first byte. -/
theorem readHead_small {b : UInt8} {major n : Nat} (rest : Bytes) (hb : b.toNat = major * 32 + n)
    (hn : n < 24) : readHead (b :: rest) = some (⟨major, false, n, n⟩, rest) := by
  have hdiv : (major * 32 + n) / 32 = major := by omega
  have hmod : (major * 32 + n) % 32 = n := by omega
  rw [readHead]
  simp only [hb, hdiv, hmod]
  rw [if_pos hn]

/-- A head whose number follows in a fixed count of bytes. -/
theorem readHead_bigEndian {major info n : Nat} (rest : Bytes) (hmajor : major < 7)
    (hlow : 24 ≤ info) (hhigh : info < 28) (hn : n < 256 ^ argumentWidth info) :
    readHead ((major * 32 + info).toUInt8 :: bigEndian (argumentWidth info) n ++ rest)
      = some (⟨major, false, info, n⟩, rest) := by
  have hb : (major * 32 + info).toUInt8.toNat = major * 32 + info :=
    UInt8.toNat_ofNat_of_lt' (by simp only [UInt8.size]; omega)
  have hdiv : (major * 32 + info) / 32 = major := by omega
  have hmod : (major * 32 + info) % 32 = info := by omega
  rw [List.cons_append, readHead]
  simp only [hb, hdiv, hmod, take?_append (length_bigEndian _ _), fromBigEndian_bigEndian,
    Nat.mod_eq_of_lt hn]
  rw [if_neg (by omega), if_pos hhigh, if_neg (by omega)]

/-- **Reading a head.** Whatever the size of the number, the reader finds it and the major type, and
no indefinite length. -/
theorem readHead_head (major : Nat) {n : Nat} (rest : Bytes) (hmajor : major < 7)
    (hn : n < 2 ^ 64) :
    ∃ info, readHead (head major n ++ rest) = some (⟨major, false, info, n⟩, rest) := by
  rw [head]
  split
  · rename_i hsmall
    have hb : (major * 32 + n).toUInt8.toNat = major * 32 + n :=
      UInt8.toNat_ofNat_of_lt' (by simp only [UInt8.size]; omega)
    exact ⟨n, readHead_small rest hb hsmall⟩
  · split
    · rename_i hone
      exact ⟨24, readHead_bigEndian rest hmajor (by omega) (by omega) hone⟩
    · split
      · rename_i htwo
        exact ⟨25, readHead_bigEndian rest hmajor (by omega) (by omega) htwo⟩
      · split
        · rename_i hfour
          exact ⟨26, readHead_bigEndian rest hmajor (by omega) (by omega) hfour⟩
        · exact ⟨27, readHead_bigEndian rest hmajor (by omega) (by omega) hn⟩

theorem one_le_length_head (major n : Nat) : 1 ≤ (head major n).length := by
  rw [head]
  split
  · simp
  · split
    · simp
    · split
      · simp
      · split <;> simp

/-! ### Items -/

/-- The items that are read back from their canonical encoding, with the number of arrays and maps
that may still be opened inside each other. -/
inductive Item.Fits : (room : Nat) → Item → Prop where
  | uint (room : Nat) (n : UInt64) : Fits room (.uint n)
  | nint (room : Nat) (n : UInt64) : Fits room (.nint n)
  /-- A text in one chunk. -/
  | text (room : Nat) {contents : Bytes} (sized : contents.length < 2 ^ 64) :
      Fits room (.text [contents])
  /-- A simple value that its head holds. -/
  | simple (room : Nat) {number : UInt8} (small : number < 24) : Fits room (.simple number)
  | array {room : Nat} {items : List Item} (limited : items.length ≤ maxLength)
      (members : ∀ item ∈ items, Fits room item) : Fits (room + 1) (.array items)
  | map {room : Nat} {items : List Item} (paired : items.length % 2 = 0)
      (limited : items.length / 2 ≤ maxLength) (members : ∀ item ∈ items, Fits room item) :
      Fits (room + 1) (.map items)

/-- More room does no harm. -/
theorem Item.Fits.mono {room room' : Nat} {item : Item} (h : item.Fits room)
    (hroom : room ≤ room') : item.Fits room' := by
  induction h generalizing room' with
  | uint _ n => exact .uint _ n
  | nint _ n => exact .nint _ n
  | text _ sized => exact .text _ sized
  | simple _ small => exact .simple _ small
  | array limited members ih =>
    obtain ⟨room', rfl⟩ : ∃ r, room' = r + 1 := ⟨room' - 1, by omega⟩
    exact .array limited fun item hi => ih item hi (by omega)
  | map paired limited members ih =>
    obtain ⟨room', rfl⟩ : ∃ r, room' = r + 1 := ⟨room' - 1, by omega⟩
    exact .map paired limited fun item hi => ih item hi (by omega)

theorem length_le_length_encodeAll {item : Item} {items : List Item} (h : item ∈ items) :
    item.encode.length ≤ (encodeAll items).length := by
  induction items with
  | nil => cases h
  | cons first rest ih =>
    rw [encodeAll, List.length_append]
    rcases List.mem_cons.1 h with rfl | h
    · omega
    · have := ih h
      omega

/-- A reader that reads each of some items back reads all of them back, one after another. -/
theorem readMany_encodeAll {read : Bytes → Option (Item × Bytes)} {items : List Item}
    (hread : ∀ item ∈ items, ∀ rest, read (item.encode ++ rest) = some (item, rest))
    (rest : Bytes) : readMany read items.length (encodeAll items ++ rest) = some (items, rest) := by
  induction items with
  | nil => rfl
  | cons first items ih =>
    have hfirst := hread first List.mem_cons_self (encodeAll items ++ rest)
    have hitems := ih fun item hi => hread item (List.mem_cons_of_mem _ hi)
    rw [List.length_cons, readMany, encodeAll, List.append_assoc, hfirst]
    simp only [hitems]

theorem one_le_length_encode (item : Item) : 1 ≤ item.encode.length := by
  cases item with
  | simple number => rw [Item.encode, encodeSimple]; split <;> simp
  | float contents => simp [Item.encode]
  | uint n => exact one_le_length_head 0 n.toNat
  | nint n => exact one_le_length_head 1 n.toNat
  | _ =>
    simp only [Item.encode, List.length_append]
    exact Nat.le_add_right_of_le (one_le_length_head _ _)

/-- Fuel enough for an item is not used up before it is read. -/
theorem exists_succ_of_length_encode_le {item : Item} {fuel : Nat}
    (h : item.encode.length ≤ fuel) : ∃ f, fuel = f + 1 := by
  have := one_le_length_encode item
  exact ⟨fuel - 1, by omega⟩

/-- The members behind a head, where each is read back with one unit of fuel less than there is for
the whole: the head has taken a byte. -/
theorem readMany_members {major n fuel depth : Nat} {items : List Item}
    (hfuel : (head major n ++ encodeAll items).length ≤ fuel + 1)
    (hread : ∀ item ∈ items, item.encode.length ≤ fuel → ∀ rest,
      readItem fuel depth false (item.encode ++ rest) = some (item, rest)) (rest : Bytes) :
    readMany (readItem fuel depth false) items.length (encodeAll items ++ rest)
      = some (items, rest) := by
  have hone := one_le_length_head major n
  rw [List.length_append] at hfuel
  refine readMany_encodeAll (fun item hi rest => hread item hi ?_ rest) rest
  have := length_le_length_encodeAll hi
  omega

/-- **Reading an item.** The fuel that is needed is the length of the encoding: every array and map
takes a byte for its head before its members are read with one unit less. -/
theorem readItem_encode {room : Nat} {item : Item} (h : item.Fits room) {fuel depth : Nat}
    (hfuel : item.encode.length ≤ fuel) (hdepth : depth + room ≤ maxDepth) (rest : Bytes) :
    readItem fuel depth false (item.encode ++ rest) = some (item, rest) := by
  induction h generalizing fuel depth rest with
  | uint _ n =>
    obtain ⟨info, hhead⟩ := readHead_head 0 rest (by omega) n.toNat_lt
    obtain ⟨fuel, rfl⟩ := exists_succ_of_length_encode_le hfuel
    rw [Item.encode, readItem, hhead]
    simp
  | nint _ n =>
    obtain ⟨info, hhead⟩ := readHead_head 1 rest (by omega) n.toNat_lt
    obtain ⟨fuel, rfl⟩ := exists_succ_of_length_encode_le hfuel
    rw [Item.encode, readItem, hhead]
    simp
  | @text _ contents sized =>
    obtain ⟨info, hhead⟩ := readHead_head 3 (contents ++ rest) (by omega) sized
    obtain ⟨fuel, rfl⟩ := exists_succ_of_length_encode_le hfuel
    rw [Item.encode, List.flatten_singleton, List.append_assoc, readItem, hhead]
    simp only [readString, take?_append]
    simp
  | @simple _ number small =>
    obtain ⟨fuel, rfl⟩ := exists_succ_of_length_encode_le hfuel
    have hlt : number.toNat < 24 := small
    have hb : (0xE0 + number).toNat = 7 * 32 + number.toNat := by
      rw [UInt8.toNat_add]
      simp only [UInt8.reduceToNat]
      omega
    rw [Item.encode, encodeSimple, if_pos small, List.singleton_append, readItem,
      readHead_small rest hb hlt]
    simp only [readPrimitive]
    rw [if_pos (by omega)]
    simp
  | @array _ items limited members ih =>
    have hlength : items.length < 2 ^ 64 := by
      rw [maxLength] at limited
      omega
    obtain ⟨info, hhead⟩ := readHead_head 4 (encodeAll items ++ rest) (by omega) hlength
    obtain ⟨fuel, rfl⟩ := exists_succ_of_length_encode_le hfuel
    rw [Item.encode] at hfuel
    have hmember : ∀ item ∈ items, item.encode.length ≤ fuel → ∀ rest,
        readItem fuel (depth + 1) false (item.encode ++ rest) = some (item, rest) :=
      fun item hi hfuel rest => ih item hi hfuel (by omega) rest
    have hmany := readMany_members hfuel hmember rest
    rw [Item.encode, List.append_assoc, readItem, hhead]
    simp only [readArray, hmany]
    rw [if_pos (by omega), if_neg (by simp), if_pos limited]
    rfl
  | @map _ items paired limited members ih =>
    have hlength : items.length / 2 < 2 ^ 64 := by
      rw [maxLength] at limited
      omega
    obtain ⟨info, hhead⟩ := readHead_head 5 (encodeAll items ++ rest) (by omega) hlength
    obtain ⟨fuel, rfl⟩ := exists_succ_of_length_encode_le hfuel
    rw [Item.encode] at hfuel
    have hmember : ∀ item ∈ items, item.encode.length ≤ fuel → ∀ rest,
        readItem fuel (depth + 1) false (item.encode ++ rest) = some (item, rest) :=
      fun item hi hfuel rest => ih item hi hfuel (by omega) rest
    have hmany := readMany_members hfuel hmember rest
    have hcount : 2 * (items.length / 2) = items.length := by omega
    rw [Item.encode, List.append_assoc, readItem, hhead]
    simp only [readMap, hcount, hmany]
    rw [if_pos (by omega), if_neg (by simp), if_pos limited]
    rfl

/-- **Reading an item alone.** -/
theorem parse_encode {item : Item} (h : item.Fits maxDepth) : parse item.encode = some item := by
  have hread := readItem_encode h (Nat.le_refl _) (Nat.le_of_eq (Nat.zero_add _)) []
  rw [List.append_nil] at hread
  rw [parse, hread]

end Cbor

end ClassSharing
