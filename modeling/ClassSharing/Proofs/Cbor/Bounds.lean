import ClassSharing.Cbor.Reader
import Mathlib.Algebra.Group.Nat.Defs
import Mathlib.Tactic.Common

/-!
# What is read is bounded

An item may be spelled in many ways: lengths in front or breaks behind, numbers in more bytes than
needed, texts in chunks, tags around anything. What all spellings have in common is that every byte
of a text was a byte of the input and that arrays and maps are within the limit, whether they were
counted in front or only after their break.

The bound on the texts is one number for the whole input. A bound on the bytes of the item itself
would be finer, but it changes from member to member, and the induction would have to carry a sum.

## Main definitions

* `Cbor.Item.Bounded`: texts no longer than a size, arrays and maps within the limit
* `Cbor.Bounding`: readers of such items that never give back more bytes than they were given

## Main results

* `Cbor.bounding_readItem`: the reader of items is such a reader, with any fuel at any depth
* `Cbor.bounded_of_parse`: an item is bounded by the bytes that it was parsed from
-/

namespace ClassSharing

namespace Cbor

/-- The items whose texts are no longer than a size and whose arrays and maps are within the limit,
all the way down. -/
inductive Item.Bounded (size : Nat) : Item → Prop where
  | uint (n : UInt64) : Bounded size (.uint n)
  | nint (n : UInt64) : Bounded size (.nint n)
  | bytes (contents : Bytes) : Bounded size (.bytes contents)
  | text {chunks : List Bytes} (sized : chunks.flatten.length ≤ size) : Bounded size (.text chunks)
  | array {items : List Item} (limited : items.length ≤ maxLength)
      (members : ∀ item ∈ items, Bounded size item) : Bounded size (.array items)
  | map {items : List Item} (limited : items.length ≤ 2 * maxLength)
      (members : ∀ item ∈ items, Bounded size item) : Bounded size (.map items)
  | tag (number : UInt64) {item : Item} (inner : Bounded size item) :
      Bounded size (.tag number item)
  | simple (number : UInt8) : Bounded size (.simple number)
  | float (contents : Bytes) : Bounded size (.float contents)

/-! ### Heads and strings -/

theorem length_of_take? {count : Nat} {bs front rest : Bytes}
    (h : take? count bs = some (front, rest)) : front.length + rest.length = bs.length := by
  rw [take?] at h
  simp only [Option.ite_none_right_eq_some, Option.some.injEq, Prod.mk.injEq] at h
  obtain ⟨-, rfl, rfl⟩ := h
  rw [← List.length_append, List.take_append_drop]

theorem length_le_of_readHead {bs rest : Bytes} {head : Head}
    (h : readHead bs = some (head, rest)) : rest.length ≤ bs.length := by
  cases bs with
  | nil => cases h
  | cons b tail =>
    rw [readHead] at h
    simp only at h
    split_ifs at h with hshort hlong hbreak
    · obtain rfl := congrArg Prod.snd (Option.some.inj h)
      exact Nat.le_succ _
    · cases htake : take? (argumentWidth (b.toNat % 32)) tail with
      | none =>
        rw [htake] at h
        cases h
      | some found =>
        obtain ⟨front, after⟩ := found
        rw [htake] at h
        simp only [Option.ite_none_left_eq_some, Option.some.injEq, Prod.mk.injEq] at h
        obtain ⟨-, -, rfl⟩ := h
        have hsum := length_of_take? htake
        rw [List.length_cons]
        omega
    · obtain rfl := congrArg Prod.snd (Option.some.inj h)
      exact Nat.le_succ _

/-- The chunks of a string and what is left behind its break are bytes of the input. -/
theorem length_of_readChunks {major fuel : Nat} {bs rest : Bytes} {chunks : List Bytes}
    (h : readChunks major fuel bs = some (chunks, rest)) :
    chunks.flatten.length + rest.length ≤ bs.length := by
  induction fuel generalizing bs chunks with
  | zero => cases h
  | succ fuel ih =>
    cases bs with
    | nil => cases h
    | cons b tail =>
      rw [readChunks] at h
      split at h
      · obtain ⟨rfl, rfl⟩ := Prod.mk.inj (Option.some.inj h)
        simp
      · split at h
        · cases h
        · rename_i head afterHead hhead
          split at h
          · cases h
          · split at h
            · cases h
            · rename_i chunk afterChunk htake
              split at h
              · cases h
              · rename_i others last hothers
                obtain ⟨rfl, rfl⟩ := Prod.mk.inj (Option.some.inj h)
                have hstart := length_le_of_readHead hhead
                have hchunk := length_of_take? htake
                have hlater := ih hothers
                rw [List.flatten_cons, List.length_append]
                omega

theorem length_of_readString {head : Head} {bs rest : Bytes} {chunks : List Bytes}
    (h : readString head bs = some (chunks, rest)) :
    chunks.flatten.length + rest.length ≤ bs.length := by
  rw [readString] at h
  split at h
  · exact length_of_readChunks h
  · obtain ⟨⟨front, after⟩, htake, heq⟩ := Option.map_eq_some_iff.1 h
    obtain ⟨rfl, rfl⟩ := Prod.mk.inj heq
    have hsum := length_of_take? htake
    rw [List.flatten_singleton]
    omega

/-! ### Readers of items -/

/-- The readers that answer bounded items, and leave no more bytes than they were given, for every
input up to a size. -/
def Bounding (size : Nat) (read : Bytes → Option (Item × Bytes)) : Prop :=
  ∀ {bs rest : Bytes} {item : Item}, bs.length ≤ size → read bs = some (item, rest) →
    item.Bounded size ∧ rest.length ≤ bs.length

section Lists

variable {size : Nat} {read : Bytes → Option (Item × Bytes)} {bs rest : Bytes} {items : List Item}

theorem bounded_of_readMany (hread : Bounding size read) {count : Nat} (hsize : bs.length ≤ size)
    (h : readMany read count bs = some (items, rest)) :
    (∀ item ∈ items, item.Bounded size) ∧ items.length = count ∧ rest.length ≤ bs.length := by
  induction count generalizing bs items with
  | zero =>
    obtain ⟨rfl, rfl⟩ := Prod.mk.inj (Option.some.inj h)
    exact ⟨by simp, rfl, Nat.le_refl _⟩
  | succ count ih =>
    rw [readMany] at h
    split at h
    · cases h
    · rename_i first afterFirst hfirst
      split at h
      · cases h
      · rename_i others last hothers
        obtain ⟨rfl, rfl⟩ := Prod.mk.inj (Option.some.inj h)
        obtain ⟨hbounded, hshorter⟩ := hread hsize hfirst
        obtain ⟨hmembers, hcount, hlast⟩ := ih (Nat.le_trans hshorter hsize) hothers
        exact ⟨List.forall_mem_cons.2 ⟨hbounded, hmembers⟩, by rw [List.length_cons, hcount],
          Nat.le_trans hlast hshorter⟩

theorem bounded_of_readUntilBreak (hread : Bounding size read) {fuel : Nat}
    (hsize : bs.length ≤ size) (h : readUntilBreak read fuel bs = some (items, rest)) :
    (∀ item ∈ items, item.Bounded size) ∧ rest.length ≤ bs.length := by
  induction fuel generalizing bs items with
  | zero => cases h
  | succ fuel ih =>
    cases bs with
    | nil => cases h
    | cons b tail =>
      rw [readUntilBreak] at h
      split at h
      · obtain ⟨rfl, rfl⟩ := Prod.mk.inj (Option.some.inj h)
        exact ⟨by simp, Nat.le_succ _⟩
      · split at h
        · cases h
        · rename_i first afterFirst hfirst
          split at h
          · cases h
          · rename_i others last hothers
            obtain ⟨rfl, rfl⟩ := Prod.mk.inj (Option.some.inj h)
            obtain ⟨hbounded, hshorter⟩ := hread hsize hfirst
            obtain ⟨hmembers, hlast⟩ := ih (Nat.le_trans hshorter hsize) hothers
            exact ⟨List.forall_mem_cons.2 ⟨hbounded, hmembers⟩, Nat.le_trans hlast hshorter⟩

/-- An array is within the limit, whether its length stood in front or was counted afterwards. -/
theorem bounded_of_readArray (hread : Bounding size read) {head : Head} (hsize : bs.length ≤ size)
    (h : readArray read head bs = some (items, rest)) :
    (Item.array items).Bounded size ∧ rest.length ≤ bs.length := by
  rw [readArray] at h
  split at h
  · split at h
    · cases h
    · rename_i found last hfound
      split at h
      · rename_i hlimit
        obtain ⟨rfl, rfl⟩ := Prod.mk.inj (Option.some.inj h)
        obtain ⟨hmembers, hlast⟩ := bounded_of_readUntilBreak hread hsize hfound
        exact ⟨.array hlimit hmembers, hlast⟩
      · cases h
  · split at h
    · rename_i hlimit
      obtain ⟨hmembers, hcount, hlast⟩ := bounded_of_readMany hread hsize h
      exact ⟨.array (by omega) hmembers, hlast⟩
    · cases h

theorem bounded_of_readMap (hread : Bounding size read) {head : Head} (hsize : bs.length ≤ size)
    (h : readMap read head bs = some (items, rest)) :
    (Item.map items).Bounded size ∧ rest.length ≤ bs.length := by
  rw [readMap] at h
  split at h
  · split at h
    · cases h
    · rename_i found last hfound
      split at h
      · rename_i hlimit
        obtain ⟨rfl, rfl⟩ := Prod.mk.inj (Option.some.inj h)
        obtain ⟨hmembers, hlast⟩ := bounded_of_readUntilBreak hread hsize hfound
        exact ⟨.map (by omega) hmembers, hlast⟩
      · cases h
  · split at h
    · rename_i hlimit
      obtain ⟨hmembers, hcount, hlast⟩ := bounded_of_readMany hread hsize h
      have hlimited : items.length ≤ 2 * maxLength := by omega
      exact ⟨.map hlimited hmembers, hlast⟩
    · cases h

end Lists

theorem bounded_readPrimitive (size : Nat) (head : Head) : (readPrimitive head).Bounded size := by
  rw [readPrimitive]
  split
  · exact .simple _
  · exact .float _

/-- **What is read is bounded**, with any fuel and at any depth. -/
theorem bounding_readItem (size fuel depth : Nat) (tagged : Bool) :
    Bounding size (readItem fuel depth tagged) := by
  induction fuel generalizing depth tagged with
  | zero =>
    intro bs rest item _ h
    cases h
  | succ fuel ih =>
    intro bs rest item hsize h
    rw [readItem] at h
    split at h
    · cases h
    · rename_i head afterHead hhead
      have hshorter := length_le_of_readHead hhead
      have hleft := Nat.le_trans hshorter hsize
      -- one case for each major type
      split at h
      · obtain ⟨rfl, rfl⟩ := Prod.mk.inj (Option.some.inj h)
        exact ⟨.uint _, hshorter⟩
      · obtain ⟨rfl, rfl⟩ := Prod.mk.inj (Option.some.inj h)
        exact ⟨.nint _, hshorter⟩
      · obtain ⟨⟨chunks, last⟩, hstring, heq⟩ := Option.map_eq_some_iff.1 h
        obtain ⟨rfl, rfl⟩ := Prod.mk.inj heq
        have hlength := length_of_readString hstring
        exact ⟨.bytes _, by omega⟩
      · obtain ⟨⟨chunks, last⟩, hstring, heq⟩ := Option.map_eq_some_iff.1 h
        obtain ⟨rfl, rfl⟩ := Prod.mk.inj heq
        have hlength := length_of_readString hstring
        exact ⟨.text (by omega), by omega⟩
      · obtain ⟨-, hmap⟩ := Option.ite_none_right_eq_some.1 h
        obtain ⟨⟨items, last⟩, hitems, heq⟩ := Option.map_eq_some_iff.1 hmap
        obtain ⟨rfl, rfl⟩ := Prod.mk.inj heq
        obtain ⟨hbounded, hlast⟩ := bounded_of_readArray (ih (depth + 1) false) hleft hitems
        exact ⟨hbounded, Nat.le_trans hlast hshorter⟩
      · obtain ⟨-, hmap⟩ := Option.ite_none_right_eq_some.1 h
        obtain ⟨⟨items, last⟩, hitems, heq⟩ := Option.map_eq_some_iff.1 hmap
        obtain ⟨rfl, rfl⟩ := Prod.mk.inj heq
        obtain ⟨hbounded, hlast⟩ := bounded_of_readMap (ih (depth + 1) false) hleft hitems
        exact ⟨hbounded, Nat.le_trans hlast hshorter⟩
      · obtain ⟨-, hmap⟩ := Option.ite_none_left_eq_some.1 h
        obtain ⟨⟨inner, last⟩, hinner, heq⟩ := Option.map_eq_some_iff.1 hmap
        obtain ⟨rfl, rfl⟩ := Prod.mk.inj heq
        obtain ⟨hbounded, hlast⟩ := ih _ true hleft hinner
        exact ⟨.tag _ hbounded, Nat.le_trans hlast hshorter⟩
      · obtain ⟨rfl, rfl⟩ := Prod.mk.inj (Option.some.inj h)
        exact ⟨bounded_readPrimitive size head, hshorter⟩

/-- An item is bounded by the bytes that it was parsed from. -/
theorem bounded_of_parse {bs : Bytes} {item : Item} (h : parse bs = some item) :
    item.Bounded bs.length := by
  rw [parse] at h
  split at h
  · rename_i found hfound
    obtain rfl := Option.some.inj h
    exact (bounding_readItem bs.length bs.length 0 false (Nat.le_refl _) hfound).1
  · cases h

end Cbor

end ClassSharing
