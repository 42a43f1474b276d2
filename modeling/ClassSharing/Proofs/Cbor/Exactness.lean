import ClassSharing.Proofs.Cbor.RoundTrip

/-!
# Only what fits is read back

An item that fits is read back from its canonical encoding. Here is the converse, for the items that
records are made of: the encoder writes such an item whatever its size and nesting, but if the
reader accepts what was written, then the item fits. So the reader never takes the encoding of one
item for another one.

The fuel of the reader is never the reason for a refusal, since it starts as the length of the
input.

## Main definitions

* `Cbor.Item.Plain`: the items that records are made of

## Main results

* `Cbor.fits_of_readItem_encode`: an item that is accepted fits
* `Cbor.parse_encode_eq_some_iff`: when an encoding is accepted, and as what
-/

namespace ClassSharing

namespace Cbor

/-- The items that records are made of: numbers, texts in one chunk, small simple values, and arrays
and maps of such items. Neither sizes nor nesting are bounded. -/
inductive Item.Plain : Item → Prop where
  | uint (n : UInt64) : Plain (.uint n)
  | nint (n : UInt64) : Plain (.nint n)
  | text (contents : Bytes) : Plain (.text [contents])
  | simple {number : UInt8} (small : number < 24) : Plain (.simple number)
  | array {items : List Item} (members : ∀ item ∈ items, Plain item) : Plain (.array items)
  | map {items : List Item} (paired : items.length % 2 = 0) (members : ∀ item ∈ items, Plain item) :
      Plain (.map items)

theorem length_le_length_encodeAll_self (items : List Item) :
    items.length ≤ (encodeAll items).length := by
  induction items with
  | nil => exact Nat.le_refl 0
  | cons first rest ih =>
    have hone := one_le_length_encode first
    rw [encodeAll, List.length_append, List.length_cons]
    omega

/-- If a reader accepts some items one after another, and reads back each item that it accepts, then
it accepts each of them. -/
theorem forall_of_readMany_encodeAll {read : Bytes → Option (Item × Bytes)} {p : Item → Prop}
    {items : List Item}
    (haccept : ∀ item ∈ items, ∀ rest, (read (item.encode ++ rest)).isSome → p item)
    (hread : ∀ item ∈ items, p item → ∀ rest, read (item.encode ++ rest) = some (item, rest))
    {rest : Bytes} (h : (readMany read items.length (encodeAll items ++ rest)).isSome) :
    ∀ item ∈ items, p item := by
  induction items with
  | nil => simp
  | cons first items ih =>
    rw [List.length_cons, readMany, encodeAll, List.append_assoc] at h
    cases hfirst : read (first.encode ++ (encodeAll items ++ rest)) with
    | none =>
      rw [hfirst] at h
      cases h
    | some found =>
      have hp : p first := by
        refine haccept first List.mem_cons_self (encodeAll items ++ rest) ?_
        rw [hfirst]
        rfl
      rw [hread first List.mem_cons_self hp] at h
      refine List.forall_mem_cons.2 ⟨hp, ih ?_ ?_ ?_⟩
      · exact fun item hi => haccept item (List.mem_cons_of_mem _ hi)
      · exact fun item hi => hread item (List.mem_cons_of_mem _ hi)
      · simp only at h
        cases hrest : readMany read items.length (encodeAll items ++ rest) with
        | none =>
          rw [hrest] at h
          cases h
        | some _ => rfl

/-- What is read under two conditions is read only if both hold. -/
theorem of_isSome_ite_map_ite {α β : Type} {p q : Prop} [Decidable p] [Decidable q]
    {found : Option α} {f : α → β}
    (h : (if p then (if q then found else none).map f else none).isSome) :
    p ∧ q ∧ found.isSome := by
  split_ifs at h with hp hq
  · exact ⟨hp, hq, by rwa [Option.isSome_map] at h⟩
  · cases h
  · cases h

/-- Items that are accepted one after another fit, if each of them does when it is accepted. -/
theorem fits_of_readMany_encodeAll {items : List Item} {fuel depth : Nat}
    (hfuel : (encodeAll items).length ≤ fuel) (hdepth : depth < maxDepth)
    (haccept : ∀ item ∈ items, ∀ rest,
      (readItem fuel (depth + 1) false (item.encode ++ rest)).isSome →
        item.Fits (maxDepth - (depth + 1)))
    {rest : Bytes}
    (h : (readMany (readItem fuel (depth + 1) false) items.length
      (encodeAll items ++ rest)).isSome) :
    ∀ item ∈ items, item.Fits (maxDepth - (depth + 1)) := by
  refine forall_of_readMany_encodeAll haccept (fun item hi hfits rest => ?_) h
  have hle := length_le_length_encodeAll hi
  exact readItem_encode hfits (by omega) (by omega) rest

/-- **An item that is accepted fits.** The length of the encoding bounds every length in it, so each
head holds the number that was meant, and only the limits on lists and nesting can be exceeded. -/
theorem fits_of_readItem_encode {item : Item} (h : item.Plain) {fuel depth : Nat}
    (hsize : item.encode.length < 2 ^ 64) (hfuel : item.encode.length ≤ fuel) {rest : Bytes}
    (hread : (readItem fuel depth false (item.encode ++ rest)).isSome) :
    item.Fits (maxDepth - depth) := by
  induction h generalizing fuel depth rest with
  | uint n => exact .uint _ n
  | nint n => exact .nint _ n
  | text contents =>
    refine .text _ ?_
    rw [Item.encode, List.length_append, List.flatten_singleton] at hsize
    omega
  | simple small => exact .simple _ small
  | @array items members ih =>
    obtain ⟨fuel, rfl⟩ := exists_succ_of_length_encode_le hfuel
    have hone := one_le_length_head 4 items.length
    have hcount := length_le_length_encodeAll_self items
    rw [Item.encode, List.length_append] at hsize hfuel
    obtain ⟨info, hhead⟩ := readHead_head 4 (encodeAll items ++ rest) (by omega)
      (Nat.lt_of_le_of_lt hcount (by omega))
    rw [Item.encode, List.append_assoc, readItem, hhead] at hread
    simp only [readArray, if_neg Bool.false_ne_true] at hread
    obtain ⟨hdepth, hlimit, hmany⟩ := of_isSome_ite_map_ite hread
    have hmembers := fits_of_readMany_encodeAll (by omega) hdepth (fun item hi rest haccept => by
      have hle := length_le_length_encodeAll hi
      exact ih item hi (by omega) (by omega) haccept) hmany
    rw [show maxDepth - depth = maxDepth - (depth + 1) + 1 by omega]
    exact .array hlimit hmembers
  | @map items paired members ih =>
    obtain ⟨fuel, rfl⟩ := exists_succ_of_length_encode_le hfuel
    have hone := one_le_length_head 5 (items.length / 2)
    have hcount := length_le_length_encodeAll_self items
    rw [Item.encode, List.length_append] at hsize hfuel
    obtain ⟨info, hhead⟩ := readHead_head 5 (n := items.length / 2) (encodeAll items ++ rest)
      (by omega) (by omega)
    have hpairs : 2 * (items.length / 2) = items.length := by omega
    rw [Item.encode, List.append_assoc, readItem, hhead] at hread
    simp only [readMap, hpairs, if_neg Bool.false_ne_true] at hread
    obtain ⟨hdepth, hlimit, hmany⟩ := of_isSome_ite_map_ite hread
    have hmembers := fits_of_readMany_encodeAll (by omega) hdepth (fun item hi rest haccept => by
      have hle := length_le_length_encodeAll hi
      exact ih item hi (by omega) (by omega) haccept) hmany
    rw [show maxDepth - depth = maxDepth - (depth + 1) + 1 by omega]
    exact .map paired hlimit hmembers

/-- **When an encoding is accepted, and as what.** -/
theorem parse_encode_eq_some_iff {item item' : Item} (h : item.Plain)
    (hsize : item.encode.length < 2 ^ 64) :
    parse item.encode = some item' ↔ item.Fits maxDepth ∧ item' = item := by
  constructor
  · intro hparse
    have hread : (readItem item.encode.length 0 false (item.encode ++ [])).isSome := by
      rw [List.append_nil]
      rw [parse] at hparse
      cases hfound : readItem item.encode.length 0 false item.encode with
      | none =>
        rw [hfound] at hparse
        cases hparse
      | some _ => rfl
    have hfits : item.Fits maxDepth := fits_of_readItem_encode h hsize (Nat.le_refl _) hread
    rw [parse_encode hfits] at hparse
    exact ⟨hfits, (Option.some.inj hparse).symm⟩
  · rintro ⟨hfits, rfl⟩
    exact parse_encode hfits

end Cbor

end ClassSharing
