import ClassSharing.Cbor.Decode
import ClassSharing.Image.Codec
import ClassSharing.Proofs.Cbor.RoundTrip

/-!
# Records with numbered fields

A record is written as a map from field numbers to items, and a field is left out when its item is
the zero of its type. What is common to all records is here: a record is a list of optional items,
numbered from one. Written as a map and read back, the entry for a number is the item at its place,
and there is no entry for a number that was left out.

## Main definitions

* `Cbor.Item.ofFields`: the map of a list of optional items
* `Cbor.Record.ofFields`: the entries of that map

## Main results

* `Cbor.Item.toRecord?_ofFields`: the map is a record with distinct keys
* `Cbor.Record.read_ofFields`: what is read for a field number
* `Cbor.Item.fits_ofFields`: the map is read back if the items in it are
* `Cbor.Item.toInt64?_ofInt64`, `Cbor.Item.toText?_ofText`, `Cbor.Item.toList?_arrayOf`: the
  contents of items
-/

namespace ClassSharing

namespace Cbor

open Image

/-! ### Numbered fields -/

/-- The keys and values of optional items numbered from `start` on. -/
def fieldsFrom : (start : Nat) → List (Option Item) → List Item
  | _, [] => []
  | start, none :: rest => fieldsFrom (start + 1) rest
  | start, some item :: rest => .uint start.toUInt64 :: item :: fieldsFrom (start + 1) rest

/-- The map of optional items numbered from one. -/
def Item.ofFields (fields : List (Option Item)) : Item := .map (fieldsFrom 1 fields)

/-- The entries of optional items numbered from `start` on. -/
def Record.entriesFrom : (start : Nat) → List (Option Item) → Record
  | _, [] => []
  | start, none :: rest => entriesFrom (start + 1) rest
  | start, some item :: rest => (.number (Int64.ofNat start), item) :: entriesFrom (start + 1) rest

/-- The entries of optional items numbered from one. -/
def Record.ofFields (fields : List (Option Item)) : Record := entriesFrom 1 fields

theorem Record.ofItems?_fieldsFrom (start : Nat) (fields : List (Option Item)) :
    Record.ofItems? (fieldsFrom start fields) = some (entriesFrom start fields) := by
  induction fields generalizing start with
  | nil => rfl
  | cons field rest ih =>
    cases field with
    | none => exact ih (start + 1)
    | some item =>
      have hkey : Key.ofItem? (.uint start.toUInt64) = some (.number (Int64.ofNat start)) := rfl
      rw [fieldsFrom, Record.ofItems?, hkey, ih (start + 1)]
      rfl

/-- Field numbers are told apart as keys. -/
theorem ofNat_inj_of_lt {m n : Nat} (hm : m < 2 ^ 63) (hn : n < 2 ^ 63)
    (h : Int64.ofNat m = Int64.ofNat n) : m = n := by
  have hint := congrArg Int64.toInt h
  rw [Int64.toInt_ofNat_of_lt hm, Int64.toInt_ofNat_of_lt hn] at hint
  exact Int.ofNat_inj.1 hint

theorem Record.mem_entriesFrom {start : Nat} {fields : List (Option Item)} {entry : Key × Item}
    (h : entry ∈ entriesFrom start fields) :
    ∃ i, start ≤ i ∧ i < start + fields.length ∧ entry.1 = .number (Int64.ofNat i) := by
  induction fields generalizing start with
  | nil => cases h
  | cons field rest ih =>
    rw [List.length_cons]
    cases field with
    | none =>
      obtain ⟨i, hlow, hhigh, hkey⟩ := ih h
      exact ⟨i, by omega, by omega, hkey⟩
    | some item =>
      rcases List.mem_cons.1 h with rfl | h
      · exact ⟨start, by omega, by omega, rfl⟩
      · obtain ⟨i, hlow, hhigh, hkey⟩ := ih h
        exact ⟨i, by omega, by omega, hkey⟩

/-- No number from `start` on is a key of entries that come later. -/
theorem Record.ne_of_mem_entriesFrom {start later : Nat} {fields : List (Option Item)}
    {entry : Key × Item} (hlater : start < later) (hbound : later + fields.length ≤ 2 ^ 63)
    (h : entry ∈ entriesFrom later fields) : entry.1 ≠ .number (Int64.ofNat start) := by
  obtain ⟨i, hlow, hhigh, hkey⟩ := mem_entriesFrom h
  intro hstart
  rw [hkey] at hstart
  have := ofNat_inj_of_lt (by omega) (by omega) (Key.number.inj hstart)
  omega

theorem Record.nodup_keys_entriesFrom {start : Nat} {fields : List (Option Item)}
    (hbound : start + fields.length ≤ 2 ^ 63) :
    ((entriesFrom start fields).map Prod.fst).Nodup := by
  induction fields generalizing start with
  | nil => exact List.nodup_nil
  | cons field rest ih =>
    rw [List.length_cons] at hbound
    cases field with
    | none => exact ih (by omega)
    | some item =>
      refine List.nodup_cons.2 ⟨fun hmem => ?_, ih (by omega)⟩
      obtain ⟨entry, hentry, hkey⟩ := List.mem_map.1 hmem
      exact ne_of_mem_entriesFrom (by omega) (by omega) hentry hkey

/-- **A written record is read as a record.** -/
theorem Item.toRecord?_ofFields {fields : List (Option Item)} (h : fields.length < 2 ^ 63) :
    (Item.ofFields fields).toRecord? = some (Record.ofFields fields) := by
  have hdistinct : (Record.entriesFrom 1 fields).hasDistinctKeys = true :=
    (Record.hasDistinctKeys_iff _).2 (Record.nodup_keys_entriesFrom (by omega))
  rw [Item.ofFields, Item.toRecord?, Record.ofItems?_fieldsFrom]
  simp only [hdistinct, if_true]
  rfl

theorem Record.field?_entriesFrom {start n : Nat} {fields : List (Option Item)}
    (hbound : start + fields.length ≤ 2 ^ 63) (hn : n < 2 ^ 63) (hstart : start ≤ n) :
    (entriesFrom start fields).field? n = fields[n - start]?.join := by
  induction fields generalizing start with
  | nil => rfl
  | cons field rest ih =>
    rw [List.length_cons] at hbound
    by_cases heq : start = n
    · subst heq
      rw [Nat.sub_self, List.getElem?_cons_zero, Option.join_some]
      cases field with
      | some item => simp [entriesFrom, field?, Key.selects]
      | none =>
        rw [entriesFrom, field?, List.find?_eq_none.2, Option.map_none]
        intro entry hentry hselects
        obtain ⟨i, hlow, hhigh, hkey⟩ := mem_entriesFrom hentry
        rw [hkey, Key.selects] at hselects
        have := ofNat_inj_of_lt (by omega) (by omega) (of_decide_eq_true hselects)
        omega
    · obtain ⟨k, hk⟩ : ∃ k, n - start = k + 1 := ⟨n - start - 1, by omega⟩
      have hrest : (entriesFrom (start + 1) rest).field? n = rest[n - (start + 1)]?.join :=
        ih (by omega) (by omega)
      rw [show n - (start + 1) = k by omega] at hrest
      rw [hk, List.getElem?_cons_succ, ← hrest]
      cases field with
      | none => rfl
      | some item =>
        have hno : (Int64.ofNat start = Int64.ofNat n) = False :=
          eq_false fun h => heq (ofNat_inj_of_lt (by omega) (by omega) h)
        simp [entriesFrom, field?, Key.selects, hno]

/-- **What is read for a field number** is what the item at its place gives, and the default if
nothing is there. -/
theorem Record.read_ofFields {α : Type} {fields : List (Option Item)} (n : Nat) (default : α)
    (read : Item → Option α) (h : fields.length < 2 ^ 62) (hn : n < 2 ^ 62) :
    (Record.ofFields fields).read (n + 1) default read
      = match fields[n]?.join with
        | some item => read item
        | none => some default := by
  have hfield : (Record.ofFields fields).field? (n + 1) = fields[n]?.join := by
    rw [ofFields, field?_entriesFrom (by omega) (by omega) (by omega), Nat.add_sub_cancel]
  exact congrArg (fun found => match found with
    | some item => read item
    | none => some default) hfield

/-! ### Reading the map back -/

theorem length_fieldsFrom (start : Nat) (fields : List (Option Item)) :
    (fieldsFrom start fields).length = 2 * (fields.filterMap id).length := by
  induction fields generalizing start with
  | nil => rfl
  | cons field rest ih =>
    cases field with
    | none => rw [fieldsFrom, ih, List.filterMap_cons]; rfl
    | some item =>
      rw [fieldsFrom, List.length_cons, List.length_cons, ih, List.filterMap_cons]
      simp only [id, List.length_cons]
      omega

theorem mem_fieldsFrom {start : Nat} {fields : List (Option Item)} {item : Item}
    (h : item ∈ fieldsFrom start fields) : (∃ n, item = .uint n) ∨ some item ∈ fields := by
  induction fields generalizing start with
  | nil => cases h
  | cons field rest ih =>
    cases field with
    | none =>
      rcases ih h with hkey | hmem
      · exact Or.inl hkey
      · exact Or.inr (List.mem_cons_of_mem _ hmem)
    | some first =>
      rcases List.mem_cons.1 h with rfl | h
      · exact Or.inl ⟨_, rfl⟩
      · rcases List.mem_cons.1 h with rfl | h
        · exact Or.inr List.mem_cons_self
        · rcases ih h with hkey | hmem
          · exact Or.inl hkey
          · exact Or.inr (List.mem_cons_of_mem _ hmem)

/-- A map of fields is read back if the items in it are. -/
theorem Item.fits_ofFields {room : Nat} {fields : List (Option Item)}
    (hlength : fields.length ≤ maxLength) (h : ∀ item, some item ∈ fields → item.Fits room) :
    (Item.ofFields fields).Fits (room + 1) := by
  have hcount := length_fieldsFrom 1 fields
  have hle : (fields.filterMap id).length ≤ fields.length := List.length_filterMap_le id fields
  refine .map (by omega) (by omega) fun item hitem => ?_
  rcases mem_fieldsFrom hitem with ⟨n, rfl⟩ | hmem
  · exact .uint room n
  · exact h item hmem

/-! ### Contents -/

theorem Item.toInteger?_ofInt64 (n : Int64) : (Item.ofInt64 n).toInteger? = some n.toInt := by
  have hlow := n.le_toInt
  have hhigh := n.toInt_lt
  rw [Item.ofInt64]
  split
  · rename_i hneg
    have hlt : n.toInt < 0 := Int64.lt_iff_toInt_lt.1 hneg
    have hnot : (~~~n).toInt = -n.toInt - 1 := by
      rw [Int64.toInt_not, Int.bmod_eq_of_le] <;> omega
    have hpos : 0 ≤ ~~~n := by
      rw [Int64.le_iff_toInt_le, hnot]
      simp only [Int64.toInt_zero]
      omega
    have hclamp : (~~~n).toNatClampNeg = (-n.toInt - 1).toNat := by
      rw [Int64.toNatClampNeg, hnot]
    rw [Item.toInteger?, Int64.toNat_toUInt64_of_le hpos, hclamp]
    simp only [Option.some.injEq]
    omega
  · rename_i hnonneg
    have hle : 0 ≤ n.toInt := Int64.le_iff_toInt_le.1 (Int64.not_lt.1 hnonneg)
    rw [Item.toInteger?, Int64.toNat_toUInt64_of_le (Int64.not_lt.1 hnonneg),
      Int64.toNatClampNeg]
    simp only [Option.some.injEq]
    omega

theorem Item.toInt64?_ofInt64 (n : Int64) : (Item.ofInt64 n).toInt64? = some n := by
  have hlow := n.le_toInt
  have hhigh := n.toInt_lt
  rw [Item.toInt64?, toInteger?_ofInt64]
  simp only
  rw [if_pos (by omega), Int64.ofInt_toInt]

theorem Item.toUInt64?_uint (n : UInt64) : (Item.uint n).toUInt64? = some n := by
  have hlt := n.toNat_lt
  rw [Item.toUInt64?, Item.toInteger?]
  simp only
  rw [if_pos (by omega), Int.toNat_natCast, Nat.toUInt64, UInt64.ofNat_toNat]

theorem Item.toUInt8?_uint (n : UInt8) : (Item.uint n.toUInt64).toUInt8? = some n := by
  have hlt := n.toNat_lt
  rw [Item.toUInt8?, Item.toInteger?]
  simp only [UInt8.toNat_toUInt64]
  rw [if_pos (by omega), Int.toNat_natCast, Nat.toUInt8, UInt8.ofNat_toNat]

theorem Item.toText?_ofText {t : Text} (h : t.isUtf8 = true) :
    (Item.ofText t).toText? = some t := by
  rw [Item.ofText, Item.toText?]
  simp [h]

theorem Item.isUtf8_of_toText?_ofText {t t' : Text} (h : (Item.ofText t).toText? = some t') :
    t.isUtf8 = true := by
  by_contra hinvalid
  rw [Bool.not_eq_true] at hinvalid
  simp [Item.ofText, Item.toText?, hinvalid] at h

theorem Item.toBool?_ofBool (b : Bool) : (Item.ofBool b).toBool? = some b := by
  cases b <;> rfl

theorem Item.fits_ofInt64 (room : Nat) (n : Int64) : (Item.ofInt64 n).Fits room := by
  rw [Item.ofInt64]
  split
  · exact .nint room _
  · exact .uint room _

theorem Item.fits_ofText {t : Text} (room : Nat) (h : t.length < 2 ^ 64) :
    (Item.ofText t).Fits room :=
  .text room h

theorem Item.fits_ofBool (room : Nat) (b : Bool) : (Item.ofBool b).Fits room := by
  cases b
  · exact .simple room (by decide)
  · exact .simple room (by decide)

/-- Members that are read one by one are read together. -/
theorem mapM_map_eq_some {α β : Type} {toItem : α → Item} {read : Item → Option β} {f : α → β}
    {xs : List α} (h : ∀ x ∈ xs, read (toItem x) = some (f x)) :
    (xs.map toItem).mapM read = some (xs.map f) := by
  induction xs with
  | nil => rfl
  | cons x xs ih =>
    rw [List.map_cons, List.mapM_cons, h x List.mem_cons_self,
      ih fun y hy => h y (List.mem_cons_of_mem _ hy)]
    rfl

/-- **A list is read back member by member.** -/
theorem Item.toList?_arrayOf {α β : Type} {toItem : α → Item} {read : Item → Option β} {f : α → β}
    {xs : List α} (h : ∀ x ∈ xs, read (toItem x) = some (f x)) :
    Item.toList? read (arrayOf toItem xs) = some (some (xs.map f)) := by
  rw [Item.toList?, arrayOf, Item.toItems?]
  simp only [mapM_map_eq_some h, Option.map_some]

theorem Item.fits_arrayOf {α : Type} {room : Nat} {toItem : α → Item} {xs : List α}
    (hlength : xs.length ≤ maxLength) (h : ∀ x ∈ xs, (toItem x).Fits room) :
    (arrayOf toItem xs).Fits (room + 1) := by
  refine .array (by rwa [List.length_map]) fun item hitem => ?_
  obtain ⟨x, hx, rfl⟩ := List.mem_map.1 hitem
  exact h x hx

end Cbor

end ClassSharing
