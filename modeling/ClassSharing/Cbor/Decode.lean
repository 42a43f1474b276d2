import ClassSharing.Cbor.Reader
import ClassSharing.Text.Utf8

/-!
# Contents of data items

How an item is understood as a text, a number, a truth value, a list or a record. Null and
undefined stand for the zero of every type. Tags are passed over, except that the tags of dates
and big numbers need contents of the right type, and that a big number is a number.

## Main definitions

* `Cbor.Item.toText?`, `Cbor.Item.toInteger?`, `Cbor.Item.toBool?`
* `Cbor.Item.toList?`: an optional list of items
* `Cbor.Item.toRecord?`: the entries of a map with numbers or texts as keys
* `Cbor.Record.field?`: the entry for a field number

## Main results

* `Cbor.Record.hasDistinctKeys_iff`: which records have a repeated key
-/

namespace ClassSharing

namespace Cbor

namespace Item

/-- Whether the contents of a tag have the type that the tag asks for. -/
def fitsTag (number : UInt64) (contents : Item) : Bool :=
  if number = 0 then
    match contents with
    | text _ => true
    | _ => false
  else if number = 1 then
    match contents with
    | uint _ | nint _ | float _ => true
    | _ => false
  else if number = 2 || number = 3 then
    match contents with
    | bytes _ => true
    | _ => false
  else true

/-- Whether a tag is one of the big numbers. -/
def isBigTag (number : UInt64) : Bool := number = 2 || number = 3

/-- Whether the item is null or undefined. -/
def isNull : Item → Bool
  | simple n => n = 22 || n = 23
  | _ => false

/-- The item as a text; every chunk has to be valid. -/
def toText? : Item → Option Text
  | text chunks => if chunks.all fun c => (Text.mk c).isUtf8 then some ⟨chunks.flatten⟩ else none
  | simple n => if n = 22 || n = 23 then some Text.empty else none
  | tag number item => if fitsTag number item && !isBigTag number then item.toText? else none
  | _ => none

/-- The item as an integer. -/
def toInteger? : Item → Option Int
  | uint n => some n.toNat
  | nint n => some (-1 - (n.toNat : Int))
  | simple n =>
    if n = 22 || n = 23 then some 0
    else if n = 20 || n = 21 then none
    else some n.toNat
  | tag number item =>
    if !fitsTag number item then none
    else match isBigTag number, item with
      | true, bytes b =>
        some (if number = 2 then (fromBigEndian b : Int) else -1 - (fromBigEndian b : Int))
      | true, _ => none
      | false, item => item.toInteger?
  | _ => none

/-- The item as an integer of 64 bits with a sign. -/
def toInt64? (item : Item) : Option Int64 :=
  match item.toInteger? with
  | some n =>
    if -0x8000000000000000 ≤ n ∧ n < 0x8000000000000000 then some (Int64.ofInt n) else none
  | none => none

/-- The item as an integer of 64 bits without a sign. -/
def toUInt64? (item : Item) : Option UInt64 :=
  match item.toInteger? with
  | some n => if 0 ≤ n ∧ n < 0x10000000000000000 then some n.toNat.toUInt64 else none
  | none => none

/-- The item as an integer of 8 bits without a sign. -/
def toUInt8? (item : Item) : Option UInt8 :=
  match item.toInteger? with
  | some n => if 0 ≤ n ∧ n < 0x100 then some n.toNat.toUInt8 else none
  | none => none

/-- The item as a truth value. -/
def toBool? : Item → Option Bool
  | simple n =>
    if n = 22 || n = 23 || n = 20 then some false else if n = 21 then some true else none
  | tag number item => if fitsTag number item && !isBigTag number then item.toBool? else none
  | _ => none

/-- The item as a list that may be absent. -/
def toItems? : Item → Option (Option (List Item))
  | array items => some (some items)
  | simple n => if n = 22 || n = 23 then some none else none
  | tag number item => if fitsTag number item && !isBigTag number then item.toItems? else none
  | _ => none

/-- The item as a list that may be absent, each member understood by `read`. -/
def toList? {α : Type} (read : Item → Option α) (item : Item) : Option (Option (List α)) :=
  match item.toItems? with
  | none => none
  | some none => some none
  | some (some items) => (items.mapM read).map some

end Item

/-! ### Records -/

/-- A key of a record. -/
inductive Key where
  | number (n : Int64)
  | text (t : Text)
deriving DecidableEq, Inhabited

/-- The key that an item spells. Large numbers wrap around at 64 bits, but a negative number has to
fit. -/
def Key.ofItem? : Item → Option Key
  | .uint n => some (.number n.toInt64)
  | .nint n => if n < 0x8000000000000000 then some (.number (~~~n).toInt64) else none
  | .text chunks => (Item.text chunks).toText?.map .text
  | _ => none

/-- Whether a key selects the field with a number, as the number itself or as its decimal text. -/
def Key.selects (key : Key) (field : Nat) : Bool :=
  match key with
  | .number n => n = Int64.ofNat field
  | .text t => t = Text.decimal field

/-- The entries of a map, in order. -/
abbrev Record := List (Key × Item)

/-- The entries of a flat list of keys and values. -/
def Record.ofItems? : List Item → Option Record
  | [] => some []
  | [_] => none
  | key :: value :: rest =>
    match Key.ofItem? key, Record.ofItems? rest with
    | some key, some entries => some ((key, value) :: entries)
    | _, _ => none

/-- The value of the first entry that selects a field. -/
def Record.field? (record : Record) (field : Nat) : Option Item :=
  (record.find? fun entry => entry.1.selects field).map Prod.snd

/-! ### Distinct keys -/

namespace Key

/-- Whether a key comes before another one or equals it. Numbers come before texts. -/
def atMost : Key → Key → Bool
  | .number m, .number n => m ≤ n
  | .number _, .text _ => true
  | .text _, .number _ => false
  | .text s, .text t => s.atMost t

theorem atMost_total (a b : Key) : a.atMost b = true ∨ b.atMost a = true := by
  cases a with
  | number m =>
    cases b with
    | number n => simpa [atMost] using Int64.le_total m n
    | text t => exact Or.inl rfl
  | text s =>
    cases b with
    | number n => exact Or.inr rfl
    | text t => exact Text.atMost_total s t

theorem atMost_antisymm {a b : Key} (hab : a.atMost b = true) (hba : b.atMost a = true) :
    a = b := by
  cases a with
  | number m =>
    cases b with
    | number n =>
      simp only [atMost, decide_eq_true_eq] at hab hba
      rw [Int64.le_antisymm hab hba]
    | text t => cases hba
  | text s =>
    cases b with
    | number n => cases hab
    | text t => rw [Text.atMost_antisymm hab hba]

theorem atMost_trans {a b c : Key} (hab : a.atMost b = true) (hbc : b.atMost c = true) :
    a.atMost c = true := by
  cases a with
  | number m =>
    cases c with
    | number n =>
      cases b with
      | number k =>
        simp only [atMost, decide_eq_true_eq] at hab hbc ⊢
        exact Int64.le_trans hab hbc
      | text t => cases hbc
    | text t => rfl
  | text s =>
    cases b with
    | number k => cases hab
    | text t =>
      cases c with
      | number n => cases hbc
      | text u => exact Text.atMost_trans hab hbc

/-- Whether every key comes before its right neighbour and differs from it. -/
def isAscending : List Key → Bool
  | [] => true
  | [_] => true
  | a :: b :: rest => a.atMost b && a ≠ b && isAscending (b :: rest)

/-- In an ascending list the first key comes before all others and differs from them. -/
theorem atMost_of_isAscending {a : Key} {rest : List Key} (h : isAscending (a :: rest) = true) :
    ∀ b ∈ rest, a.atMost b = true ∧ a ≠ b := by
  induction rest generalizing a with
  | nil => simp
  | cons c rest ih =>
    simp only [isAscending, Bool.and_eq_true, decide_eq_true_eq] at h
    obtain ⟨⟨hac, hne⟩, hrest⟩ := h
    intro b hb
    rcases List.mem_cons.1 hb with rfl | hb
    · exact ⟨hac, hne⟩
    · obtain ⟨hcb, -⟩ := ih hrest b hb
      refine ⟨atMost_trans hac hcb, ?_⟩
      rintro rfl
      exact hne (atMost_antisymm hac hcb)

theorem nodup_of_isAscending {keys : List Key} (h : isAscending keys = true) : keys.Nodup := by
  induction keys with
  | nil => exact List.nodup_nil
  | cons a rest ih =>
    have hrest : isAscending rest = true := by
      cases rest with
      | nil => rfl
      | cons b rest =>
        simp only [isAscending, Bool.and_eq_true] at h
        exact h.2
    exact List.nodup_cons.2 ⟨fun ha => (atMost_of_isAscending h a ha).2 rfl, ih hrest⟩

theorem isAscending_of_nodup {keys : List Key} (sorted : keys.Pairwise fun a b => a.atMost b = true)
    (h : keys.Nodup) : isAscending keys = true := by
  induction keys with
  | nil => rfl
  | cons a rest ih =>
    obtain ⟨first, later⟩ := List.pairwise_cons.1 sorted
    obtain ⟨fresh, others⟩ := List.nodup_cons.1 h
    cases rest with
    | nil => rfl
    | cons b rest =>
      have hne : a ≠ b := fun hab => fresh (hab ▸ List.mem_cons_self)
      simp [isAscending, first b List.mem_cons_self, hne, ih later others]

end Key

/-- Whether no key is given twice. Keys are written in ascending order, where this is plain; others
are sorted first. -/
def Record.hasDistinctKeys (record : Record) : Bool :=
  let keys := record.map Prod.fst
  Key.isAscending keys || Key.isAscending (keys.mergeSort Key.atMost)

/-- The check finds every repetition and nothing else. -/
theorem Record.hasDistinctKeys_iff (record : Record) :
    record.hasDistinctKeys = true ↔ (record.map Prod.fst).Nodup := by
  have perm := List.mergeSort_perm (record.map Prod.fst) Key.atMost
  simp only [hasDistinctKeys, Bool.or_eq_true]
  constructor
  · rintro (h | h)
    · exact Key.nodup_of_isAscending h
    · exact perm.nodup_iff.1 (Key.nodup_of_isAscending h)
  · intro h
    refine Or.inr (Key.isAscending_of_nodup ?_ (perm.nodup_iff.2 h))
    exact @List.pairwise_mergeSort Key Key.atMost (fun _ _ _ => Key.atMost_trans)
      (fun a b => (Bool.or_eq_true _ _).mpr (Key.atMost_total a b)) (record.map Prod.fst)

/-- The item as a record with distinct keys; null is the record without entries. -/
def Item.toRecord? : Item → Option Record
  | map items =>
    match Record.ofItems? items with
    | some record => if record.hasDistinctKeys then some record else none
    | none => none
  | simple n => if n = 22 || n = 23 then some [] else none
  | tag number item => if fitsTag number item && !isBigTag number then item.toRecord? else none
  | _ => none

/-- A field of a record; a record without the field has the default. -/
def Record.read {α : Type} (record : Record) (field : Nat) (default : α)
    (read : Item → Option α) : Option α :=
  match record.field? field with
  | some item => read item
  | none => some default

end Cbor

end ClassSharing
