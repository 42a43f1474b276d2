import ClassSharing.Proofs.Image.Archivable
import ClassSharing.Proofs.Image.Writer

/-!
# How long archives are

The offsets and the lengths in an archive are numbers of 64 bits, so an archive can be opened only
if it is shorter than that. The format limits the lists of a record but not its texts. If no text is
longer than a kilobyte, then the limits on the lists are enough: the two nested lists of a subgraph
leave room for as many subgraphs as the boot library has.

Every bound is the one of the format's largest list, not of the list at hand. The powers of two have
room to spare.

## Main definitions

* `Text.Short`, `Image.ModuleRecord.Short`, `Value.Short`: no text of more than a kilobyte

## Main results

* `Machine.Collected.length_encode_le`: the length of the record of a graph with short texts
* `Writer.length_encode_lt`: an archive of a few such records can be addressed
-/

namespace ClassSharing

open Image

open Cbor (Item encodeAll fieldsFrom maxLength)

/-! ### Items -/

/-- A text of at most a kilobyte. -/
def Text.Short (t : Text) : Prop := t.length ≤ 1024

instance : DecidablePred Text.Short := fun t => inferInstanceAs (Decidable (t.length ≤ 1024))

/-- A module with short texts, of which it has no more than the format allows. -/
structure Image.ModuleRecord.Short (m : ModuleRecord) : Prop where
  name : m.name.Short
  loader : m.loader.Short
  packages : ListStorable Text.Short m.packages

instance : DecidablePred ModuleRecord.Short := fun m =>
  decidable_of_iff (m.name.Short ∧ m.loader.Short ∧ ListStorable Text.Short m.packages)
    ⟨fun h => ⟨h.1, h.2.1, h.2.2⟩, fun h => ⟨h.name, h.loader, h.packages⟩⟩

namespace Cbor

theorem length_head_le (major n : Nat) : (head major n).length ≤ 9 := by
  rw [head]
  split_ifs <;> simp [length_bigEndian]

theorem length_encodeAll_le {items : List Item} {limit : Nat}
    (h : ∀ item ∈ items, item.encode.length ≤ limit) :
    (encodeAll items).length ≤ items.length * limit := by
  induction items with
  | nil => simp [encodeAll]
  | cons item rest ih =>
    obtain ⟨hitem, hrest⟩ := List.forall_mem_cons.1 h
    have hlength := ih hrest
    rw [encodeAll, List.length_append, List.length_cons, Nat.succ_mul]
    omega

theorem Item.length_uint_le (n : UInt64) : (Item.uint n).encode.length ≤ 9 := by
  rw [Item.encode]
  exact length_head_le 0 n.toNat

theorem Item.length_ofInt64_le (n : Int64) : (Item.ofInt64 n).encode.length ≤ 9 := by
  rw [Item.ofInt64]
  split
  · rw [Item.encode]
    exact length_head_le 1 _
  · exact length_uint_le _

theorem Item.length_ofText_le {t : Text} (h : t.Short) : (Item.ofText t).encode.length ≤ 1033 := by
  have hhead := length_head_le 3 t.bytes.length
  have hshort : t.bytes.length ≤ 1024 := h
  rw [Item.ofText, Item.encode, List.length_append, List.flatten_singleton]
  omega

/-- An array with members of limited length. -/
theorem Item.length_arrayOf_le {α : Type} {toItem : α → Item} {xs : List α} {limit : Nat}
    (hlength : xs.length ≤ maxLength) (h : ∀ x ∈ xs, (toItem x).encode.length ≤ limit) :
    (arrayOf toItem xs).encode.length ≤ 9 + maxLength * limit := by
  have hitems : (encodeAll (xs.map toItem)).length ≤ (xs.map toItem).length * limit :=
    length_encodeAll_le fun item hitem => by
      obtain ⟨x, hx, rfl⟩ := List.mem_map.1 hitem
      exact h x hx
  rw [List.length_map] at hitems
  have hhead := length_head_le 4 (xs.map toItem).length
  have hlimit : xs.length * limit ≤ maxLength * limit := Nat.mul_le_mul_right limit hlength
  rw [arrayOf, Item.encode, List.length_append]
  omega

/-- A map of fields of limited length. -/
theorem Item.length_ofFields_le {fields : List (Option Item)} (limit : Nat) (hlimit : 9 ≤ limit)
    (h : ∀ item, some item ∈ fields → item.encode.length ≤ limit) :
    (Item.ofFields fields).encode.length ≤ 9 + 2 * fields.length * limit := by
  have hitems : (encodeAll (fieldsFrom 1 fields)).length ≤ (fieldsFrom 1 fields).length * limit :=
    length_encodeAll_le fun item hitem => by
      rcases mem_fieldsFrom hitem with ⟨n, rfl⟩ | hmem
      · exact (length_uint_le n).trans hlimit
      · exact h item hmem
  have hcount : (fieldsFrom 1 fields).length * limit ≤ 2 * fields.length * limit := by
    refine Nat.mul_le_mul_right limit ?_
    rw [length_fieldsFrom]
    exact Nat.mul_le_mul_left 2 (List.length_filterMap_le id fields)
  have hhead := length_head_le 5 ((fieldsFrom 1 fields).length / 2)
  rw [Item.ofFields, Item.encode, List.length_append]
  omega

end Cbor

namespace Image

theorem length_optional_le {isZero : Bool} {item inner : Item} {limit : Nat}
    (h : inner.encode.length ≤ limit) (hitem : some item = optional isZero inner) :
    item.encode.length ≤ limit := by
  rw [optional] at hitem
  split at hitem
  · cases hitem
  · obtain rfl := Option.some.inj hitem
    exact h

theorem length_optionalList_le {α : Type} {toItem : α → Item} {xs : Option (List α)} {item : Item}
    {limit : Nat} (hlength : (xs.getD []).length ≤ maxLength)
    (h : ∀ x ∈ xs.getD [], (toItem x).encode.length ≤ limit)
    (hitem : some item = optionalList toItem xs) :
    item.encode.length ≤ 9 + maxLength * limit :=
  length_optional_le (Cbor.Item.length_arrayOf_le hlength h) hitem

/-! ### Records -/

theorem ValueRecord.length_toItem_le {v : ValueRecord} (h : v.str.Short) :
    v.toItem.encode.length ≤ 2 ^ 14 := by
  rw [toItem_eq_ofFields]
  refine (Item.length_ofFields_le 1033 (by decide) fun item hitem => ?_).trans
    (by simp [items])
  simp only [items, List.mem_cons, List.not_mem_nil, or_false, Option.some.injEq] at hitem
  rcases hitem with rfl | hitem | hitem | hitem
  · exact (Item.length_uint_le _).trans (by decide)
  · exact length_optional_le ((Item.length_ofInt64_le _).trans (by decide)) hitem
  · exact length_optional_le (Item.length_ofText_le h) hitem
  · exact length_optional_le ((Item.length_ofInt64_le _).trans (by decide)) hitem

theorem FieldRecord.length_toItem_le {f : FieldRecord} (hname : f.name.Short)
    (hvalue : f.value.str.Short) : f.toItem.encode.length ≤ 2 ^ 17 := by
  rw [toItem_eq_ofFields]
  refine (Item.length_ofFields_le (2 ^ 14) (by decide) fun item hitem => ?_).trans
    (by simp [items])
  simp only [items, List.mem_cons, List.not_mem_nil, or_false, Option.some.injEq] at hitem
  rcases hitem with rfl | rfl
  · exact (Item.length_ofText_le hname).trans (by decide)
  · exact ValueRecord.length_toItem_le hvalue

theorem ObjectRecord.length_toItem_le {o : ObjectRecord} (hname : o.className.Short)
    (hslots : ListStorable (fun v => v.str.Short) o.slots)
    (helements : ListStorable (fun v => v.str.Short) o.elements) :
    o.toItem.encode.length ≤ 2 ^ 36 := by
  rw [toItem_eq_ofFields]
  refine (Item.length_ofFields_le (9 + maxLength * 2 ^ 14) (by decide) fun item hitem => ?_).trans
    (by simp [items, maxLength])
  simp only [items, List.mem_cons, List.not_mem_nil, or_false, Option.some.injEq] at hitem
  rcases hitem with rfl | hitem | hitem | hitem
  · exact (Item.length_ofText_le hname).trans (by decide)
  · exact length_optionalList_le hslots.limited
      (fun v hv => ValueRecord.length_toItem_le (hslots.members v hv)) hitem
  · refine length_optional_le ?_ hitem
    cases o.indexed <;> decide
  · exact length_optionalList_le helements.limited
      (fun v hv => ValueRecord.length_toItem_le (helements.members v hv)) hitem

theorem SubgraphEntry.length_toItem_le {e : SubgraphEntry} (h : e.className.Short) :
    e.toItem.encode.length ≤ 2 ^ 14 := by
  rw [toItem_eq_ofFields]
  refine (Item.length_ofFields_le 1033 (by decide) fun item hitem => ?_).trans (by simp [items])
  simp only [items, List.mem_cons, List.not_mem_nil, or_false, Option.some.injEq] at hitem
  rcases hitem with rfl | rfl | rfl | rfl | rfl
  · exact Item.length_ofText_le h
  · exact (Item.length_uint_le _).trans (by decide)
  · exact (Item.length_uint_le _).trans (by decide)
  · exact (Item.length_uint_le _).trans (by decide)
  · exact (Item.length_ofInt64_le _).trans (by decide)

theorem ModuleRecord.length_toItem_le {m : ModuleRecord} (h : m.Short) :
    m.toItem.encode.length ≤ 2 ^ 30 := by
  rw [toItem_eq_ofFields]
  refine (Item.length_ofFields_le (9 + maxLength * 1033) (by decide) fun item hitem => ?_).trans
    (by simp [items, maxLength])
  simp only [items, List.mem_cons, List.not_mem_nil, or_false, Option.some.injEq] at hitem
  rcases hitem with rfl | rfl | hitem
  · exact (Item.length_ofText_le h.name).trans (by decide)
  · exact (Item.length_ofText_le h.loader).trans (by decide)
  · exact length_optionalList_le h.packages.limited
      (fun t ht => Item.length_ofText_le (h.packages.members t ht)) hitem

/-- A directory with short texts. -/
theorem Directory.length_encode_le {d : Directory}
    (hbuild : (buildToItem d.build).encode.length ≤ 2 ^ 14)
    (hmodules : ListStorable ModuleRecord.Short d.modules)
    (hclasses : ListStorable Text.Short d.classes)
    (hentries : ListStorable (fun e => e.className.Short) d.subgraphs) :
    d.encode.length ≤ 2 ^ 52 := by
  rw [encode, toItem_eq_ofFields]
  refine (Item.length_ofFields_le (9 + maxLength * 2 ^ 30) (by decide) fun item hitem => ?_).trans
    (by simp [items, maxLength])
  simp only [items, List.mem_cons, List.not_mem_nil, or_false, Option.some.injEq] at hitem
  rcases hitem with rfl | rfl | hitem | hitem | hitem
  · exact hbuild.trans (by decide)
  · exact (Item.length_ofInt64_le _).trans (by decide)
  · exact length_optionalList_le hmodules.limited
      (fun m hm => ModuleRecord.length_toItem_le (hmodules.members m hm)) hitem
  · exact length_optionalList_le hclasses.limited
      (fun t ht => (Item.length_ofText_le (hclasses.members t ht)).trans (by decide)) hitem
  · exact length_optionalList_le hentries.limited
      (fun e he => (SubgraphEntry.length_toItem_le (hentries.members e he)).trans (by decide)) hitem

end Image

/-! ### Graphs -/

/-- A value without a long text. -/
def Value.Short : Value → Prop
  | .str s => s.Short
  | _ => True

instance : DecidablePred Value.Short := fun v =>
  match v with
  | .str s => inferInstanceAs (Decidable s.Short)
  | .nil | .int _ | .bool _ | .obj _ => .isTrue trivial

theorem Value.Short.numbered {v : Value} (h : v.Short) (found : List ObjectId) :
    (ValueRecord.numbered found v).str.Short := by
  cases v with
  | str s => exact h
  | nil => exact Nat.zero_le _
  | int n => exact Nat.zero_le _
  | bool b => exact Nat.zero_le _
  | obj o => exact Nat.zero_le _

theorem Image.listStorable_short {vs : List Value} (found : List ObjectId)
    (hlength : vs.length ≤ maxLength) (hvs : ∀ v ∈ vs, v.Short) :
    ListStorable (fun v : ValueRecord => v.str.Short)
      (presentList (vs.map (ValueRecord.numbered found))) := by
  constructor
  · rw [getD_presentList, List.length_map]
    exact hlength
  · intro r hr
    rw [getD_presentList] at hr
    obtain ⟨v, hv, rfl⟩ := List.mem_map.1 hr
    exact (hvs v hv).numbered found

namespace Machine

/-- The graph behind some static fields of a class has no long text. -/
structure GraphShort (m : Machine) (c : ClassId) (names : List Text) : Prop where
  className : (m.className c).Short
  fields : ∀ name ∈ names, name.Short ∧ (m.static c name).Short
  objects : ∀ o, m.Reaches (names.map (m.static c)) o →
    (m.classNameOf o).Short ∧ ∀ v ∈ (m.objectAt o).contents, v.Short

section Graphs

variable {m : Machine} {c : ClassId} {names : List Text} {found : List ObjectId} {s : Subgraph}

theorem GraphShort.length_objectRecord_le (h : m.GraphShort c names) (hg : m.GraphStorable c names)
    {o : ObjectId} (ho : m.Reaches (names.map (m.static c)) o) :
    (m.objectRecord found o).toItem.encode.length ≤ 2 ^ 36 := by
  obtain ⟨hname, hcontents⟩ := h.objects o ho
  obtain ⟨-, hstorable⟩ := hg.objects o ho
  exact ObjectRecord.length_toItem_le hname
    (listStorable_short found hstorable.slots fun v hv =>
      hcontents v (List.mem_append_left _ hv))
    (listStorable_short found hstorable.elements fun v hv =>
      hcontents v (List.mem_append_right _ hv))

/-- **The record of a graph with short texts.** -/
theorem Collected.length_encode_le (h : m.Collected c names found s) (hg : m.GraphStorable c names)
    (hshort : m.GraphShort c names) : s.encode.length ≤ 2 ^ 58 := by
  have hstorable := h.storable hg
  have hreach : ∀ o ∈ found, m.Reaches (names.map (m.static c)) o := fun o => (h.mem_found o).1
  have hfields : ∀ f ∈ s.fields.getD [], f.toItem.encode.length ≤ 2 ^ 36 := by
    rw [h.fields, getD_presentList]
    intro f hf
    obtain ⟨name, hname, rfl⟩ := List.mem_map.1 hf
    obtain ⟨hname, hvalue⟩ := hshort.fields name hname
    exact (FieldRecord.length_toItem_le hname (hvalue.numbered found)).trans (by decide)
  have hclasses : ∀ t ∈ s.classes.getD [], (Item.ofText t).encode.length ≤ 2 ^ 36 := by
    intro t ht
    obtain ⟨-, o, ho, rfl⟩ := (h.mem_classes t).1 ht
    exact (Item.length_ofText_le (hshort.objects o (hreach o ho)).1).trans (by decide)
  have hobjects : ∀ r ∈ s.objects.getD [], r.toItem.encode.length ≤ 2 ^ 36 := by
    rw [h.objects, getD_presentList]
    intro r hr
    obtain ⟨o, ho, rfl⟩ := List.mem_map.1 hr
    exact hshort.length_objectRecord_le hg (hreach o ho)
  rw [Subgraph.encode, Subgraph.toItem_eq_ofFields]
  refine (Item.length_ofFields_le (9 + maxLength * 2 ^ 36) (by decide) fun item hitem => ?_).trans
    (by simp [Subgraph.items, maxLength])
  simp only [Subgraph.items, List.mem_cons, List.not_mem_nil, or_false, Option.some.injEq] at hitem
  rcases hitem with rfl | rfl | hitem | hitem
  · rw [h.className]
    exact (Item.length_ofText_le hshort.className).trans (by decide)
  · have hlimited := hstorable.fields.limited
    rw [Subgraph.fieldsItem]
    cases hs : s.fields with
    | none => decide
    | some fields =>
      rw [hs] at hfields hlimited
      exact Item.length_arrayOf_le hlimited hfields
  · exact length_optionalList_le hstorable.classes.limited hclasses hitem
  · exact length_optionalList_le hstorable.objects.limited hobjects hitem

end Graphs

end Machine

/-! ### Archives -/

namespace Writer

theorem length_layOut_le {subgraphs : List (Text × Subgraph)} {limit : Nat} (offset : Nat)
    (h : ∀ named ∈ subgraphs, named.2.encode.length ≤ limit) :
    (layOut offset subgraphs).2.length ≤ subgraphs.length * limit := by
  induction subgraphs generalizing offset with
  | nil => simp [layOut]
  | cons named rest ih =>
    obtain ⟨hnamed, hrest⟩ := List.forall_mem_cons.1 h
    have hlength := ih (offset + named.2.encode.length) hrest
    rw [layOut_cons, List.length_append, List.length_cons, Nat.succ_mul]
    omega

/-- **An archive of a few graphs with short texts can be addressed.** -/
theorem length_encode_lt {w : Writer} (hbuild : (buildToItem w.build).encode.length ≤ 2 ^ 14)
    (hmodules : ListStorable ModuleRecord.Short (some w.modules))
    (hlimited : (Text.sortedUnique w.classes).length ≤ maxLength)
    (hnames : ∀ name ∈ w.classes, name.Short) (hfew : w.subgraphs.entries.length ≤ 32)
    (hsubgraphs : ∀ named ∈ w.subgraphs.entries, named.1.Short ∧ named.2.encode.length ≤ 2 ^ 58) :
    w.encode.length < 2 ^ 64 := by
  have hdirectory : w.directory.encode.length ≤ 2 ^ 52 := by
    refine Directory.length_encode_le hbuild ⟨?_, fun m hm => ?_⟩ ⟨?_, fun name hname => ?_⟩
      ⟨?_, fun e he => ?_⟩
    · rw [directory, getD_presentList, w.sortedModules_perm.length_eq]
      exact hmodules.limited
    · rw [directory, getD_presentList, w.sortedModules_perm.mem_iff] at hm
      exact hmodules.members m hm
    · rw [directory, getD_presentList]
      exact hlimited
    · rw [directory, getD_presentList, Text.mem_sortedUnique] at hname
      exact hnames name hname
    · rw [directory, getD_presentList, ← (located_layOut 0 _).length_eq]
      exact hfew.trans (by decide)
    · rw [directory, getD_presentList] at he
      obtain ⟨named, hnamed, hentry⟩ := exists_mem_of_forall₂ (located_layOut 0 _) he
      rw [hentry.className]
      exact (hsubgraphs named hnamed).1
  have hheap : w.archive.heap.length ≤ w.subgraphs.entries.length * 2 ^ 58 :=
    length_layOut_le 0 fun named hnamed => (hsubgraphs named hnamed).2
  rw [length_encode_eq, headerSize]
  omega

end Writer

end ClassSharing
