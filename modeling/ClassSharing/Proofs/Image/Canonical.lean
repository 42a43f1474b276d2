import ClassSharing.Proofs.Cbor.Bounds
import ClassSharing.Proofs.Image.Exactness
import ClassSharing.Proofs.Text.Utf8
import Mathlib

/-!
# Canonical forms of archived records

A record has many spellings and one encoding. The decoder takes every spelling: keys in any order,
as numbers or as their decimal texts, with entries that it does not know, texts and lists in pieces
up to a break, tags around anything, and null for whatever is missing. The encoder has an answer for
every record, but the answer can be read back only for a record that can be stored.

So what has to be shown is that no spelling, however wild, leads out of the records that can be
stored. Two facts are needed about a spelling and no more. The item that was read is bounded by the
input (`Cbor.Item.Bounded`), which limits all lists and all lengths, and a text in valid chunks is
valid (`Text.isUtf8_flatten`), so the check of each chunk is enough.

## Main results

* `Image.Subgraph.storable_of_decode?`, `Image.Directory.storable_of_decode?`: what is decoded can
  be stored
* `Image.Subgraph.encode_trimmed`, `Image.Directory.encode_trimmed`: absent lists are spelled like
  empty ones
* `Image.decoded_records_canonical`: decoding and encoding lead to the canonical form of every
  spelling
-/

namespace ClassSharing

namespace Cbor

open Image

variable {size : Nat}

/-! ### Contents of bounded items -/

theorem mem_of_ofItems? {items : List Item} {record : Record}
    (h : Record.ofItems? items = some record) : ∀ entry ∈ record, entry.2 ∈ items := by
  induction items using Record.ofItems?.induct generalizing record with
  | case1 =>
    obtain rfl := Option.some.inj h
    simp
  | case2 => cases h
  | case3 key value rest selector entries hrest hkey ih =>
    rw [Record.ofItems?, hkey, hrest] at h
    obtain rfl := Option.some.inj h
    refine List.forall_mem_cons.2 ⟨by simp, fun entry hentry => ?_⟩
    exact List.mem_cons_of_mem _ (List.mem_cons_of_mem _ (ih hrest entry hentry))
  | case4 key value rest hneither ih =>
    rw [Record.ofItems?] at h
    split at h
    · rename_i selector entries hkey hrest
      exact (hneither selector entries hkey hrest).elim
    · cases h

/-- The values of a record are members of the map that it was read from, under whatever tags. -/
theorem Item.Bounded.of_toRecord? {item : Item} {record : Record} (h : item.Bounded size)
    (hrecord : item.toRecord? = some record) : ∀ entry ∈ record, entry.2.Bounded size := by
  induction h with
  | map limited members ih =>
    rw [toRecord?] at hrecord
    split at hrecord
    · rename_i found hfound
      obtain ⟨-, hsame⟩ := Option.ite_none_right_eq_some.1 hrecord
      obtain rfl := Option.some.inj hsame
      exact fun entry hentry => members _ (mem_of_ofItems? hfound entry hentry)
    · cases hrecord
  | tag number inner ih =>
    rw [toRecord?] at hrecord
    exact ih (Option.ite_none_right_eq_some.1 hrecord).2
  | simple number =>
    rw [toRecord?] at hrecord
    obtain rfl := Option.some.inj (Option.ite_none_right_eq_some.1 hrecord).2
    simp
  | _ => cases hrecord

/-- A list that is read has as many members as the array that it was read from. -/
theorem Item.Bounded.of_toItems? {item : Item} {items : List Item} (h : item.Bounded size)
    (hitems : item.toItems? = some (some items)) :
    items.length ≤ maxLength ∧ ∀ member ∈ items, member.Bounded size := by
  induction h with
  | array limited members ih =>
    rw [toItems?] at hitems
    obtain rfl := Option.some.inj (Option.some.inj hitems)
    exact ⟨limited, members⟩
  | tag number inner ih =>
    rw [toItems?] at hitems
    exact ih (Option.ite_none_right_eq_some.1 hitems).2
  | simple number =>
    rw [toItems?] at hitems
    cases Option.some.inj (Option.ite_none_right_eq_some.1 hitems).2
  | _ => cases hitems

/-- A text that is read can be stored: each chunk is valid and all of them were in the input. -/
theorem Item.Bounded.storable_of_toText? {item : Item} {t : Text} (hsize : size < 2 ^ 64)
    (h : item.Bounded size) (htext : item.toText? = some t) : t.Storable := by
  induction h with
  | text sized =>
    rw [toText?] at htext
    obtain ⟨hvalid, hsame⟩ := Option.ite_none_right_eq_some.1 htext
    obtain rfl := Option.some.inj hsame
    exact ⟨Text.isUtf8_flatten (List.all_eq_true.1 hvalid), Nat.lt_of_le_of_lt sized hsize⟩
  | tag number inner ih =>
    rw [toText?] at htext
    exact ih (Option.ite_none_right_eq_some.1 htext).2
  | simple number =>
    rw [toText?] at htext
    obtain rfl := Option.some.inj (Option.ite_none_right_eq_some.1 htext).2
    decide
  | _ => cases htext

theorem forall_of_mapM_eq_some {α β : Type} {read : α → Option β} {p : β → Prop} {xs : List α}
    {ys : List β} (hmember : ∀ x ∈ xs, ∀ y, read x = some y → p y) (h : xs.mapM read = some ys) :
    ys.length = xs.length ∧ ∀ y ∈ ys, p y := by
  induction xs generalizing ys with
  | nil =>
    obtain rfl := Option.some.inj h
    simp
  | cons x xs ih =>
    rw [List.mapM_cons] at h
    obtain ⟨y, hy, hrest⟩ := Option.bind_eq_some_iff.1 h
    obtain ⟨others, hothers, hsame⟩ := Option.bind_eq_some_iff.1 hrest
    obtain rfl := Option.some.inj hsame
    obtain ⟨hlength, hall⟩ := ih (fun x hx => hmember x (List.mem_cons_of_mem _ hx)) hothers
    exact ⟨by rw [List.length_cons, List.length_cons, hlength],
      List.forall_mem_cons.2 ⟨hmember x List.mem_cons_self y hy, hall⟩⟩

/-- A list that is read can be stored if its members can. -/
theorem Item.Bounded.storable_of_toList? {α : Type} {storable : α → Prop} {read : Item → Option α}
    {item : Item} {xs : Option (List α)} (h : item.Bounded size)
    (hmember : ∀ {member : Item} {x : α}, member.Bounded size → read member = some x → storable x)
    (hlist : Item.toList? read item = some xs) : ListStorable storable xs := by
  rw [toList?] at hlist
  split at hlist
  · cases hlist
  · obtain rfl := Option.some.inj hlist
    exact ⟨Nat.zero_le _, by simp⟩
  · rename_i items hitems
    obtain ⟨ys, hys, rfl⟩ := Option.map_eq_some_iff.1 hlist
    obtain ⟨hlimit, hbounded⟩ := h.of_toItems? hitems
    obtain ⟨hlength, hall⟩ :=
      forall_of_mapM_eq_some (fun x hx y hy => hmember (hbounded x hx) hy) hys
    exact ⟨Nat.le_trans (Nat.le_of_eq hlength) hlimit, hall⟩

/-- **A field of a record** is its default or was read from a bounded item. -/
theorem Record.of_read {α : Type} {record : Record} {n : Nat} {default x : α}
    {read : Item → Option α} {p : α → Prop} (hbounded : ∀ entry ∈ record, entry.2.Bounded size)
    (hdefault : p default) (hitem : ∀ {item : Item}, item.Bounded size → read item = some x → p x)
    (h : record.read n default read = some x) : p x := by
  rw [Record.read] at h
  split at h
  · rename_i item hfield
    obtain ⟨entry, hfound, rfl⟩ := Option.map_eq_some_iff.1 hfield
    exact hitem (hbounded entry (List.mem_of_find?_eq_some hfound)) h
  · rwa [← Option.some.inj h]

end Cbor

namespace Image

open Cbor (Item Record)

/-! ### Records that were decoded

Each field of a record is read from a bounded item or is the default, and the defaults can be
stored, so one line for each text, list and inner record is left. -/

section Decoding

variable {size : Nat} {item : Item}

theorem storable_empty : Text.empty.Storable := by decide

theorem listStorable_none {α : Type} (storable : α → Prop) : ListStorable storable none :=
  ⟨Nat.zero_le _, by simp⟩

/-- A text in a record that was read. -/
theorem storable_of_read_text (hsize : size < 2 ^ 64) {record : Record} {n : Nat} {t : Text}
    (hbounded : ∀ entry ∈ record, entry.2.Bounded size)
    (h : record.read n Text.empty Item.toText? = some t) : t.Storable :=
  Record.of_read hbounded storable_empty (fun hitem => hitem.storable_of_toText? hsize) h

/-- A list in a record that was read. -/
theorem storable_of_read_list {α : Type} {storable : α → Prop} {read : Item → Option α}
    {record : Record} {n : Nat} {xs : Option (List α)}
    (hbounded : ∀ entry ∈ record, entry.2.Bounded size)
    (hmember : ∀ {member : Item} {x : α}, member.Bounded size → read member = some x → storable x)
    (h : record.read n none (Item.toList? read) = some xs) : ListStorable storable xs :=
  Record.of_read hbounded (listStorable_none storable)
    (fun hitem => hitem.storable_of_toList? hmember) h

theorem ValueRecord.storable_of_ofItem? (hsize : size < 2 ^ 64) {v : ValueRecord}
    (h : item.Bounded size) (hread : ofItem? item = some v) : v.Storable := by
  simp only [ofItem?, Option.bind_eq_bind, Option.bind_eq_some_iff] at hread
  obtain ⟨r, hr, tag, -, int, -, str, hstr, ref, -, hsame⟩ := hread
  obtain rfl := Option.some.inj hsame
  exact storable_of_read_text hsize (h.of_toRecord? hr) hstr

theorem FieldRecord.storable_of_ofItem? (hsize : size < 2 ^ 64) {f : FieldRecord}
    (h : item.Bounded size) (hread : ofItem? item = some f) : f.Storable := by
  simp only [ofItem?, Option.bind_eq_bind, Option.bind_eq_some_iff] at hread
  obtain ⟨r, hr, name, hname, value, hvalue, hsame⟩ := hread
  obtain rfl := Option.some.inj hsame
  have hbounded := h.of_toRecord? hr
  have hnil : ValueRecord.nil.Storable := storable_empty
  exact ⟨storable_of_read_text hsize hbounded hname,
    Record.of_read hbounded hnil (ValueRecord.storable_of_ofItem? hsize) hvalue⟩

theorem ObjectRecord.storable_of_ofItem? (hsize : size < 2 ^ 64) {o : ObjectRecord}
    (h : item.Bounded size) (hread : ofItem? item = some o) : o.Storable := by
  simp only [ofItem?, Option.bind_eq_bind, Option.bind_eq_some_iff] at hread
  obtain ⟨r, hr, className, hname, slots, hslots, indexed, -, elements, helements, hsame⟩ := hread
  obtain rfl := Option.some.inj hsame
  have hbounded := h.of_toRecord? hr
  exact ⟨storable_of_read_text hsize hbounded hname,
    storable_of_read_list hbounded (ValueRecord.storable_of_ofItem? hsize) hslots,
    storable_of_read_list hbounded (ValueRecord.storable_of_ofItem? hsize) helements⟩

theorem Subgraph.storable_of_ofItem? (hsize : size < 2 ^ 64) {s : Subgraph}
    (h : item.Bounded size) (hread : ofItem? item = some s) : s.Storable := by
  simp only [ofItem?, Option.bind_eq_bind, Option.bind_eq_some_iff] at hread
  obtain ⟨r, hr, className, hname, fields, hfields, classes, hclasses, objects, hobjects, hsame⟩ :=
    hread
  obtain rfl := Option.some.inj hsame
  have hbounded := h.of_toRecord? hr
  exact ⟨storable_of_read_text hsize hbounded hname,
    storable_of_read_list hbounded (FieldRecord.storable_of_ofItem? hsize) hfields,
    storable_of_read_list hbounded (fun ht => ht.storable_of_toText? hsize) hclasses,
    storable_of_read_list hbounded (ObjectRecord.storable_of_ofItem? hsize) hobjects⟩

theorem buildStorable_of_buildOfItem? (hsize : size < 2 ^ 64) {b : Build}
    (h : item.Bounded size) (hread : buildOfItem? item = some b) : BuildStorable b := by
  simp only [buildOfItem?, Option.bind_eq_bind, Option.bind_eq_some_iff] at hread
  obtain ⟨r, hr, release, hrelease, debugLevel, hdebug, vmInfo, hinfo, major, -, hsame⟩ := hread
  obtain rfl := Option.some.inj hsame
  have hbounded := h.of_toRecord? hr
  exact ⟨storable_of_read_text hsize hbounded hrelease, storable_of_read_text hsize hbounded hdebug,
    storable_of_read_text hsize hbounded hinfo⟩

theorem ModuleRecord.storable_of_ofItem? (hsize : size < 2 ^ 64) {m : ModuleRecord}
    (h : item.Bounded size) (hread : ofItem? item = some m) : m.Storable := by
  simp only [ofItem?, Option.bind_eq_bind, Option.bind_eq_some_iff] at hread
  obtain ⟨r, hr, name, hname, loader, hloader, packages, hpackages, hsame⟩ := hread
  obtain rfl := Option.some.inj hsame
  have hbounded := h.of_toRecord? hr
  exact ⟨storable_of_read_text hsize hbounded hname, storable_of_read_text hsize hbounded hloader,
    storable_of_read_list hbounded (fun ht => ht.storable_of_toText? hsize) hpackages⟩

theorem SubgraphEntry.storable_of_ofItem? (hsize : size < 2 ^ 64) {e : SubgraphEntry}
    (h : item.Bounded size) (hread : ofItem? item = some e) : e.Storable := by
  simp only [ofItem?, Option.bind_eq_bind, Option.bind_eq_some_iff] at hread
  obtain ⟨r, hr, className, hname, offset, -, length, -, checksum, -, objects, -, hsame⟩ := hread
  obtain rfl := Option.some.inj hsame
  exact storable_of_read_text hsize (h.of_toRecord? hr) hname

theorem Directory.storable_of_ofItem? (hsize : size < 2 ^ 64) {d : Directory}
    (h : item.Bounded size) (hread : ofItem? item = some d) : d.Storable := by
  simp only [ofItem?, Option.bind_eq_bind, Option.bind_eq_some_iff] at hread
  obtain ⟨r, hr, build, hbuild, seed, -, modules, hmodules, classes, hclasses, entries, hentries,
    hsame⟩ := hread
  obtain rfl := Option.some.inj hsame
  have hbounded := h.of_toRecord? hr
  exact ⟨Record.of_read hbounded (by decide) (buildStorable_of_buildOfItem? hsize) hbuild,
    storable_of_read_list hbounded (ModuleRecord.storable_of_ofItem? hsize) hmodules,
    storable_of_read_list hbounded (fun ht => ht.storable_of_toText? hsize) hclasses,
    storable_of_read_list hbounded (SubgraphEntry.storable_of_ofItem? hsize) hentries⟩

end Decoding

/-- **Every subgraph that is decoded can be stored**, however it was spelled. -/
theorem Subgraph.storable_of_decode? {bs : Bytes} {s : Subgraph} (haddress : bs.length < 2 ^ 64)
    (h : decode? bs = some s) : s.Storable := by
  obtain ⟨item, hitem, hread⟩ := Option.bind_eq_some_iff.1 h
  exact storable_of_ofItem? haddress (Cbor.bounded_of_parse hitem) hread

/-- **Every directory that is decoded can be stored**, however it was spelled. -/
theorem Directory.storable_of_decode? {bs : Bytes} {d : Directory} (haddress : bs.length < 2 ^ 64)
    (h : decode? bs = some d) : d.Storable := by
  obtain ⟨item, hitem, hread⟩ := Option.bind_eq_some_iff.1 h
  exact storable_of_ofItem? haddress (Cbor.bounded_of_parse hitem) hread

/-! ### The canonical form -/

theorem optionalList_trimList {α : Type} {toItem : α → Item} {trim : α → α} (xs : Option (List α))
    (h : ∀ x, toItem (trim x) = toItem x) :
    optionalList toItem (trimList trim xs) = optionalList toItem xs := by
  have hitems : (toItem ∘ trim) = toItem := funext h
  rw [optionalList, optionalList, trimList, getD_presentList, arrayOf, arrayOf, List.map_map,
    hitems, List.isEmpty_map]

theorem optionalList_trimList_id {α : Type} {toItem : α → Item} (xs : Option (List α)) :
    optionalList toItem (trimList id xs) = optionalList toItem xs :=
  optionalList_trimList xs fun _ => rfl

theorem ObjectRecord.toItem_trimmed (o : ObjectRecord) : o.trimmed.toItem = o.toItem := by
  rw [toItem_eq_ofFields, toItem_eq_ofFields, items, items]
  simp only [trimmed, optionalList_trimList_id]

/-- Absent lists are spelled like empty ones. -/
theorem Subgraph.encode_trimmed (s : Subgraph) : s.trimmed.encode = s.encode := by
  have hobjects := optionalList_trimList s.objects ObjectRecord.toItem_trimmed
  rw [encode, encode, toItem_eq_ofFields, toItem_eq_ofFields, items, items]
  simp only [trimmed, fieldsItem, hobjects, optionalList_trimList_id]

theorem ModuleRecord.toItem_trimmed (m : ModuleRecord) : m.trimmed.toItem = m.toItem := by
  rw [toItem_eq_ofFields, toItem_eq_ofFields, items, items]
  simp only [trimmed, optionalList_trimList_id]

/-- Absent lists are spelled like empty ones. -/
theorem Directory.encode_trimmed (d : Directory) : d.trimmed.encode = d.encode := by
  have hmodules := optionalList_trimList d.modules ModuleRecord.toItem_trimmed
  rw [encode, encode, toItem_eq_ofFields, toItem_eq_ofFields, items, items]
  simp only [trimmed, hmodules, optionalList_trimList_id]

/-- **Re-encoding canonicalizes.** Whatever spelling a subgraph or a directory was decoded from, all
of its texts are valid and all of its lists are within the limit, so its encoding is read back, with
the empty lists absent that are left out. What is read back has the same encoding, and is the same
record exactly if no such list was empty. The input is no longer than a process can address. -/
theorem decoded_records_canonical {bs : Bytes} (haddress : bs.length < 2 ^ 64) :
    (∀ s, Subgraph.decode? bs = some s →
      s.Storable ∧ Subgraph.decode? s.encode = some s.trimmed ∧ s.trimmed.encode = s.encode ∧
        s.trimmed.fields = s.fields ∧
        (s.trimmed = s ↔ s.classes ≠ some [] ∧ s.objects ≠ some [] ∧
          ∀ o ∈ s.objects.getD [], o.slots ≠ some [] ∧ o.elements ≠ some [])) ∧
    (∀ d, Directory.decode? bs = some d →
      d.Storable ∧ Directory.decode? d.encode = some d.trimmed ∧ d.trimmed.encode = d.encode ∧
        (d.trimmed = d ↔ (d.modules ≠ some [] ∧ ∀ m ∈ d.modules.getD [], m.packages ≠ some []) ∧
          d.classes ≠ some [] ∧ d.subgraphs ≠ some [])) := by
  refine ⟨fun s h => ?_, fun d h => ?_⟩
  · have hs := Subgraph.storable_of_decode? haddress h
    exact ⟨hs, Subgraph.decode?_encode hs, s.encode_trimmed, rfl, s.trimmed_eq_self_iff⟩
  · have hd := Directory.storable_of_decode? haddress h
    exact ⟨hd, Directory.decode?_encode hd, d.encode_trimmed, d.trimmed_eq_self_iff⟩

/-- A subgraph without lengths in front: an entry with an unknown key, an empty list of objects up
to a break, the name under a key that is a text and in two chunks, and tagged null for the fields
under a key in more bytes than needed. -/
def looseSubgraph : Bytes :=
  [0xBF, 0x18, 0x63, 0xF5, 0x04, 0x9F, 0xFF, 0x61, 0x31, 0x7F, 0x61, 0x41, 0x62, 0xC3, 0xA9, 0xFF,
    0x18, 0x02, 0xC6, 0xF6, 0xFF]

/-- A directory with its entries in descending order, a key that is a text, and a big number for the
version of the build. -/
def looseDirectory : Bytes :=
  [0xA3, 0x05, 0x80, 0x61, 0x33, 0x81, 0xBF, 0x01, 0x61, 0x6D, 0xFF, 0x01, 0xA1, 0x04, 0xC2, 0x41,
    0x07]

theorem loose_records_canonical :
    Subgraph.decode? looseSubgraph = some ⟨"Aé", none, none, some []⟩ ∧
      Subgraph.encode ⟨"Aé", none, none, some []⟩ = [0xA2, 1, 0x63, 0x41, 0xC3, 0xA9, 2, 0xF6] ∧
      Subgraph.decode? (Subgraph.encode ⟨"Aé", none, none, some []⟩)
        = some ⟨"Aé", none, none, none⟩ ∧
      Directory.decode? looseDirectory
        = some ⟨⟨"", "", "", 7⟩, 0, some [⟨"m", "", none⟩], none, some []⟩ ∧
      Directory.decode? (Directory.encode
          ⟨⟨"", "", "", 7⟩, 0, some [⟨"m", "", none⟩], none, some []⟩)
        = some ⟨⟨"", "", "", 7⟩, 0, some [⟨"m", "", none⟩], none, none⟩ := by
  have hs : Subgraph.decode? looseSubgraph = some ⟨"Aé", none, none, some []⟩ := by
    cbv
  have hd : Directory.decode? looseDirectory
      = some ⟨⟨"", "", "", 7⟩, 0, some [⟨"m", "", none⟩], none, some []⟩ := by
    cbv
  have hsubgraph := (@decoded_records_canonical looseSubgraph (by decide)).1 _ hs
  have hdirectory := (@decoded_records_canonical looseDirectory (by decide)).2 _ hd
  exact ⟨hs, by decide, hsubgraph.2.1, hd, hdirectory.2.1⟩

end Image

end ClassSharing
