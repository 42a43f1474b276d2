import ClassSharing.Proofs.Image.Writer

/-!
# Damage to the heap region

Records are checked when they are asked for, one by one, so damage to a record should be the loss of
one class. That needs two facts. The records that a writer lays out do not share a byte: their
entries tile the heap region from its beginning to the end of the file. And the reader looks at
nothing but the bytes of an entry: opening reads only what lies before the heap region, and a record
is read from its own range.

The damage is arbitrary. Any bytes of one record may have become any others, as long as the length
of the file is the same.

## Main definitions

* `DiffersWithin`: byte strings that differ in a range at most
* `Archive.Tiles`: entries that lie one behind the other
* `Archive.recordStart`, `Archive.recordStop`: where the record of an entry lies in the file

## Main results

* `Archive.decode_of_differsWithin`: an archive opens whatever has become of its heap region
* `Archive.subgraph_of_differsWithin`: the records outside the damage are read as before
* `Writer.tiles_layOut`: the heap region of a writer
* `Writer.damage_is_local`: the three together, for everything that a writer writes
-/

namespace ClassSharing

open Image

/-! ### Bytes that changed in a range -/

/-- Byte strings of the same length that agree outside a range. -/
structure DiffersWithin (start stop : Nat) (data data' : Bytes) : Prop where
  length : data'.length = data.length
  outside : ∀ i, i < start ∨ stop ≤ i → data'[i]? = data[i]?

namespace DiffersWithin

variable {start stop : Nat} {data data' : Bytes}

theorem drop {first : Nat} (h : DiffersWithin (first + start) (first + stop) data data') :
    DiffersWithin start stop (data.drop first) (data'.drop first) where
  length := by rw [List.length_drop, List.length_drop, h.length]
  outside := by
    intro i hi
    rw [List.getElem?_drop, List.getElem?_drop]
    exact h.outside _ (by omega)

/-- A range outside the damage is as it was. -/
theorem slice_eq (h : DiffersWithin start stop data data') {first count : Nat}
    (hapart : first + count ≤ start ∨ stop ≤ first) :
    (data'.drop first).take count = (data.drop first).take count := by
  refine List.ext_getElem? fun i => ?_
  by_cases hi : i < count
  · rw [List.getElem?_take_of_lt hi, List.getElem?_take_of_lt hi, List.getElem?_drop,
      List.getElem?_drop]
    exact h.outside _ (by omega)
  · rw [List.getElem?_take_eq_none (by omega), List.getElem?_take_eq_none (by omega)]

theorem set (data : Bytes) {i : Nat} (hstart : start ≤ i) (hstop : i < stop) (b : UInt8) :
    DiffersWithin start stop data (data.set i b) where
  length := List.length_set
  outside := fun j hj => List.getElem?_set_ne (by omega)

end DiffersWithin

namespace Archive

/-! ### Entries one behind the other -/

/-- Entries lie one behind the other, from a position of the heap region to another. -/
def Tiles : Nat → List SubgraphEntry → Nat → Prop
  | start, [], stop => start = stop
  | start, e :: rest, stop => e.offset.toNat = start ∧ Tiles (start + e.length.toNat) rest stop

/-- The ranges of two entries have no byte in common. -/
def Apart (e e' : SubgraphEntry) : Prop :=
  e.offset.toNat + e.length.toNat ≤ e'.offset.toNat ∨
    e'.offset.toNat + e'.length.toNat ≤ e.offset.toNat

theorem Tiles.bounds {start stop : Nat} {entries : List SubgraphEntry}
    (h : Tiles start entries stop) :
    start ≤ stop ∧ ∀ e ∈ entries,
      start ≤ e.offset.toNat ∧ e.offset.toNat + e.length.toNat ≤ stop := by
  induction entries generalizing start with
  | nil => exact ⟨Nat.le_of_eq h, by simp⟩
  | cons e rest ih =>
    obtain ⟨hoffset, hrest⟩ := h
    obtain ⟨hle, hbounds⟩ := ih hrest
    refine ⟨by omega, List.forall_mem_cons.2 ⟨by omega, fun e' he' => ?_⟩⟩
    have := hbounds e' he'
    omega

instance : Std.Symm Apart := ⟨fun _ _ h => h.symm⟩

theorem Tiles.pairwise_apart {start stop : Nat} {entries : List SubgraphEntry}
    (h : Tiles start entries stop) : entries.Pairwise Apart := by
  induction entries generalizing start with
  | nil => exact .nil
  | cons e rest ih =>
    obtain ⟨hoffset, hrest⟩ := h
    refine .cons (fun later hlater => Or.inl ?_) (ih hrest)
    rw [hoffset]
    exact (hrest.bounds.2 later hlater).1

/-- **Entries that tile a region do not overlap.** -/
theorem Tiles.apart {start stop : Nat} {entries : List SubgraphEntry}
    (h : Tiles start entries stop) {e e' : SubgraphEntry} (he : e ∈ entries) (he' : e' ∈ entries)
    (hne : e ≠ e') : Apart e e' :=
  h.pairwise_apart.forall he he' hne

/-! ### The reader and the damage -/

/-- Where the record of an entry begins in the file. -/
def recordStart (a : Archive) (e : SubgraphEntry) : Nat :=
  (directoryEnd a.header).toNat + e.offset.toNat

/-- Where the record of an entry ends in the file. -/
def recordStop (a : Archive) (e : SubgraphEntry) : Nat := a.recordStart e + e.length.toNat

/-- The bytes of a file in the range of an entry. -/
def recordIn (a : Archive) (e : SubgraphEntry) (data : Bytes) : Bytes :=
  (data.drop (a.recordStart e)).take e.length.toNat

/-- **An archive opens whatever has become of its heap region.** Nothing else of it changes. -/
theorem decode_of_differsWithin {data data' : Bytes} {a : Archive} (ho : decode data = .ok a)
    {start stop : Nat}
    (h : DiffersWithin ((directoryEnd a.header).toNat + start)
      ((directoryEnd a.header).toNat + stop) data data') :
    decode data' = .ok { a with heap := data'.drop (directoryEnd a.header).toNat } := by
  obtain ⟨hh, hfits, hw, hopen⟩ := checks_of_decode ho
  have hend := toNat_directoryEnd_of_not_wraps hw
  have hheader : Header.decode data' = .ok a.header := by
    obtain ⟨-, -, hversion, hkind, -⟩ := Header.decode_eq_ok_iff.1 hh
    have htake : data'.take headerSize = a.header.encode := by
      have hslice : (data'.drop 0).take headerSize = (data.drop 0).take headerSize :=
        h.slice_eq (by omega)
      rw [List.drop_zero, List.drop_zero] at hslice
      rw [hslice, Header.take_eq_encode hh]
    rw [← List.take_append_drop headerSize data', htake]
    exact Header.decode_encode hversion hkind _
  have hdirectory : (data'.drop headerSize).take a.header.directoryLength.toNat
      = (data.drop headerSize).take a.header.directoryLength.toNat :=
    h.slice_eq (by omega)
  rw [← h.length] at hfits
  rw [decode_of_header hheader, if_neg hfits, if_neg hw, hdirectory]
  obtain ⟨d, hsum, hd, hkind, ha⟩ := openDirectory_eq_ok_iff.1 hopen
  refine openDirectory_eq_ok_iff.2 ⟨d, hsum, hd, hkind, ?_⟩
  rw [ha, hend]

theorem heap_of_decode {data : Bytes} {a : Archive} (ho : decode data = .ok a) :
    a.heap = data.drop (directoryEnd a.header).toNat := by
  obtain ⟨-, -, hw, hopen⟩ := checks_of_decode ho
  obtain ⟨d, -, -, -, ha⟩ := openDirectory_eq_ok_iff.1 hopen
  rw [toNat_directoryEnd_of_not_wraps hw]
  exact congrArg heap ha

theorem closed_of_decode {data : Bytes} {a : Archive} (ho : decode data = .ok a) :
    a.closed = false := by
  obtain ⟨-, -, -, hopen⟩ := checks_of_decode ho
  obtain ⟨d, -, -, -, ha⟩ := openDirectory_eq_ok_iff.1 hopen
  exact congrArg closed ha

/-- The record of an entry is a range of the file. -/
theorem recordIn_of_recordBytes? {data bytes : Bytes} {a : Archive} {e : SubgraphEntry}
    (hheap : a.heap = data.drop (directoryEnd a.header).toNat)
    (h : a.recordBytes? e = some bytes) : a.recordIn e data = bytes := by
  rw [recordBytes?] at h
  split at h
  · cases h
  · rw [recordIn, recordStart, ← List.drop_drop, ← hheap]
    exact Option.some.inj h

/-- A record outside the damage is as it was. -/
theorem recordBytes?_of_differsWithin {a : Archive} {heap : Bytes} {e e' : SubgraphEntry}
    (h : DiffersWithin e.offset.toNat (e.offset.toNat + e.length.toNat) a.heap heap)
    (hapart : Apart e' e) : recordBytes? { a with heap := heap } e' = a.recordBytes? e' := by
  simp only [recordBytes?, h.length, h.slice_eq hapart]

/-- **The records outside the damage are read as before**, if the entries tile the heap region. -/
theorem subgraph_of_differsWithin {a : Archive} {heap : Bytes} {e : SubgraphEntry}
    (htiles : Tiles 0 a.entries a.heap.length) (he : e ∈ a.entries)
    (h : DiffersWithin e.offset.toNat (e.offset.toNat + e.length.toNat) a.heap heap)
    {other : Text} (hother : other ≠ e.className) :
    subgraph { a with heap := heap } other = a.subgraph other := by
  have hentry : entry? { a with heap := heap } other = a.entry? other := rfl
  simp only [subgraph, hentry]
  cases hfound : a.entry? other with
  | none => rfl
  | some e' =>
    have hname : e'.className = other := by simpa using List.find?_some hfound
    have hmem : e' ∈ a.entries := List.mem_reverse.1 (List.mem_of_find?_eq_some hfound)
    have hne : e' ≠ e := fun heq => hother (by rw [← hname, heq])
    simp only [readEntry, recordBytes?_of_differsWithin h (htiles.apart hmem he hne)]

/-- A record with another checksum than its entry is refused. -/
theorem subgraph_of_checksum_ne {a : Archive} {e : SubgraphEntry} {data : Bytes}
    (hopen : a.closed = false) (hheap : a.heap = data.drop (directoryEnd a.header).toNat)
    (hentry : a.entry? e.className = some e)
    (hsum : Checksum.sum (a.recordIn e data) ≠ e.checksum) :
    ∃ fault, a.subgraph e.className = .error fault ∧ fault.kinds = [.corruptRecord] := by
  rw [subgraph, hopen, hentry]
  simp only [readEntry, Bool.false_eq_true, if_false]
  cases hbytes : a.recordBytes? e with
  | none => exact ⟨_, rfl, rfl⟩
  | some bytes =>
    rw [recordIn_of_recordBytes? hheap hbytes] at hsum
    exact ⟨_, if_pos hsum, rfl⟩

end Archive

namespace Writer

open Archive (Tiles)

/-- **The heap region of a writer** is tiled by its entries. -/
theorem tiles_layOut {offset : Nat} {subgraphs : List (Text × Subgraph)}
    (h : offset + (layOut offset subgraphs).2.length < 2 ^ 64) :
    Tiles offset (layOut offset subgraphs).1 (offset + (layOut offset subgraphs).2.length) := by
  induction subgraphs generalizing offset with
  | nil => rfl
  | cons named rest ih =>
    obtain ⟨name, s⟩ := named
    rw [layOut_cons, List.length_append, ← Nat.add_assoc] at h ⊢
    have hoffset : offset.toUInt64.toNat = offset := toNat_toUInt64 (by omega)
    have hlength : s.encode.length.toUInt64.toNat = s.encode.length := toNat_toUInt64 (by omega)
    refine ⟨hoffset, ?_⟩
    -- the next entry begins where this one ends, computed from the entry and not from the record
    show Tiles (offset + s.encode.length.toUInt64.toNat) _ _
    rw [hlength]
    exact ih h

section Damage

variable {w : Writer}

/-- What is accepted is the archive that was meant. -/
theorem eq_archive_of_decode (hsound : w.Sound) (haddress : w.encode.length < 2 ^ 64) {a : Archive}
    (hdecode : Archive.decode w.encode = .ok a) : a = w.archive := by
  have hkind : w.kind = staticKind ∨ w.kind = dynamicKind := by
    obtain ⟨hheader, -⟩ := Archive.checks_of_decode hdecode
    rw [encode, List.append_assoc] at hheader
    exact Header.kind_of_decode_encode hheader
  exact ((decode_encode_eq_ok_iff hkind hsound haddress).1 hdecode).2

/-- The records that are written have the checksums of their entries. -/
theorem checksum_recordIn (haddress : w.encode.length < 2 ^ 64) {e : SubgraphEntry}
    (hdecode : Archive.decode w.encode = .ok w.archive) (he : e ∈ w.archive.entries) :
    Checksum.sum (w.archive.recordIn e w.encode) = e.checksum := by
  rw [entries_archive] at he
  obtain ⟨named, -, hlocated⟩ := exists_mem_of_forall₂ (located_layOut 0 w.subgraphs.entries) he
  have hbytes := Located.recordBytes? (a := w.archive) hlocated (length_heap_lt haddress)
  rw [Archive.recordIn_of_recordBytes? (Archive.heap_of_decode hdecode) hbytes, hlocated.checksum]

theorem tiles_archive (haddress : w.encode.length < 2 ^ 64) :
    Tiles 0 w.archive.entries w.archive.heap.length := by
  have hheap : 0 + (layOut 0 w.subgraphs.entries).2.length < 2 ^ 64 := by
    rw [Nat.zero_add]
    exact length_heap_lt haddress
  have htiles := tiles_layOut hheap
  rw [Nat.zero_add] at htiles
  rw [entries_archive]
  exact htiles

/-- What damage to one record does. -/
theorem damage_archive (haddress : w.encode.length < 2 ^ 64) (hascending : w.subgraphs.Ascending)
    (hdecode : Archive.decode w.encode = .ok w.archive) {e : SubgraphEntry}
    (he : e ∈ w.archive.entries) {data : Bytes}
    (h : DiffersWithin (w.archive.recordStart e) (w.archive.recordStop e) w.encode data) :
    ∃ a, Archive.decode data = .ok a ∧
      (∀ other, other ≠ e.className → a.subgraph other = w.archive.subgraph other) ∧
      (Checksum.sum (w.archive.recordIn e data) ≠ e.checksum →
        ∃ fault, a.subgraph e.className = .error fault ∧ fault.kinds = [.corruptRecord]) := by
  rw [Archive.recordStop, Archive.recordStart, Nat.add_assoc] at h
  have hopens := Archive.decode_of_differsWithin hdecode h
  have hheap := h.drop
  rw [← Archive.heap_of_decode hdecode] at hheap
  refine ⟨_, hopens, fun other hother => ?_, fun hsum => ?_⟩
  · exact Archive.subgraph_of_differsWithin (tiles_archive haddress) he hheap hother
  · have hentry := Archive.entry?_eq_some (nodup_entries_archive hascending) he rfl
    exact Archive.subgraph_of_checksum_ne (Archive.closed_of_decode hopens) rfl hentry hsum

end Damage

/-- **Damage to a record is the loss of one class.** In whatever a writer writes and the reader
accepts, the records tile the heap region up to the end of the file. If any bytes of one record
become others, the archive still opens, every other class is found as before, and the class of the
record is refused unless the checksum of the record is still the same. -/
theorem damage_is_local {kind : UInt8} {build : Build} {seed : Int64} {calls : List Call}
    {a : Archive} (haddress : ((new kind build seed 0).callAll calls).encode.length < 2 ^ 64)
    (hdecode : Archive.decode ((new kind build seed 0).callAll calls).encode = .ok a) :
    (Tiles 0 a.entries a.heap.length ∧
      (Archive.directoryEnd a.header).toNat + a.heap.length
        = ((new kind build seed 0).callAll calls).encode.length ∧
      a.entries.map SubgraphEntry.className = ((new kind build seed 0).callAll calls).archived) ∧
      ∀ e ∈ a.entries, ∀ data,
        DiffersWithin (a.recordStart e) (a.recordStop e)
          ((new kind build seed 0).callAll calls).encode data →
        ∃ a', Archive.decode data = .ok a' ∧
          (∀ other, other ≠ e.className → a'.subgraph other = a.subgraph other) ∧
          (Checksum.sum (a.recordIn e data)
              ≠ Checksum.sum (a.recordIn e ((new kind build seed 0).callAll calls).encode) →
            ∃ fault, a'.subgraph e.className = .error fault ∧ fault.kinds = [.corruptRecord]) := by
  have hsound := sound_callAll kind build seed calls
  have hascending := ascending_callAll kind build seed calls
  obtain rfl := eq_archive_of_decode hsound haddress hdecode
  refine ⟨⟨tiles_archive haddress, ?_, ?_⟩, fun e he data h => ?_⟩
  · obtain ⟨directoryBytes, hparts⟩ := Archive.parts_of_decode hdecode
    have hlength := congrArg List.length hparts.layout
    rw [List.length_append, List.length_append, Header.length_encode] at hlength
    rw [hparts.stop, hlength]
  · rw [entries_archive, classNames_layOut]
    rfl
  · rw [checksum_recordIn haddress hdecode he]
    exact damage_archive haddress hascending hdecode he h

/-- The only entry of the sample. Its record is the whole heap region. -/
theorem exists_entries_sampleWriter :
    ∃ e, sampleWriter.archive.entries = [e] ∧ e.className = "app::Node" ∧ e.offset.toNat = 0 ∧
      e.length.toNat = sampleWriter.archive.heap.length ∧ 0 < e.length.toNat ∧
      Checksum.sum (sampleWriter.archive.heap.set 0 0)
        ≠ Checksum.sum sampleWriter.archive.heap := by
  rw [entries_archive]
  refine ⟨_, rfl, ?_⟩
  decide +kernel

theorem exists_subgraph_sampleWriter :
    ∃ s, sampleWriter.archive.subgraph "app::Node" = .ok s := by
  have hascending : sampleWriter.subgraphs.Ascending := ascending_callAll _ _ _ _
  have hsound : sampleWriter.Sound := sound_callAll _ _ _ _
  obtain ⟨s, hs⟩ : ∃ s, sampleWriter.subgraphs.get? "app::Node" = some s := ⟨_, rfl⟩
  have hmem := (Table.mem_entries_iff hascending).2 hs
  refine ⟨s.trimmed, ?_⟩
  rw [subgraph_archive hsound storable_sampleWriter.addressable hascending hs,
    if_pos (storable_sampleWriter.subgraphs.members _ hmem)]

/-- The first byte of the record is cleared: the class that was found before is lost. -/
theorem damage_is_local_sampleWriter :
    ∃ a a', Archive.decode sampleWriter.encode = .ok a ∧ (∃ s, a.subgraph "app::Node" = .ok s) ∧
      Archive.decode (sampleWriter.encode.set (Archive.directoryEnd a.header).toNat 0) = .ok a' ∧
      (∀ other : Text, other ≠ "app::Node" → a'.subgraph other = a.subgraph other) ∧
      ∃ fault, a'.subgraph "app::Node" = .error fault ∧ fault.kinds = [.corruptRecord] := by
  have hdecode : Archive.decode sampleWriter.encode = .ok sampleWriter.archive :=
    decode_encode_eq (Or.inl rfl) (sound_callAll _ _ _ _) storable_sampleWriter
  have hheap := Archive.heap_of_decode hdecode
  obtain ⟨e, hentries, hname, hoffset, hlength, hpos, hsum⟩ := exists_entries_sampleWriter
  have he : e ∈ sampleWriter.archive.entries := by
    rw [hentries]
    exact List.mem_singleton_self e
  have hstart : sampleWriter.archive.recordStart e
      = (Archive.directoryEnd sampleWriter.archive.header).toNat := by
    rw [Archive.recordStart, hoffset, Nat.add_zero]
  have hrecord : sampleWriter.archive.recordIn e sampleWriter.encode
      = sampleWriter.archive.heap := by
    rw [Archive.recordIn, hstart, ← hheap, hlength, List.take_length]
  have hdamaged : sampleWriter.archive.recordIn e (sampleWriter.encode.set
      (Archive.directoryEnd sampleWriter.archive.header).toNat 0)
        = sampleWriter.archive.heap.set 0 0 := by
    rw [Archive.recordIn, hstart, List.drop_set, if_neg (Nat.lt_irrefl _), ← hheap, Nat.sub_self,
      hlength]
    exact List.take_of_length_le (by rw [List.length_set])
  obtain ⟨a', hdecode', hothers, hlost⟩ :=
    (damage_is_local storable_sampleWriter.addressable hdecode).2 e he _
      (.set sampleWriter.encode (Nat.le_of_eq hstart) (by rw [Archive.recordStop]; omega) 0)
  rw [hname] at hothers
  rw [hname, ← sampleWriter, hrecord, hdamaged] at hlost
  exact ⟨_, a', hdecode, exists_subgraph_sampleWriter, hdecode', hothers, hlost hsum⟩

end Writer

end ClassSharing
