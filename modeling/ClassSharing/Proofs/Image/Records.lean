import ClassSharing.Proofs.Image.Damage
import ClassSharing.Proofs.Image.InPlace

/-!
# Reading records of arbitrary archives

The directory of an archive is as untrusted as the rest of it. Its entries may name a class several
times, overlap, lie past the heap region, or have a range whose end wraps around in 64 bits. Reading
a record takes three partial steps on such input: it looks up a position in a table made when the
archive was opened, takes the entry at this position, and cuts a range out of the heap region. The
latter two panic outside their bounds, and what keeps the last one inside are two comparisons of
wrapped sums.

Here reading is spelled out with these steps (`Archive.readRecord`), and it is shown to be the total
function that `Archive.subgraph` is. Which entries are found, and with which record, follows from
the latter.

## Main definitions

* `Archive.index`, `Archive.sliceHeap`, `Archive.readRecord`: reading in partial steps
* `Archive.Records`: the record that an entry stands for
* `Archive.Use`: what is done with an opened archive

## Main results

* `Archive.get?_index`: of several entries of a class the table has the position of the last
* `Archive.readRecord_eq`: reading does not panic
* `Archive.readEntry_eq_ok_iff`: the records that are returned
* `Archive.records_read_exactly`: the answers to every class name, until and after the archive is
  closed
-/

namespace ClassSharing

open Image

namespace Archive

/-! ### Reading in partial steps -/

/-- The positions of the entries by class name. A later entry replaces an earlier one. -/
def index (entries : List SubgraphEntry) : Table Nat :=
  Table.ofList (entries.zipIdx.map fun e => (e.1.className, e.2))

/-- The heap region from one position up to another. -/
def sliceHeap (a : Archive) (low high : UInt64) : Except Panic Bytes :=
  if a.heap.length < high.toNat ∨ high < low then
    .error (.sliceOutOfRange low.toNat high.toNat)
  else .ok ((a.heap.take high.toNat).drop low.toNat)

/-- What is checked of the bytes of a record. -/
def checkBytes (className : Text) (e : SubgraphEntry) (data : Bytes) : Except Fault Subgraph :=
  if Checksum.sum data ≠ e.checksum then
    .error (.of (.record (.checksum className (Checksum.sum data) e.checksum)))
  else match Subgraph.decode? data with
    | none => .error (.of (.record .undecodable))
    | some s =>
      if s.className ≠ className then .error (.of (.record (.names className s.className)))
      else .ok s

/-- What an entry is refused for before its range is looked at. Both comparisons are of the sum as
it is computed in 64 bits. -/
def PastHeap (a : Archive) (e : SubgraphEntry) : Prop :=
  a.heap.length < (e.offset + e.length).toNat ∨ e.offset + e.length < e.offset

instance (a : Archive) (e : SubgraphEntry) : Decidable (a.PastHeap e) :=
  inferInstanceAs (Decidable (_ ∨ _))

/-- Reads the record of an entry: two comparisons, then a range of the heap region. -/
def readRange (a : Archive) (className : Text) (e : SubgraphEntry) : Except Failure Subgraph :=
  if a.PastHeap e then .error (.fault (.of (.record (.pastHeap className))))
  else match a.sliceHeap e.offset (e.offset + e.length) with
    | .error p => .error (.panic p)
    | .ok data => faulting id (checkBytes className e data)

/-- Reads the record of a class, by the position of its entry. -/
def readRecord (a : Archive) (className : Text) : Except Failure Subgraph :=
  if a.closed then .error (.fault (.of .closed))
  else match (index a.entries).get? className with
    | none => .error (.fault (.of (.noSubgraph className)))
    | some i => match a.entries[i]? with
      | none => .error (.panic (.indexOutOfRange i a.entries.length))
      | some e => a.readRange className e

/-! ### The table of positions -/

theorem index_append_singleton (entries : List SubgraphEntry) (e : SubgraphEntry) :
    index (entries ++ [e]) = (index entries).insert e.className entries.length := by
  rw [index, index, List.zipIdx_append, List.map_append, Table.ofList, Table.ofList,
    List.foldl_append]
  simp

/-- **The table leads to the last entry of a class**, and never past the entries. -/
theorem get?_index (entries : List SubgraphEntry) (className : Text) :
    match entries.reverse.find? fun e => e.className = className with
    | none => (index entries).get? className = none
    | some e => ∃ i, (index entries).get? className = some i ∧ entries[i]? = some e := by
  induction entries using List.reverseRecOn with
  | nil => rfl
  | append_singleton entries last ih =>
    rw [index_append_singleton, Table.get?_insert, List.reverse_append, List.reverse_singleton,
      List.singleton_append, List.find?_cons]
    by_cases hlast : last.className = className
    · simp only [hlast, decide_true, if_pos]
      exact ⟨_, rfl, List.getElem?_concat_length⟩
    · have hother : ¬ className = last.className := fun h => hlast h.symm
      simp only [hlast, decide_false, if_neg hother]
      cases hfound : entries.reverse.find? fun e => e.className = className with
      | none =>
        rw [hfound] at ih
        exact ih
      | some e =>
        rw [hfound] at ih
        obtain ⟨i, hi, he⟩ := ih
        have hlt : i < entries.length := (List.getElem?_eq_some_iff.1 he).1
        exact ⟨i, hi, by rw [List.getElem?_append_left hlt, he]⟩

/-! ### The range of an entry -/

/-- **The two comparisons are those of the range.** An entry passes both of them exactly if its
range ends inside the heap region without wrapping around. -/
theorem not_pastHeap_iff {a : Archive} {e : SubgraphEntry} :
    ¬ a.PastHeap e ↔
      e.offset.toNat + e.length.toNat < 2 ^ 64 ∧
        e.offset.toNat + e.length.toNat ≤ a.heap.length := by
  have hoffset := e.offset.toNat_lt
  have hlength := e.length.toNat_lt
  rw [PastHeap, UInt64.lt_iff_toNat_lt, UInt64.toNat_add]
  omega

theorem recordBytes?_eq (a : Archive) (e : SubgraphEntry) :
    a.recordBytes? e = if a.PastHeap e then none
      else some ((a.heap.drop e.offset.toNat).take e.length.toNat) := by
  refine if_congr ?_ rfl rfl
  rw [Bool.or_eq_true, decide_eq_true_iff, decide_eq_true_iff, PastHeap]

theorem recordBytes?_eq_some_iff {a : Archive} {e : SubgraphEntry} {data : Bytes} :
    a.recordBytes? e = some data ↔
      (e.offset.toNat + e.length.toNat < 2 ^ 64 ∧
        e.offset.toNat + e.length.toNat ≤ a.heap.length) ∧
      (a.heap.drop e.offset.toNat).take e.length.toNat = data := by
  rw [← not_pastHeap_iff, recordBytes?_eq]
  by_cases hpast : a.PastHeap e <;> simp [hpast]

/-- The range of an entry that passed the comparisons can be cut out. -/
theorem sliceHeap_of_not_pastHeap {a : Archive} {e : SubgraphEntry} (h : ¬ a.PastHeap e) :
    a.sliceHeap e.offset (e.offset + e.length)
      = .ok ((a.heap.drop e.offset.toNat).take e.length.toNat) := by
  have hstop : (e.offset + e.length).toNat = e.offset.toNat + e.length.toNat := by
    rw [UInt64.toNat_add, Nat.mod_eq_of_lt (not_pastHeap_iff.1 h).1]
  rw [PastHeap] at h
  rw [sliceHeap, if_neg h, hstop, List.drop_take, Nat.add_sub_cancel_left]

/-! ### No panic -/

theorem readEntry_eq_of_bytes {a : Archive} {e : SubgraphEntry} {data : Bytes}
    (h : a.recordBytes? e = some data) (className : Text) :
    a.readEntry className e = checkBytes className e data := by
  rw [readEntry, h]
  rfl

theorem readRange_eq (a : Archive) (className : Text) (e : SubgraphEntry) :
    a.readRange className e = faulting id (a.readEntry className e) := by
  by_cases hpast : a.PastHeap e
  · have hnone : a.recordBytes? e = none := by rw [recordBytes?_eq, if_pos hpast]
    rw [readRange, if_pos hpast, readEntry, hnone]
    rfl
  · have hbytes := recordBytes?_eq_some_iff.2 ⟨not_pastHeap_iff.1 hpast, rfl⟩
    rw [readRange, if_neg hpast, sliceHeap_of_not_pastHeap hpast, readEntry_eq_of_bytes hbytes]

/-- **Reading does not panic**, whatever the directory says. -/
theorem readRecord_eq (a : Archive) (className : Text) :
    a.readRecord className = faulting id (a.subgraph className) := by
  rw [readRecord, subgraph]
  cases a.closed with
  | true => rfl
  | false =>
    have hindex := get?_index a.entries className
    simp only [Bool.false_eq_true, if_false]
    rw [ entry?]
    cases hfound : a.entries.reverse.find? fun e => e.className = className with
    | none =>
      rw [hfound] at hindex
      rw [hindex]
      rfl
    | some e =>
      rw [hfound] at hindex
      obtain ⟨i, hi, he⟩ := hindex
      rw [hi]
      simp only [he]
      exact readRange_eq a className e

/-! ### The records that are returned -/

/-- The record that an entry stands for: the bytes in its range, which lies inside the heap region,
have its checksum and decode to a subgraph of its class. -/
structure Records (a : Archive) (e : SubgraphEntry) (s : Subgraph) : Prop where
  /-- The end of the range is a number of 64 bits. -/
  addressable : e.offset.toNat + e.length.toNat < 2 ^ 64
  inside : e.offset.toNat + e.length.toNat ≤ a.heap.length
  checksum : Checksum.sum ((a.heap.drop e.offset.toNat).take e.length.toNat) = e.checksum
  decoded : Subgraph.decode? ((a.heap.drop e.offset.toNat).take e.length.toNat) = some s
  named : s.className = e.className

theorem checkBytes_eq_ok_iff {className : Text} {e : SubgraphEntry} {data : Bytes} {s : Subgraph} :
    checkBytes className e data = .ok s ↔
      Checksum.sum data = e.checksum ∧ Subgraph.decode? data = some s ∧
        s.className = className := by
  rw [checkBytes]
  constructor
  · intro h
    split at h
    · cases h
    · rename_i hsum
      split at h
      · cases h
      · rename_i s' hdecoded
        split at h
        · cases h
        · rename_i hname
          cases h
          exact ⟨not_not.1 hsum, hdecoded, not_not.1 hname⟩
  · rintro ⟨hsum, hdecoded, hname⟩
    rw [if_neg (not_not.2 hsum), hdecoded]
    exact if_neg (not_not.2 hname)

theorem kinds_of_checkBytes {className : Text} {e : SubgraphEntry} {data : Bytes} {fault : Fault}
    (h : checkBytes className e data = .error fault) : fault.kinds = [.corruptRecord] := by
  rw [checkBytes] at h
  split at h
  · cases h
    rfl
  · split at h
    · cases h
      rfl
    · split at h
      · cases h
        rfl
      · cases h

/-- **Exactly the record of the entry is returned.** -/
theorem readEntry_eq_ok_iff {a : Archive} {e : SubgraphEntry} {s : Subgraph} :
    a.readEntry e.className e = .ok s ↔ a.Records e s := by
  cases hbytes : a.recordBytes? e with
  | none =>
    constructor
    · intro h
      rw [readEntry, hbytes] at h
      cases h
    · intro h
      rw [recordBytes?_eq_some_iff.2 ⟨⟨h.addressable, h.inside⟩, rfl⟩] at hbytes
      cases hbytes
  | some data =>
    rw [readEntry_eq_of_bytes hbytes, checkBytes_eq_ok_iff]
    obtain ⟨⟨haddressable, hinside⟩, rfl⟩ := recordBytes?_eq_some_iff.1 hbytes
    constructor
    · rintro ⟨hsum, hdecoded, hnamed⟩
      exact ⟨haddressable, hinside, hsum, hdecoded, hnamed⟩
    · intro h
      exact ⟨h.checksum, h.decoded, h.named⟩

/-- Every refusal of a record is of one kind. -/
theorem kinds_of_readEntry {a : Archive} {className : Text} {e : SubgraphEntry} {fault : Fault}
    (h : a.readEntry className e = .error fault) : fault.kinds = [.corruptRecord] := by
  cases hbytes : a.recordBytes? e with
  | none =>
    rw [readEntry, hbytes] at h
    cases h
    rfl
  | some data =>
    rw [readEntry_eq_of_bytes hbytes] at h
    exact kinds_of_checkBytes h

/-! ### Entries of a class -/

theorem entry?_eq_none_iff {a : Archive} {className : Text} :
    a.entry? className = none ↔ ∀ e ∈ a.entries, e.className ≠ className := by
  rw [ entry?, List.find?_eq_none]
  simp

/-- The entry of a class is the last one of its name. -/
theorem entry?_of_last {a : Archive} {before after : List SubgraphEntry} {e : SubgraphEntry}
    (hentries : a.entries = before ++ e :: after)
    (hlast : ∀ later ∈ after, later.className ≠ e.className) :
    a.entry? e.className = some e := by
  have hnone : (after.reverse.find? fun later => later.className = e.className) = none := by
    rw [List.find?_eq_none]
    simpa using hlast
  rw [ entry?, hentries, List.reverse_append, List.reverse_cons, List.append_assoc,
    List.find?_append, hnone]
  simp

/-! ### Opened archives -/

/-- What is done with an opened archive. -/
inductive Use where
  | find (className : Text)
  | close
deriving DecidableEq

/-- The archive after it was used. -/
def use (a : Archive) : Use → Archive
  | .find _ => a
  | .close => a.close

/-- The archive after it was used several times. -/
def useAll (a : Archive) (uses : List Use) : Archive := uses.foldl use a

/-- Closing is the only use that matters, and one time is as good as several. -/
theorem useAll_eq (a : Archive) (uses : List Use) :
    a.useAll uses = if .close ∈ uses then a.close else a := by
  induction uses generalizing a with
  | nil => rfl
  | cons first rest ih =>
    cases first with
    | find className =>
      have hrest : Use.close ∈ Use.find className :: rest ↔ Use.close ∈ rest := by simp
      rw [if_congr hrest rfl rfl]
      exact ih a
    | close =>
      rw [if_pos (List.mem_cons_self ..)]
      refine (ih a.close).trans ?_
      split <;> rfl

/-- What a class name is answered with: a refusal without an entry, and otherwise the record of the
last entry or a refusal of this record. -/
structure Answers (a : Archive) (className : Text) (answer : Except Fault Subgraph) : Prop where
  missing : (∃ fault, answer = .error fault ∧ .noSubgraph ∈ fault.kinds) ↔
    ∀ e ∈ a.entries, e.className ≠ className
  corrupt : (∃ e ∈ a.entries, e.className = className) →
    ∀ fault, answer = .error fault → fault.kinds = [.corruptRecord]
  /-- Exactly the record of the last entry is found. -/
  found : ∀ before e after, a.entries = before ++ e :: after → e.className = className →
    (∀ later ∈ after, later.className ≠ className) → ∀ s, answer = .ok s ↔ a.Records e s

theorem answers_subgraph {a : Archive} (hopen : a.closed = false) (className : Text) :
    a.Answers className (a.subgraph className) := by
  rw [subgraph, hopen]
  simp only [Bool.false_eq_true, if_false]
  cases hentry : a.entry? className with
  | none =>
    have hnone := entry?_eq_none_iff.1 hentry
    refine ⟨⟨fun _ => hnone, fun _ => ⟨_, rfl, List.mem_singleton_self _⟩⟩, ?_, ?_⟩
    · rintro ⟨e, hmem, hname⟩
      exact absurd hname (hnone e hmem)
    · intro before e after hentries hname
      exact absurd hname (hnone e (by rw [hentries]; simp))
  | some e =>
    have hname : e.className = className := by simpa using List.find?_some hentry
    have hmem : e ∈ a.entries := List.mem_reverse.1 (List.mem_of_find?_eq_some hentry)
    have hkinds : ∀ fault, a.readEntry className e = .error fault →
        fault.kinds = [.corruptRecord] := fun _ hf => kinds_of_readEntry hf
    refine ⟨⟨?_, fun hnone => absurd hname (hnone e hmem)⟩,
      fun _ => hkinds, ?_⟩
    · rintro ⟨fault, hf, hmissing⟩
      rw [hkinds fault hf] at hmissing
      cases List.mem_singleton.1 hmissing
    · rintro before e' after hentries rfl hlast s
      rw [entry?_of_last hentries hlast] at hentry
      obtain rfl := Option.some.inj hentry
      exact readEntry_eq_ok_iff

/-- **Reading from an opened archive is safe and exact.** In every archive that bytes were opened
as, with whatever directory, and for every class name, reading in partial steps does not panic.
Until the archive is closed the answer is the record of the last entry of that name, read from its
range of the heap region at the end of the bytes; an entry with no such record is refused as
corrupt, and only a name without an entry is refused as missing. Afterwards every name is refused.
-/
theorem records_read_exactly {data : Bytes} {a : Archive} (ho : decode data = .ok a)
    (uses : List Use) (className : Text) :
    (∀ p, (a.useAll uses).readRecord className ≠ .error (.panic p)) ∧
      (a.useAll uses).readRecord className = faulting id ((a.useAll uses).subgraph className) ∧
      (.close ∉ uses →
        (∃ directoryBytes, data = a.header.encode ++ directoryBytes ++ a.heap ∧
          Directory.decode? directoryBytes = some a.directory) ∧
        a.Answers className ((a.useAll uses).subgraph className)) ∧
      (.close ∈ uses → (a.useAll uses).subgraph className = .error (.of .closed)) := by
  refine ⟨fun p => ?_, readRecord_eq _ _, fun huses => ?_, fun huses => ?_⟩
  · rw [readRecord_eq]
    cases (a.useAll uses).subgraph className <;> exact fun h => nomatch h
  · obtain ⟨directoryBytes, hparts⟩ := parts_of_decode ho
    rw [useAll_eq, if_neg huses]
    exact ⟨⟨directoryBytes, hparts.layout, hparts.directory⟩,
      answers_subgraph (closed_of_decode ho) className⟩
  · rw [useAll_eq, if_pos huses]
    rfl

/-! ### A crafted archive -/

/-- The only record of a crafted archive. -/
def craftedRecord : Subgraph :=
  { className := "app::Found", fields := some [⟨"v", .ofInt 7⟩], classes := none, objects := none }

/-- Its directory: a range that wraps around to the second byte of the heap region, a range past the
heap region and one that is right for the same class, and an entry that shares its range with
another class. -/
def craftedDirectory : Directory :=
  { build := ⟨"1", "release", "vm", 21⟩
    seed := 42
    modules := none
    classes := none
    subgraphs := some
      [⟨"app::Wrapping", 0xFFFFFFFFFFFFFFFF, 2, Checksum.sum craftedRecord.encode, 0⟩,
        ⟨"app::Found", 0, 0xFFFF, Checksum.sum craftedRecord.encode, 0⟩,
        ⟨"app::Found", 0, craftedRecord.encode.length.toUInt64,
          Checksum.sum craftedRecord.encode, 0⟩,
        ⟨"app::Sharing", 0, craftedRecord.encode.length.toUInt64,
          Checksum.sum craftedRecord.encode, 0⟩] }

/-- Its header. -/
def craftedHeader : Header :=
  { version := formatVersion, kind := staticKind, flags := heapFlag
    directoryLength := craftedDirectory.encode.length.toUInt64
    directoryChecksum := Checksum.sum craftedDirectory.encode, baseChecksum := 0 }

/-- Its bytes. -/
def craftedBytes : Bytes :=
  craftedHeader.encode ++ craftedDirectory.encode ++ craftedRecord.encode

/-- What opening finds. -/
def craftedArchive : Archive :=
  { path := Text.empty, source := none, header := craftedHeader, directory := craftedDirectory
    heap := craftedRecord.encode, closed := false }

theorem decode_craftedBytes : decode craftedBytes = .ok craftedArchive := by
  have hstorable : craftedDirectory.Storable := by decide
  have hlength : craftedDirectory.encode.length < 1000 := by decide +kernel
  have hnonempty : 1 ≤ craftedDirectory.encode.length := Cbor.one_le_length_encode _
  have hstored : craftedHeader.directoryLength.toNat = craftedDirectory.encode.length :=
    toNat_toUInt64 (by omega)
  have hdecode := Directory.decode?_encode hstorable
  have hsum : Checksum.sum craftedDirectory.encode = craftedHeader.directoryChecksum := by
    rw [craftedHeader]
  rw [craftedBytes, decode_append _ rfl (Or.inl rfl) hstored hnonempty (by rw [headerSize]; omega)]
  exact openDirectory_eq_ok_iff.2
    ⟨craftedDirectory, hsum, hdecode, fun hkind => absurd hkind (by decide), rfl⟩

theorem records_craftedArchive :
    craftedArchive.Records ⟨"app::Found", 0, craftedRecord.encode.length.toUInt64,
      Checksum.sum craftedRecord.encode, 0⟩ craftedRecord where
  addressable := by decide +kernel
  inside := by decide +kernel
  checksum := by decide +kernel
  decoded := by
    have hstorable : craftedRecord.Storable := by decide
    have hslice : (craftedArchive.heap.drop 0).take craftedRecord.encode.length.toUInt64.toNat
        = craftedRecord.encode := by decide +kernel
    exact (congrArg _ hslice).trans (Subgraph.decode?_encode hstorable)
  named := rfl

/-- The class with a right entry behind a wrong one is found. The wrapping range passes for neither
a panic nor a record. -/
theorem records_read_exactly_craftedBytes :
    ∃ a, decode craftedBytes = .ok a ∧ a.subgraph "app::Found" = .ok craftedRecord ∧
      (∃ fault, a.subgraph "app::Wrapping" = .error fault ∧ fault.kinds = [.corruptRecord]) ∧
      (∃ fault, a.subgraph "app::Absent" = .error fault ∧ .noSubgraph ∈ fault.kinds) ∧
      (a.useAll [.find "app::Found", .close, .close]).subgraph "app::Found"
        = .error (.of .closed) := by
  obtain ⟨-, -, hfound, -⟩ := records_read_exactly decode_craftedBytes [] "app::Found"
  obtain ⟨-, -, hwrapping, -⟩ := records_read_exactly decode_craftedBytes [] "app::Wrapping"
  obtain ⟨-, -, habsent, -⟩ := records_read_exactly decode_craftedBytes [] "app::Absent"
  obtain ⟨-, -, -, hclosed⟩ := records_read_exactly decode_craftedBytes
    [.find "app::Found", .close, .close] "app::Found"
  refine ⟨_, decode_craftedBytes, ?_, ?_, ?_, hclosed (by decide)⟩
  · refine ((hfound (by decide)).2.found (craftedArchive.entries.take 2) _ [_] rfl rfl ?_ _).2
      records_craftedArchive
    decide
  · have hanswers := (hwrapping (by decide)).2
    cases hanswer : (craftedArchive.useAll []).subgraph "app::Wrapping" with
    | error fault =>
      exact ⟨fault, hanswer, hanswers.corrupt ⟨_, List.mem_cons_self .., rfl⟩ fault hanswer⟩
    | ok s =>
      have hrecords := (hanswers.found [] _ _ rfl rfl (by decide) s).1 hanswer
      exact absurd hrecords.addressable (by decide)
  · exact (habsent (by decide)).2.missing.2 (by decide)

end Archive

end ClassSharing
