import ClassSharing.Proofs.Image.Writer

/-!
# Dumps that cannot be read

A writer never refuses to write. It does not look at the texts that it has gathered and does not
count its lists, so it reports a class as archived whatever the bytes of its strings are. The reader
does look: a text that is not valid UTF-8, or a list past the limit, is refused. A dump can be read
exactly if the writer can be stored, and nothing that is reported while dumping says whether that is
so.

What is refused depends on where the text is. One in the directory (the build, a module, a class
name) closes the whole archive. One in a record loses the class of the record and no other.

## Main definitions

* `Writer.Readable`: the archive opens, and every class reported as archived is found in it

## Main results

* `Writer.readable_iff_storable`: which dumps can be read
* `Writer.unreadable_garbledWriter`: one that cannot
-/

namespace ClassSharing

open Image

namespace Writer

/-- The reader accepts what the writer writes, and finds the subgraph of every class that the writer
reports as archived. -/
def Readable (w : Writer) : Prop :=
  ∃ a, Archive.decode w.encode = .ok a ∧ ∀ name ∈ w.archived, ∃ s, a.subgraph name = .ok s

section Reading

variable {w : Writer}

/-- What has to be storable, by where it is written: in the directory, or in a record. -/
theorem storable_iff (hsound : w.Sound) (haddress : w.encode.length < 2 ^ 64) :
    w.Storable ↔ w.directory.Storable ∧ ∀ named ∈ w.subgraphs.entries, named.2.Storable := by
  constructor
  · intro h
    exact ⟨storable_directory hsound h, h.subgraphs.members⟩
  · rintro ⟨hdirectory, hrecords⟩
    obtain ⟨hbuild, hmodules, hnames, hlimited, hentries⟩ := storable_directory_iff.1 hdirectory
    exact ⟨hbuild, hmodules, hnames, hlimited, ⟨hentries.limited, hrecords⟩, haddress⟩

/-- An archive that is refused has a directory that cannot be understood. Its header is that of an
archive, and its checksums are right. -/
theorem decode_encode_of_not_storable (hkind : w.kind = staticKind ∨ w.kind = dynamicKind)
    (haddress : w.encode.length < 2 ^ 64) (h : ¬ w.directory.Storable) :
    Archive.decode w.encode = .error (.fault (.of (.directory .undecodable))) := by
  have hlength := length_directory_lt haddress
  have hnone : Directory.decode? w.directory.encode = none := by
    rw [Option.eq_none_iff_forall_ne_some]
    intro d hd
    exact h ((Directory.decode?_encode_eq_some_iff hlength).1 hd).1
  have hsum : Checksum.sum w.directory.encode
      = (w.header w.directory w.directory.encode).directoryChecksum := rfl
  rw [decode_encode hkind haddress, Archive.openDirectory, if_neg (not_not.2 hsum), hnone]

/-- The classes that are found in an archive are those whose records can be stored. -/
theorem forall_archived_iff (hsound : w.Sound) (haddress : w.encode.length < 2 ^ 64)
    (hascending : w.subgraphs.Ascending) :
    (∀ name ∈ w.archived, ∃ s, w.archive.subgraph name = .ok s)
      ↔ ∀ named ∈ w.subgraphs.entries, named.2.Storable := by
  rw [archived, Table.keys, List.forall_mem_map]
  refine forall₂_congr fun named hnamed => ?_
  have hget := (Table.mem_entries_iff hascending).1 hnamed
  rw [subgraph_archive hsound haddress hascending hget]
  by_cases hs : named.2.Storable
  · simp [hs]
  · simp [hs]

end Reading

/-- **Which dumps can be read.** Whatever a writer was asked for, what it writes can be read if and
only if all its texts are valid and all its lists are within the limits. An archive that opens has
every class whose record can be stored, and an archive that does not open is refused for its
directory. -/
theorem readable_iff_storable {kind : UInt8} {build : Build} {seed : Int64} {calls : List Call}
    (hkind : kind = staticKind ∨ kind = dynamicKind)
    (haddress : ((new kind build seed 0).callAll calls).encode.length < 2 ^ 64) :
    (((new kind build seed 0).callAll calls).Readable
        ↔ ((new kind build seed 0).callAll calls).Storable) ∧
      (∀ a, Archive.decode ((new kind build seed 0).callAll calls).encode = .ok a →
        ∀ name s, (gathered kind calls).get? name = some s →
          a.subgraph name
            = if s.Storable then .ok s else .error (.of (.record .undecodable))) ∧
      ((∀ a, Archive.decode ((new kind build seed 0).callAll calls).encode ≠ .ok a) →
        Archive.decode ((new kind build seed 0).callAll calls).encode
          = .error (.fault (.of (.directory .undecodable)))) := by
  have hsound := sound_callAll kind build seed calls
  have hascending := ascending_gathered kind calls
  obtain ⟨skipped, heq⟩ := callAll_new kind build seed calls
  rw [heq] at hsound haddress ⊢
  refine ⟨?_, fun a hdecode name s hs => ?_, fun hrefused => ?_⟩
  · rw [storable_iff hsound haddress, ← forall_archived_iff hsound haddress hascending, Readable]
    simp only [decode_encode_eq_ok_iff hkind hsound haddress]
    constructor
    · rintro ⟨a, ⟨hdirectory, rfl⟩, hfound⟩
      exact ⟨hdirectory, hfound⟩
    · rintro ⟨hdirectory, hfound⟩
      exact ⟨_, ⟨hdirectory, rfl⟩, hfound⟩
  · obtain ⟨-, rfl⟩ := (decode_encode_eq_ok_iff hkind hsound haddress).1 hdecode
    rw [subgraph_archive hsound haddress hascending hs,
      (of_mem_gathered ((Table.mem_entries_iff hascending).2 hs)).2.2]
  · refine decode_encode_of_not_storable hkind haddress fun hdirectory => ?_
    exact hrefused _ ((decode_encode_eq_ok_iff hkind hsound haddress).2 ⟨hdirectory, rfl⟩)

theorem readable_sampleWriter :
    sampleWriter.archived = (["app::Node"] : List Text) ∧ sampleWriter.encode.length < 2 ^ 64 ∧
      sampleWriter.Readable :=
  ⟨by decide, storable_sampleWriter.addressable,
    (readable_iff_storable (Or.inl rfl) storable_sampleWriter.addressable).1.2
      storable_sampleWriter⟩

/-! ### A dump that reports success and cannot be read -/

/-- A machine with an initialized class whose static field holds a string of one byte that is not
valid UTF-8. -/
def garbledMachine : Machine :=
  (Machine.new.addClass
    { name := "C", space := "", superclass := some Machine.objectClass, loader := some .boot
      instanceVariables := [], slotCount := 0, statics := ⟨[("v", .str ⟨[0xFF]⟩)]⟩
      initializer := .none, state := .ready }).2

theorem wellNamed_garbledMachine : garbledMachine.WellNamed :=
  Machine.wellNamed_addClass Machine.wellNamed_new _

/-- The call that asks for that field. -/
def garbledCalls : List Call :=
  [.archiveFields garbledMachine wellNamed_garbledMachine [⟨"C", ["v"]⟩]]

/-- The writer after this call. -/
def garbledWriter : Writer := (new staticKind ⟨"1", "release", "vm", 21⟩ 42 0).callAll garbledCalls

theorem sound_garbledWriter : garbledWriter.Sound := sound_callAll _ _ _ _

theorem storable_directory_garbledWriter : garbledWriter.directory.Storable := by
  refine storable_directory_iff.2 ⟨by decide, by decide, by decide, ?_, by decide⟩
  exact (Text.length_sortedUnique_le _).trans (by decide)

theorem addressable_garbledWriter : garbledWriter.encode.length < 2 ^ 64 := by
  have hmodules : garbledWriter.sortedModules = [] :=
    List.perm_nil.1 (sortedModules_perm garbledWriter)
  have hclasses : Text.sortedUnique garbledWriter.classes = [] :=
    Text.sortedUnique_eq (fun t => Iff.rfl) .nil
  rw [length_encode_eq, directory, hmodules, hclasses]
  decide +kernel

theorem subgraph_garbledWriter :
    garbledWriter.archive.subgraph "C" = .error (.of (.record .undecodable)) := by
  have hascending : garbledWriter.subgraphs.Ascending := ascending_callAll _ _ _ _
  obtain ⟨s, hs, hunstorable⟩ : ∃ s, garbledWriter.subgraphs.get? "C" = some s ∧ ¬ s.Storable :=
    ⟨_, rfl, by decide⟩
  rw [subgraph_archive sound_garbledWriter addressable_garbledWriter hascending hs,
    if_neg hunstorable]

/-- **Success does not mean readable.** The class is reported as archived and nothing as skipped,
and the archive opens, but the class is not found in it. -/
theorem unreadable_garbledWriter :
    garbledWriter.archived = (["C"] : List Text) ∧ garbledWriter.skipped.entries = [] ∧
      (∃ a, Archive.decode garbledWriter.encode = .ok a ∧
        a.subgraph "C" = .error (.of (.record .undecodable))) ∧ ¬ garbledWriter.Readable := by
  have harchived : garbledWriter.archived = (["C"] : List Text) := by decide
  have hdecode : Archive.decode garbledWriter.encode = .ok garbledWriter.archive :=
    (decode_encode_eq_ok_iff (Or.inl rfl) sound_garbledWriter addressable_garbledWriter).2
      ⟨storable_directory_garbledWriter, rfl⟩
  refine ⟨harchived, by decide, ⟨_, hdecode, subgraph_garbledWriter⟩, ?_⟩
  rintro ⟨a, ha, hfound⟩
  obtain rfl := Except.ok.inj (hdecode.symm.trans ha)
  obtain ⟨s, hs⟩ := hfound "C" (by rw [harchived]; exact List.mem_singleton_self _)
  rw [subgraph_garbledWriter] at hs
  cases hs

end Writer

end ClassSharing
