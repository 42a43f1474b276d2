import ClassSharing.Image.Archive
import ClassSharing.Proofs.Image.Header

/-!
# Opening arbitrary bytes

Nothing is known about a file before it is opened, so opening has to answer for every byte string.
It does, with one exception that the header can force: the end of the directory is computed in 64
bits, and a directory length within forty of `2 ^ 64` makes it wrap around to a position inside the
header. The end is then small enough to pass the comparison with the length of the file, and the
range from the end of the header up to it runs backwards.

## Main definitions

* `Archive.DirectoryWraps`: the directory lengths for which this happens
* `Archive.Parts`: how the bytes of an accepted archive are divided

## Main results

* `Archive.decode_eq_panic_iff`: opening panics exactly for the headers that wrap around
* `Archive.kinds_of_decode_eq_fault`: every other refusal is of one of five kinds
* `Archive.parts_of_decode`: what is accepted is a header, a directory with the header's checksum
  and a heap, and nothing else
* `Archive.decode_characterization`: the three together
-/

namespace ClassSharing

open Image

namespace Archive

/-! ### The end of the directory -/

/-- The end of the directory does not fit in 64 bits. -/
def DirectoryWraps (h : Header) : Prop := 2 ^ 64 ≤ headerSize + h.directoryLength.toNat

instance (h : Header) : Decidable (DirectoryWraps h) :=
  inferInstanceAs (Decidable (2 ^ 64 ≤ headerSize + h.directoryLength.toNat))

theorem toNat_directoryEnd (h : Header) :
    (directoryEnd h).toNat = (headerSize + h.directoryLength.toNat) % 2 ^ 64 := by
  rw [directoryEnd, UInt64.toNat_add]
  rfl

theorem toNat_directoryEnd_of_wraps {h : Header} (hw : DirectoryWraps h) :
    (directoryEnd h).toNat = headerSize + h.directoryLength.toNat - 2 ^ 64 := by
  have hlt := h.directoryLength.toNat_lt
  rw [DirectoryWraps] at hw
  rw [toNat_directoryEnd]
  simp only [headerSize] at hw ⊢
  omega

theorem toNat_directoryEnd_of_not_wraps {h : Header} (hw : ¬ DirectoryWraps h) :
    (directoryEnd h).toNat = headerSize + h.directoryLength.toNat := by
  rw [DirectoryWraps, Nat.not_le] at hw
  rw [toNat_directoryEnd, Nat.mod_eq_of_lt hw]

/-- A wrapped end lies inside the header. -/
theorem directoryEnd_lt_headerSize_iff {h : Header} :
    (directoryEnd h).toNat < headerSize ↔ DirectoryWraps h := by
  have hlt := h.directoryLength.toNat_lt
  constructor
  · intro hend
    by_contra hw
    rw [toNat_directoryEnd_of_not_wraps hw] at hend
    omega
  · intro hw
    rw [toNat_directoryEnd_of_wraps hw]
    simp only [headerSize]
    omega

/-! ### Refusals -/

/-- What a directory and the heap behind it have to satisfy for the archive to be opened. -/
def openDirectory (h : Header) (directoryBytes heap : Bytes) : Except Failure Archive :=
  if Checksum.sum directoryBytes ≠ h.directoryChecksum then
    .error (.fault (.of (.directory
      (.checksum (Checksum.sum directoryBytes) h.directoryChecksum))))
  else match Directory.decode? directoryBytes with
    | none => .error (.fault (.of (.directory .undecodable)))
    | some d =>
      if h.kind = dynamicKind && !(d.subgraphs.getD []).isEmpty then
        .error (.fault (.of .heapInDynamic))
      else .ok
        { path := Text.empty, source := none, header := h, directory := d
          heap := heap, closed := false }

/-- Opening in the order of its checks. The length is compared after the end was computed, so the
two cases of a wrapped end differ only in what the comparison sees. -/
theorem decode_of_header {data : Bytes} {h : Header} (hh : Header.decode data = .ok h) :
    decode data =
      if h.directoryLength = 0 ∨ data.length < (directoryEnd h).toNat then
        .error (.fault (.of (.header (.directoryLength h.directoryLength))))
      else if DirectoryWraps h then
        .error (.panic (.sliceOutOfRange headerSize (directoryEnd h).toNat))
      else openDirectory h ((data.drop headerSize).take h.directoryLength.toNat)
        (data.drop (headerSize + h.directoryLength.toNat)) := by
  rw [decode, hh]
  simp only [Bool.or_eq_true, decide_eq_true_eq]
  by_cases hlong : h.directoryLength = 0 ∨ data.length < (directoryEnd h).toNat
  · rw [if_pos hlong, if_pos hlong]
  · rw [if_neg hlong, if_neg hlong]
    by_cases hw : DirectoryWraps h
    · rw [if_pos (directoryEnd_lt_headerSize_iff.2 hw), if_pos hw]
    · rw [if_neg fun hend => hw (directoryEnd_lt_headerSize_iff.1 hend), if_neg hw,
        toNat_directoryEnd_of_not_wraps hw, List.drop_take, Nat.add_sub_cancel_left]
      rfl

/-- The kinds of faults that opening bytes can answer with. -/
def openingKinds : List FaultKind :=
  [.corruptHeader, .invalidMagic, .versionMismatch, .corruptDirectory, .heapInDynamic]

theorem kinds_headerFlaw (flaw : HeaderFlaw) :
    (Fault.of (.header flaw)).kinds = [flaw.faultKind] := by
  cases flaw <;> rfl

theorem faultKind_mem_openingKinds (flaw : HeaderFlaw) : flaw.faultKind ∈ openingKinds := by
  cases flaw <;> simp [HeaderFlaw.faultKind, openingKinds]

theorem openDirectory_ne_panic (h : Header) (directoryBytes heap : Bytes) (p : Panic) :
    openDirectory h directoryBytes heap ≠ .error (.panic p) := by
  intro hp
  rw [openDirectory] at hp
  split at hp
  · cases hp
  · split at hp
    · cases hp
    · split at hp <;> cases hp

theorem kinds_of_openDirectory_eq_fault {h : Header} {directoryBytes heap : Bytes} {fault : Fault}
    (hf : openDirectory h directoryBytes heap = .error (.fault fault)) :
    fault.kinds = [.corruptDirectory] ∨ fault.kinds = [.heapInDynamic] := by
  rw [openDirectory] at hf
  split at hf
  · cases hf
    exact Or.inl rfl
  · split at hf
    · cases hf
      exact Or.inl rfl
    · split at hf
      · cases hf
        exact Or.inr rfl
      · cases hf

/-- **When opening panics.** Exactly for the headers whose directory ends past the numbers of 64
bits, and then for every length of the file, since the wrapped end lies inside the header. -/
theorem decode_eq_panic_iff {data : Bytes} {p : Panic} :
    decode data = .error (.panic p) ↔
      ∃ h, Header.decode data = .ok h ∧ DirectoryWraps h ∧
        p = .sliceOutOfRange headerSize (headerSize + h.directoryLength.toNat - 2 ^ 64) := by
  constructor
  · intro hp
    cases hh : Header.decode data with
    | error flaw =>
      rw [decode, hh] at hp
      cases hp
    | ok h =>
      rw [decode_of_header hh] at hp
      split at hp
      · cases hp
      · split at hp
        · rename_i hw
          cases hp
          exact ⟨h, rfl, hw, by rw [toNat_directoryEnd_of_wraps hw]⟩
        · exact absurd hp (openDirectory_ne_panic _ _ _ _)
  · rintro ⟨h, hh, hw, rfl⟩
    have hsize : headerSize ≤ data.length := (Header.decode_eq_ok_iff.1 hh).1
    have hend := directoryEnd_lt_headerSize_iff.2 hw
    have hzero : h.directoryLength ≠ 0 := by
      intro hz
      rw [DirectoryWraps, hz] at hw
      exact absurd hw (by decide)
    rw [decode_of_header hh, if_neg (not_or.2 ⟨hzero, by omega⟩), if_pos hw,
      toNat_directoryEnd_of_wraps hw]

/-- **How opening refuses.** Every fault is of exactly one of five kinds. -/
theorem kinds_of_decode_eq_fault {data : Bytes} {fault : Fault}
    (hf : decode data = .error (.fault fault)) : ∃ kind ∈ openingKinds, fault.kinds = [kind] := by
  cases hh : Header.decode data with
  | error flaw =>
    rw [decode, hh] at hf
    cases hf
    exact ⟨_, faultKind_mem_openingKinds flaw, kinds_headerFlaw flaw⟩
  | ok h =>
    rw [decode_of_header hh] at hf
    split at hf
    · cases hf
      exact ⟨_, faultKind_mem_openingKinds _, kinds_headerFlaw _⟩
    · split at hf
      · cases hf
      · rcases kinds_of_openDirectory_eq_fault hf with hk | hk
        · exact ⟨_, by simp [openingKinds], hk⟩
        · exact ⟨_, by simp [openingKinds], hk⟩

/-! ### Acceptance -/

/-- How the bytes of an archive are divided: its header, a directory of the length and with the
checksum that the header says, and its heap. -/
structure Parts (a : Archive) (directoryBytes data : Bytes) : Prop where
  /-- Nothing is left over and nothing overlaps. -/
  layout : data = a.header.encode ++ directoryBytes ++ a.heap
  length : directoryBytes.length = a.header.directoryLength.toNat
  /-- The end of the directory was computed without wrapping around. -/
  stop : (directoryEnd a.header).toNat = headerSize + directoryBytes.length
  checksum : Checksum.sum directoryBytes = a.header.directoryChecksum
  directory : Directory.decode? directoryBytes = some a.directory
  /-- A layer on top of a base archive has no heap objects. -/
  heapless : a.header.kind = dynamicKind → a.directory.subgraphs.getD [] = []

theorem openDirectory_eq_ok_iff {h : Header} {directoryBytes heap : Bytes} {a : Archive} :
    openDirectory h directoryBytes heap = .ok a ↔
      ∃ d, Checksum.sum directoryBytes = h.directoryChecksum ∧
        Directory.decode? directoryBytes = some d ∧
        (h.kind = dynamicKind → d.subgraphs.getD [] = []) ∧
        a = { path := Text.empty, source := none, header := h, directory := d
              heap := heap, closed := false } := by
  rw [openDirectory]
  constructor
  · intro ho
    split at ho
    · cases ho
    · rename_i hsum
      split at ho
      · cases ho
      · rename_i d hd
        split at ho
        · cases ho
        · rename_i hkind
          cases ho
          refine ⟨d, not_not.1 hsum, hd, fun hk => ?_, rfl⟩
          simpa [hk] using hkind
  · rintro ⟨d, hsum, hd, hkind, rfl⟩
    rw [if_neg (not_not.2 hsum), hd]
    have hheap : ¬ (decide (h.kind = dynamicKind) && !(d.subgraphs.getD []).isEmpty) = true := by
      simpa using hkind
    simp only
    rw [if_neg hheap]

/-- What is opened has passed the checks of its header, of its length and of its directory. -/
theorem checks_of_decode {data : Bytes} {a : Archive} (ho : decode data = .ok a) :
    Header.decode data = .ok a.header ∧
      ¬ (a.header.directoryLength = 0 ∨ data.length < (directoryEnd a.header).toNat) ∧
      ¬ DirectoryWraps a.header ∧
      openDirectory a.header ((data.drop headerSize).take a.header.directoryLength.toNat)
        (data.drop (headerSize + a.header.directoryLength.toNat)) = .ok a := by
  cases hh : Header.decode data with
  | error flaw =>
    rw [decode, hh] at ho
    cases ho
  | ok h =>
    rw [decode_of_header hh] at ho
    split at ho
    · cases ho
    · rename_i hfits
      split at ho
      · cases ho
      · rename_i hw
        have hheader : a.header = h := by
          obtain ⟨d, -, -, -, rfl⟩ := openDirectory_eq_ok_iff.1 ho
          rfl
        rw [hheader]
        exact ⟨rfl, hfits, hw, ho⟩

/-- **What opening accepts.** -/
theorem parts_of_decode {data : Bytes} {a : Archive} (ho : decode data = .ok a) :
    ∃ directoryBytes, Parts a directoryBytes data := by
  obtain ⟨hh, hfits, hw, hopen⟩ := checks_of_decode ho
  obtain ⟨d, hsum, hd, hkind, ha⟩ := openDirectory_eq_ok_iff.1 hopen
  have hstop := toNat_directoryEnd_of_not_wraps hw
  have hle : headerSize + a.header.directoryLength.toNat ≤ data.length := by
    rw [← hstop]
    exact Nat.not_lt.1 (not_or.1 hfits).2
  have hlen : ((data.drop headerSize).take a.header.directoryLength.toNat).length
      = a.header.directoryLength.toNat := by
    rw [List.length_take, List.length_drop]
    omega
  have hdirectory : a.directory = d := congrArg directory ha
  have hheap : a.heap = data.drop (headerSize + a.header.directoryLength.toNat) :=
    congrArg heap ha
  refine ⟨_, ?_, hlen, hstop.trans (by rw [hlen]), hsum, by rw [hdirectory]; exact hd, ?_⟩
  · rw [hheap, ← Header.take_eq_encode hh, ← List.take_add, List.take_append_drop]
  · rw [hdirectory]
    exact hkind

/-! ### All byte strings -/

/-- **Opening untrusted bytes.** For every byte string, opening answers with an archive or with a
fault of one of the five kinds, except that it panics when the header's directory length makes the
end of the directory wrap around, and only then. An archive that is opened accounts for every byte
of the file. -/
theorem decode_characterization (data : Bytes) :
    ((∃ p, decode data = .error (.panic p)) ↔
        ∃ h, Header.decode data = .ok h ∧ DirectoryWraps h) ∧
      (∀ fault, decode data = .error (.fault fault) →
        ∃ kind ∈ openingKinds, fault.kinds = [kind]) ∧
      ∀ a, decode data = .ok a →
        ∃ directoryBytes, Parts a directoryBytes data ∧
          headerSize ≤ (directoryEnd a.header).toNat ∧
          (directoryEnd a.header).toNat ≤ data.length := by
  refine ⟨⟨?_, ?_⟩, fun fault hf => kinds_of_decode_eq_fault hf, fun a ho => ?_⟩
  · rintro ⟨p, hp⟩
    obtain ⟨h, hh, hw, -⟩ := decode_eq_panic_iff.1 hp
    exact ⟨h, hh, hw⟩
  · rintro ⟨h, hh, hw⟩
    exact ⟨_, decode_eq_panic_iff.2 ⟨h, hh, hw, rfl⟩⟩
  · obtain ⟨directoryBytes, hparts⟩ := parts_of_decode ho
    have hlen := congrArg List.length hparts.layout
    simp only [List.length_append, Header.length_encode] at hlen
    refine ⟨directoryBytes, hparts, ?_, ?_⟩ <;> rw [hparts.stop] <;> omega

/-- The header of a base archive whose directory would end exactly at `2 ^ 64`. -/
def wrappingHeader : Header :=
  { version := formatVersion, kind := staticKind, flags := 0
    directoryLength := 0xFFFFFFFFFFFFFFD8, directoryChecksum := 0, baseChecksum := 0 }

/-- Opening the forty bytes of that header alone is neither an archive nor a fault. -/
theorem decode_wrappingHeader :
    decode wrappingHeader.encode = .error (.panic (.sliceOutOfRange 40 0)) := by
  have hh : Header.decode (wrappingHeader.encode ++ []) = .ok wrappingHeader :=
    Header.decode_encode rfl (Or.inl rfl) []
  rw [List.append_nil] at hh
  exact decode_eq_panic_iff.2 ⟨wrappingHeader, hh, by decide, rfl⟩

end Archive

end ClassSharing
