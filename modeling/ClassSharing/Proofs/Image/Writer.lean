import ClassSharing.Image.Writer
import ClassSharing.Proofs.Image.Collect
import ClassSharing.Proofs.Image.Exactness
import ClassSharing.Proofs.Image.Opening
import ClassSharing.Proofs.Machine.Frame
import ClassSharing.Proofs.Table

/-!
# The reader after the writer

A writer is filled by calls in any order, and its archive is opened by a reader that knows only the
bytes. Whatever the calls were, the reader finds what they have gathered: the modules sorted by
name, the class names in ascending order, and behind the name of every archived class the subgraph
that was collected for it last.

The offsets of the directory are computed while the heap region is laid out, and every record lies
where its entry says (`Writer.located_layOut`). The archive of a layer opens because a layer never
gets a subgraph, and the record of a class is accepted because a class is collected under its own
name.

## Main definitions

* `Writer.Call`, `Writer.callAll`: what can be asked of a writer, in any order
* `Writer.Storable`: the texts are valid and the lists are within the limits
* `Writer.Reflects`: an archive has what calls have gathered

## Main results

* `Writer.located_layOut`: the heap region
* `Writer.decode_encode_eq_ok_iff`: which archives the reader accepts
* `Writer.subgraph_archive`: which records it reads
* `Writer.reflects_of_calls`: opening what was written
-/

namespace ClassSharing

open Image

open Cbor (maxLength)

/-! ### The heap region -/

theorem toNat_toUInt64 {n : Nat} (h : n < 2 ^ 64) : n.toUInt64.toNat = n :=
  UInt64.toNat_ofNat_of_lt' h

namespace Writer

/-- The entry of a named subgraph describes its record, which lies in a region that begins at
`offset`. -/
structure Located (offset : Nat) (heap : Bytes) (named : Text × Subgraph) (e : SubgraphEntry) :
    Prop where
  className : e.className = named.1
  objects : e.objects = Int64.ofNat (named.2.objects.getD []).length
  length : e.length = named.2.encode.length.toUInt64
  checksum : e.checksum = Checksum.sum named.2.encode
  lies : ∃ before after, heap = before ++ named.2.encode ++ after ∧
    e.offset = (offset + before.length).toUInt64

theorem layOut_cons (offset : Nat) (name : Text) (s : Subgraph) (rest : List (Text × Subgraph)) :
    (layOut offset ((name, s) :: rest)).2
      = s.encode ++ (layOut (offset + s.encode.length) rest).2 := rfl

/-- **Every record lies where its entry says.** -/
theorem located_layOut (offset : Nat) (subgraphs : List (Text × Subgraph)) :
    List.Forall₂ (Located offset (layOut offset subgraphs).2) subgraphs
      (layOut offset subgraphs).1 := by
  induction subgraphs generalizing offset with
  | nil => exact .nil
  | cons named rest ih =>
    obtain ⟨name, s⟩ := named
    refine .cons ⟨rfl, rfl, rfl, rfl, [], (layOut (offset + s.encode.length) rest).2, rfl, rfl⟩ ?_
    refine (ih (offset + s.encode.length)).imp fun named e h => ?_
    obtain ⟨before, after, hheap, hoffset⟩ := h.lies
    refine ⟨h.className, h.objects, h.length, h.checksum, s.encode ++ before, after, ?_, ?_⟩
    · rw [layOut_cons, hheap]
      simp only [List.append_assoc]
    · rw [hoffset, List.length_append, Nat.add_assoc]

theorem Located.recordBytes? {a : Archive} {named : Text × Subgraph} {e : SubgraphEntry}
    (h : Located 0 a.heap named e) (hheap : a.heap.length < 2 ^ 64) :
    a.recordBytes? e = some named.2.encode := by
  obtain ⟨before, after, hsplit, hoffset⟩ := h.lies
  have hlength : a.heap.length = before.length + named.2.encode.length + after.length := by
    rw [hsplit, List.length_append, List.length_append]
  have hstart : e.offset.toNat = before.length := by
    rw [hoffset, Nat.zero_add, toNat_toUInt64 (by omega)]
  have hcount : e.length.toNat = named.2.encode.length := by
    rw [h.length, toNat_toUInt64 (by omega)]
  have hstop : (e.offset + e.length).toNat = before.length + named.2.encode.length := by
    rw [UInt64.toNat_add, hstart, hcount, Nat.mod_eq_of_lt (by omega)]
  have hinside : (decide (a.heap.length < (e.offset + e.length).toNat)
      || decide (e.offset + e.length < e.offset)) = false := by
    rw [Bool.or_eq_false_iff, decide_eq_false_iff_not, decide_eq_false_iff_not,
      UInt64.lt_iff_toNat_lt, hstop, hstart]
    omega
  rw [Archive.recordBytes?]
  simp only [hinside]
  rw [hstart, hcount, hsplit, List.append_assoc, List.drop_left, List.take_left]
  rfl

/-- The record of an entry is read back if the subgraph can be stored, and refused if not. -/
theorem Located.readEntry {a : Archive} {name : Text} {s : Subgraph} {e : SubgraphEntry}
    (h : Located 0 a.heap (name, s) e) (hheap : a.heap.length < 2 ^ 64)
    (hname : s.className = name) :
    a.readEntry name e
      = if s.Storable then .ok s.trimmed else .error (.of (.record .undecodable)) := by
  have hsize : s.encode.length < 2 ^ 64 := by
    obtain ⟨before, after, hsplit, -⟩ := h.lies
    have hlength := congrArg List.length hsplit
    simp only [List.length_append] at hlength
    omega
  have hnamed : s.trimmed.className = name := hname
  rw [Archive.readEntry, h.recordBytes? hheap]
  simp only [h.checksum, ne_eq, not_true, if_false]
  by_cases hs : s.Storable
  · simp only [Subgraph.decode?_encode hs, hnamed, not_true, if_false, if_pos hs]
  · rw [if_neg hs]
    cases hdecode : Subgraph.decode? s.encode with
    | none => rfl
    | some s' => exact absurd ((Subgraph.decode?_encode_eq_some_iff hsize).1 hdecode).1 hs

end Writer

namespace Archive

variable {a : Archive} {name : Text} {e : SubgraphEntry}

theorem entry?_eq_some (hdistinct : (a.entries.map SubgraphEntry.className).Nodup)
    (he : e ∈ a.entries) (hname : e.className = name) : a.entry? name = some e := by
  rw [ entry?]
  cases hfind : a.entries.reverse.find? fun e => e.className = name with
  | none =>
    have hno := List.find?_eq_none.1 hfind e (List.mem_reverse.2 he)
    simp [hname] at hno
  | some e' =>
    have hname' : e'.className = name := by simpa using List.find?_some hfind
    have hmem : e' ∈ a.entries := List.mem_reverse.1 (List.mem_of_find?_eq_some hfind)
    rw [List.inj_on_of_nodup_map hdistinct hmem he (hname'.trans hname.symm)]

theorem entry?_eq_none (h : ∀ e ∈ a.entries, e.className ≠ name) : a.entry? name = none := by
  rw [ entry?, List.find?_eq_none]
  intro e he
  simpa using h e (List.mem_reverse.1 he)

/-- Opening a header, a directory of the length that it says, and a heap. -/
theorem decode_append {h : Header} {directoryBytes : Bytes} (heap : Bytes)
    (hversion : h.version = formatVersion) (hkind : h.kind = staticKind ∨ h.kind = dynamicKind)
    (hlength : h.directoryLength.toNat = directoryBytes.length)
    (hnonempty : 1 ≤ directoryBytes.length)
    (haddress : headerSize + directoryBytes.length < 2 ^ 64) :
    decode (h.encode ++ directoryBytes ++ heap) = openDirectory h directoryBytes heap := by
  have hheader : Header.decode (h.encode ++ directoryBytes ++ heap) = .ok h := by
    rw [List.append_assoc]
    exact Header.decode_encode hversion hkind _
  have hwraps : ¬ DirectoryWraps h := by
    rw [DirectoryWraps, hlength]
    omega
  have hfits : ¬ (h.directoryLength = 0
      ∨ (h.encode ++ directoryBytes ++ heap).length < (directoryEnd h).toNat) := by
    rw [toNat_directoryEnd_of_not_wraps hwraps, hlength, List.length_append, List.length_append,
      Header.length_encode, not_or]
    refine ⟨fun hzero => ?_, by omega⟩
    rw [hzero] at hlength
    exact absurd hlength.symm (by simpa using Nat.pos_iff_ne_zero.1 hnonempty)
  have hdirectory : ((h.encode ++ directoryBytes ++ heap).drop headerSize).take
      h.directoryLength.toNat = directoryBytes := by
    rw [List.append_assoc, ← Header.length_encode h, List.drop_left, hlength, List.take_left]
  have hheap : (h.encode ++ directoryBytes ++ heap).drop (headerSize + h.directoryLength.toNat)
      = heap := by
    rw [hlength, ← Header.length_encode h, ← List.length_append, List.drop_left]
  rw [decode_of_header hheader, if_neg hfits, if_neg hwraps, hdirectory, hheap]

end Archive

namespace Writer

/-! ### Calls -/

/-- What can be asked of a writer. -/
inductive Call where
  | setBaseChecksum (sum : UInt64)
  | addModules (modules : List Module)
  | addClasses (names : List Text)
  /-- The fields are collected on a machine whose classes are registered under their names. -/
  | archiveFields (m : Machine) (named : m.WellNamed) (specs : List FieldSpec)

/-- A writer after a call. -/
def call (w : Writer) : Call → Writer
  | .setBaseChecksum sum => w.setBaseChecksum sum
  | .addModules modules => w.addModules modules
  | .addClasses names => w.addClasses names
  | .archiveFields m _ specs => (w.archiveFields m specs).2

/-- A writer after calls. -/
def callAll (w : Writer) (calls : List Call) : Writer := calls.foldl call w

namespace Call

/-- The identity of the base archive after a call. -/
def base (sum : UInt64) : Call → UInt64
  | setBaseChecksum sum' => sum'
  | _ => sum

/-- The modules that a call adds. -/
def modules : Call → List Module
  | addModules modules => modules
  | _ => []

/-- The class names that a call adds. -/
def classes : Call → List Text
  | addClasses names => names
  | _ => []

/-- The subgraphs of specifications in order, up to a panic. -/
def collectEach (m : Machine) : List FieldSpec → List (Text × Subgraph)
  | [] => []
  | spec :: rest =>
    match m.collectSubgraph spec with
    | .ok s => (spec.className, s) :: collectEach m rest
    | .error (.fault _) => collectEach m rest
    | .error (.panic _) => []

/-- The subgraphs that a call collects. -/
def subgraphs : Call → List (Text × Subgraph)
  | archiveFields m _ specs => collectEach m specs
  | _ => []

end Call

/-- The subgraphs that a writer of some kind gathers by calls; of several for one class the last
counts. A layer gathers none. -/
def gathered (kind : UInt8) (calls : List Call) : Table Subgraph :=
  if kind = dynamicKind then Table.empty else Table.ofList (calls.flatMap Call.subgraphs)

/-! ### What calls gather -/

/-- Collecting succeeds if every class can be archived. -/
theorem exists_archiveFields {m : Machine} {w : Writer} {specs : List FieldSpec}
    (hkind : w.kind ≠ dynamicKind) (h : ∀ spec ∈ specs, ∃ s, m.collectSubgraph spec = .ok s) :
    ∃ w', w.archiveFields m specs = (.ok (), w') := by
  have heach : ∃ w', archiveEach m w specs = (.ok (), w') := by
    clear hkind
    induction specs generalizing w with
    | nil => exact ⟨w, rfl⟩
    | cons spec rest ih =>
      obtain ⟨⟨s, hs⟩, hrest⟩ := List.forall_mem_cons.1 h
      rw [archiveEach, hs]
      exact ih hrest
  obtain ⟨w', hw'⟩ := heach
  refine ⟨w', ?_⟩
  rw [archiveFields, if_neg hkind, hw']

theorem archiveEach_subgraphs (m : Machine) (w : Writer) (specs : List FieldSpec) :
    (archiveEach m w specs).2.subgraphs
      = (Call.collectEach m specs).foldl (fun t b => t.insert b.1 b.2) w.subgraphs := by
  induction specs generalizing w with
  | nil => rfl
  | cons spec rest ih =>
    rw [archiveEach, Call.collectEach]
    cases m.collectSubgraph spec with
    | ok s => exact ih (w.addSubgraph spec.className (.ok s))
    | error e =>
      cases e with
      | fault f => exact ih (w.addSubgraph spec.className (.error f))
      | panic p => rfl

/-- Collecting changes nothing but the subgraphs and the skipped classes. -/
theorem archiveEach_rest (m : Machine) (w : Writer) (specs : List FieldSpec) :
    ∃ subgraphs skipped,
      (archiveEach m w specs).2 = { w with subgraphs := subgraphs, skipped := skipped } := by
  induction specs generalizing w with
  | nil => exact ⟨w.subgraphs, w.skipped, rfl⟩
  | cons spec rest ih =>
    rw [archiveEach]
    cases m.collectSubgraph spec with
    | ok s =>
      obtain ⟨subgraphs, skipped, h⟩ := ih (w.addSubgraph spec.className (.ok s))
      exact ⟨subgraphs, skipped, h⟩
    | error e =>
      cases e with
      | fault f =>
        obtain ⟨subgraphs, skipped, h⟩ := ih (w.addSubgraph spec.className (.error f))
        exact ⟨subgraphs, skipped, h⟩
      | panic p => exact ⟨w.subgraphs, w.skipped, rfl⟩

theorem archiveFields_of_dynamic {w : Writer} (h : w.kind = dynamicKind) (m : Machine)
    (specs : List FieldSpec) : (w.archiveFields m specs).2 = w := by
  rw [archiveFields, if_pos h]

theorem archiveFields_of_not_dynamic {w : Writer} (h : w.kind ≠ dynamicKind) (m : Machine)
    (specs : List FieldSpec) : (w.archiveFields m specs).2 = (archiveEach m w specs).2 := by
  rw [archiveFields, if_neg h]
  split
  · rename_i heq
    rw [heq]
  · rename_i heq
    rw [heq]

/-- What a call does to a writer. -/
theorem call_eq (w : Writer) (c : Call) :
    ∃ skipped, w.call c =
      { w with
        baseChecksum := c.base w.baseChecksum
        modules := w.modules ++ c.modules.filterMap moduleRecord?
        classes := w.classes ++ c.classes
        subgraphs := if w.kind = dynamicKind then w.subgraphs
          else c.subgraphs.foldl (fun t b => t.insert b.1 b.2) w.subgraphs
        skipped := skipped } := by
  cases c with
  | setBaseChecksum sum =>
    exact ⟨w.skipped, by simp [call, setBaseChecksum, Call.base, Call.modules, Call.classes,
      Call.subgraphs]⟩
  | addModules modules =>
    exact ⟨w.skipped, by simp [call, addModules, Call.base, Call.modules, Call.classes,
      Call.subgraphs]⟩
  | addClasses names =>
    exact ⟨w.skipped, by simp [call, addClasses, Call.base, Call.modules, Call.classes,
      Call.subgraphs]⟩
  | archiveFields m named specs =>
    by_cases hkind : w.kind = dynamicKind
    · refine ⟨w.skipped, ?_⟩
      rw [call, archiveFields_of_dynamic hkind, if_pos hkind]
      simp [Call.base, Call.modules, Call.classes]
    · obtain ⟨subgraphs, skipped, heq⟩ := archiveEach_rest m w specs
      have hsubgraphs := archiveEach_subgraphs m w specs
      rw [heq] at hsubgraphs
      refine ⟨skipped, ?_⟩
      rw [call, archiveFields_of_not_dynamic hkind, if_neg hkind, heq]
      simp [Call.base, Call.modules, Call.classes, Call.subgraphs, ← hsubgraphs]

/-- **What calls do to a writer.** -/
theorem callAll_eq (w : Writer) (calls : List Call) :
    ∃ skipped, w.callAll calls =
      { w with
        baseChecksum := calls.foldl Call.base w.baseChecksum
        modules := w.modules ++ (calls.flatMap Call.modules).filterMap moduleRecord?
        classes := w.classes ++ calls.flatMap Call.classes
        subgraphs := if w.kind = dynamicKind then w.subgraphs
          else (calls.flatMap Call.subgraphs).foldl (fun t b => t.insert b.1 b.2) w.subgraphs
        skipped := skipped } := by
  induction calls generalizing w with
  | nil => exact ⟨w.skipped, by simp [callAll]⟩
  | cons c rest ih =>
    obtain ⟨skipped, hfirst⟩ := call_eq w c
    obtain ⟨skipped', hrest⟩ := ih (w.call c)
    refine ⟨skipped', ?_⟩
    rw [callAll, List.foldl_cons, ← callAll, hrest, hfirst]
    by_cases hkind : w.kind = dynamicKind
    · simp [hkind, List.flatMap_cons, List.filterMap_append, List.append_assoc]
    · simp [hkind, List.flatMap_cons, List.filterMap_append, List.append_assoc]

theorem callAll_new (kind : UInt8) (build : Build) (seed : Int64) (calls : List Call) :
    ∃ skipped, (new kind build seed 0).callAll calls =
      { kind := kind, build := build, seed := seed
        baseChecksum := calls.foldl Call.base 0
        modules := (calls.flatMap Call.modules).filterMap moduleRecord?
        classes := calls.flatMap Call.classes
        subgraphs := gathered kind calls
        skipped := skipped } :=
  callAll_eq (new kind build seed 0) calls

theorem length_collectEach_le (m : Machine) (specs : List FieldSpec) :
    (Call.collectEach m specs).length ≤ specs.length := by
  induction specs with
  | nil => exact Nat.le_refl _
  | cons spec rest ih =>
    rw [Call.collectEach]
    split
    · exact Nat.succ_le_succ ih
    · exact ih.trans (Nat.le_succ _)
    · exact Nat.zero_le _

theorem mem_collectEach {m : Machine} {specs : List FieldSpec} {named : Text × Subgraph}
    (h : named ∈ Call.collectEach m specs) :
    ∃ spec ∈ specs, spec.className = named.1 ∧ m.collectSubgraph spec = .ok named.2 := by
  induction specs with
  | nil => cases h
  | cons spec rest ih =>
    have hrest : named ∈ Call.collectEach m rest →
        ∃ spec' ∈ spec :: rest, spec'.className = named.1 ∧ m.collectSubgraph spec' = .ok named.2 :=
      fun hmem => by
        obtain ⟨spec', hspec', hnamed⟩ := ih hmem
        exact ⟨spec', List.mem_cons_of_mem _ hspec', hnamed⟩
    rw [Call.collectEach] at h
    split at h
    · rename_i s hs
      rcases List.mem_cons.1 h with rfl | h
      · exact ⟨spec, List.mem_cons_self, rfl, hs⟩
      · exact hrest h
    · exact hrest h
    · cases h

/-- **Every gathered subgraph is the one of its class**: it is kept under its own class name, and it
comes from one of the calls. -/
theorem of_mem_gathered {kind : UInt8} {calls : List Call} {named : Text × Subgraph}
    (h : named ∈ (gathered kind calls).entries) :
    kind ≠ dynamicKind ∧ named.2.className = named.1 ∧ named.2.trimmed = named.2 := by
  rw [gathered] at h
  split at h
  · cases h
  · rename_i hkind
    obtain ⟨c, hc, hnamed⟩ := List.mem_flatMap.1 (Table.mem_of_mem_ofList h)
    cases c with
    | setBaseChecksum sum => cases hnamed
    | addModules modules => cases hnamed
    | addClasses names => cases hnamed
    | archiveFields m named specs =>
      obtain ⟨spec, -, hname, hcollect⟩ := mem_collectEach hnamed
      obtain ⟨k, found, hk, hcollected⟩ := Machine.collected_of_collectSubgraph hcollect
      obtain ⟨-, hclass⟩ := named _ _ (Machine.lookup_of_archivableClass hk)
      exact ⟨hkind, hcollected.className.trans (hclass.trans hname), hcollected.trimmed⟩

theorem ascending_gathered (kind : UInt8) (calls : List Call) :
    (gathered kind calls).Ascending := by
  rw [gathered]
  split
  · exact Table.ascending_empty
  · exact Table.ascending_ofList _

/-! ### Opening what was written -/

/-- The texts of a writer are valid, its lists are within the limits, and the length of its archive
is a number of 64 bits. -/
structure Storable (w : Writer) : Prop where
  build : BuildStorable w.build
  modules : ListStorable ModuleRecord.Storable (some w.modules)
  names : ∀ name ∈ w.classes, name.Storable
  limited : (Text.sortedUnique w.classes).length ≤ maxLength
  subgraphs : ListStorable (fun named => named.2.Storable) (some w.subgraphs.entries)
  addressable : w.encode.length < 2 ^ 64

/-- The texts of a writer's lists are valid, and the lists are within the limits. -/
structure ListsStorable (w : Writer) : Prop where
  modules : ListStorable ModuleRecord.Storable (some w.modules)
  names : ∀ name ∈ w.classes, name.Storable
  limited : (Text.sortedUnique w.classes).length ≤ maxLength
  subgraphs : ListStorable (fun named => named.2.Storable) (some w.subgraphs.entries)

/-- What is true of every writer: a layer has no subgraphs, every subgraph is kept under the name of
its class, and empty lists are absent. -/
structure Sound (w : Writer) : Prop where
  heapless : w.kind = dynamicKind → w.subgraphs.entries = []
  named : ∀ named ∈ w.subgraphs.entries, named.2.className = named.1
  trimmed : ∀ m ∈ w.modules, m.trimmed = m

/-- **Every writer is sound.** -/
theorem sound_callAll (kind : UInt8) (build : Build) (seed : Int64) (calls : List Call) :
    ((new kind build seed 0).callAll calls).Sound := by
  obtain ⟨skipped, heq⟩ := callAll_new kind build seed calls
  rw [heq]
  refine ⟨fun hkind => ?_, fun named hnamed => ?_, fun m hm => ?_⟩
  · exact List.eq_nil_iff_forall_not_mem.2 fun named hnamed => (of_mem_gathered hnamed).1 hkind
  · exact (of_mem_gathered hnamed).2.1
  · obtain ⟨module, -, hmodule⟩ := List.mem_filterMap.1 hm
    obtain ⟨kind, -, rfl⟩ := Option.map_eq_some_iff.1 hmodule
    rw [ModuleRecord.trimmed]
    simp only [trimList_id_presentList]

theorem ascending_callAll (kind : UInt8) (build : Build) (seed : Int64) (calls : List Call) :
    ((new kind build seed 0).callAll calls).subgraphs.Ascending := by
  obtain ⟨skipped, heq⟩ := callAll_new kind build seed calls
  rw [heq]
  exact ascending_gathered kind calls

section Opening

variable {w : Writer}

theorem sortedModules_perm (w : Writer) : w.sortedModules.Perm w.modules := Sorting.sort_perm _ _

theorem sortedModules_pairwise (w : Writer) :
    w.sortedModules.Pairwise fun x y => y.name.precedes x.name = false := by
  refine Sorting.sort_pairwise _ _ (fun x y z hyx hzy => ?_) fun x y hxy => ?_
  · have hxy : x.name.atMost y.name = true := by simp [Text.atMost, hyx]
    have hyz : y.name.atMost z.name = true := by simp [Text.atMost, hzy]
    simpa [Text.atMost] using Text.atMost_trans hxy hyz
  · by_contra hyx
    rw [Bool.not_eq_false] at hyx
    exact absurd rfl (Text.ne_of_precedes (Text.precedes_trans hxy hyx))

theorem classNames_layOut (offset : Nat) (subgraphs : List (Text × Subgraph)) :
    (layOut offset subgraphs).1.map SubgraphEntry.className = subgraphs.map Prod.fst := by
  rw [eq_comm, ← List.forall₂_eq_eq_eq, List.forall₂_map_left_iff, List.forall₂_map_right_iff]
  exact (located_layOut offset subgraphs).imp fun named e h => h.className.symm

/-- **When the directory of a writer can be stored.** Of the subgraphs it holds the names. -/
theorem storable_directory_iff :
    w.directory.Storable ↔ BuildStorable w.build ∧
      ListStorable ModuleRecord.Storable (some w.modules) ∧ (∀ name ∈ w.classes, name.Storable) ∧
      (Text.sortedUnique w.classes).length ≤ maxLength ∧
      ListStorable (fun named => named.1.Storable) (some w.subgraphs.entries) := by
  have hmodules : ListStorable ModuleRecord.Storable w.directory.modules
      ↔ ListStorable ModuleRecord.Storable (some w.modules) := by
    simp only [listStorable_iff, directory, getD_presentList, Option.getD_some,
      w.sortedModules_perm.length_eq, w.sortedModules_perm.mem_iff]
  have hclasses : ListStorable Text.Storable w.directory.classes
      ↔ (Text.sortedUnique w.classes).length ≤ maxLength ∧ ∀ name ∈ w.classes, name.Storable := by
    simp only [listStorable_iff, directory, getD_presentList, Text.mem_sortedUnique]
  have hentries : ListStorable SubgraphEntry.Storable w.directory.subgraphs
      ↔ ListStorable (fun named => named.1.Storable) (some w.subgraphs.entries) := by
    have hnames := classNames_layOut 0 w.subgraphs.entries
    have hlength := congrArg List.length hnames
    rw [List.length_map, List.length_map] at hlength
    have hmembers : (∀ e ∈ (layOut 0 w.subgraphs.entries).1, e.className.Storable)
        ↔ ∀ named ∈ w.subgraphs.entries, named.1.Storable := by
      rw [← List.forall_mem_map (P := Text.Storable), hnames, List.forall_mem_map]
    simp only [listStorable_iff, directory, getD_presentList, Option.getD_some,
      SubgraphEntry.Storable, hlength, hmembers]
  constructor
  · intro h
    obtain ⟨hlimit, hnames⟩ := hclasses.1 h.classes
    exact ⟨h.build, hmodules.1 h.modules, hnames, hlimit, hentries.1 h.subgraphs⟩
  · rintro ⟨hbuild, hlist, hnames, hlimit, hsubgraphs⟩
    exact ⟨hbuild, hmodules.2 hlist, hclasses.2 ⟨hlimit, hnames⟩, hentries.2 hsubgraphs⟩

theorem storable_directory (hsound : w.Sound) (h : w.Storable) : w.directory.Storable := by
  refine storable_directory_iff.2 ⟨h.build, h.modules, h.names, h.limited, h.subgraphs.limited, ?_⟩
  intro named hnamed
  rw [← hsound.named named hnamed]
  exact (h.subgraphs.members named hnamed).className

theorem trimmed_directory (hsound : w.Sound) : w.directory.trimmed = w.directory := by
  have hmodules : ∀ m ∈ w.sortedModules, m.trimmed = m := fun m hm =>
    hsound.trimmed m (w.sortedModules_perm.mem_iff.1 hm)
  rw [Directory.trimmed, directory]
  simp only [trimList_id_presentList, trimList_presentList hmodules]

/-- The archive that a writer writes. -/
def archive (w : Writer) : Archive :=
  { path := Text.empty
    source := none
    header := w.header w.directory w.directory.encode
    directory := w.directory
    heap := (layOut 0 w.subgraphs.entries).2
    closed := false }

theorem length_encode_eq (w : Writer) :
    w.encode.length = headerSize + w.directory.encode.length + w.archive.heap.length := by
  rw [encode, List.length_append, List.length_append, Header.length_encode]
  rfl

theorem length_directory_lt (haddress : w.encode.length < 2 ^ 64) :
    w.directory.encode.length < 2 ^ 64 := by
  rw [length_encode_eq] at haddress
  omega

theorem length_heap_lt (haddress : w.encode.length < 2 ^ 64) :
    w.archive.heap.length < 2 ^ 64 := by
  rw [length_encode_eq] at haddress
  omega

theorem entries_archive (w : Writer) :
    w.archive.entries = (layOut 0 w.subgraphs.entries).1 :=
  getD_presentList _

theorem modules_archive (w : Writer) : w.archive.modules = w.sortedModules := getD_presentList _

theorem classes_archive (w : Writer) : w.archive.classes = Text.sortedUnique w.classes :=
  getD_presentList _

/-- What the reader makes of what the writer writes depends on the directory. -/
theorem decode_encode (hkind : w.kind = staticKind ∨ w.kind = dynamicKind)
    (haddress : w.encode.length < 2 ^ 64) :
    Archive.decode w.encode = Archive.openDirectory (w.header w.directory w.directory.encode)
      w.directory.encode (layOut 0 w.subgraphs.entries).2 := by
  rw [length_encode_eq] at haddress
  have hlength : (w.header w.directory w.directory.encode).directoryLength.toNat
      = w.directory.encode.length :=
    toNat_toUInt64 (by omega)
  rw [encode, Archive.decode_append _ rfl hkind hlength (Cbor.one_le_length_encode _) (by omega)]

/-- **What the reader makes of what the writer writes.** It accepts it exactly if the directory can
be stored, and then it finds the archive that was meant. -/
theorem decode_encode_eq_ok_iff (hkind : w.kind = staticKind ∨ w.kind = dynamicKind)
    (hsound : w.Sound) (haddress : w.encode.length < 2 ^ 64) {a : Archive} :
    Archive.decode w.encode = .ok a ↔ w.directory.Storable ∧ a = w.archive := by
  have hlength := length_directory_lt haddress
  rw [decode_encode hkind haddress, Archive.openDirectory_eq_ok_iff]
  constructor
  · rintro ⟨d, -, hd, -, rfl⟩
    obtain ⟨hstorable, rfl⟩ := (Directory.decode?_encode_eq_some_iff hlength).1 hd
    refine ⟨hstorable, ?_⟩
    rw [trimmed_directory hsound]
    rfl
  · rintro ⟨hstorable, rfl⟩
    refine ⟨w.directory, rfl, ?_, fun hdynamic => ?_, rfl⟩
    · rw [Directory.decode?_encode hstorable, trimmed_directory hsound]
    · have hentries := entries_archive w
      rw [hsound.heapless hdynamic] at hentries
      exact hentries

/-- **The reader accepts what the writer writes.** -/
theorem decode_encode_eq (hkind : w.kind = staticKind ∨ w.kind = dynamicKind) (hsound : w.Sound)
    (h : w.Storable) : Archive.decode w.encode = .ok w.archive :=
  (decode_encode_eq_ok_iff hkind hsound h.addressable).2 ⟨storable_directory hsound h, rfl⟩

/-- **A file that holds what a writer has written opens.** -/
theorem openFile_of_find {t : FileTree} {path : Text} {number : Nat}
    (hfind : t.find path = .ok (.file number w.encode))
    (hkind : w.kind = staticKind ∨ w.kind = dynamicKind) (hsound : w.Sound) (h : w.Storable) :
    Archive.openFile t path = .ok { w.archive with path := path, source := some number } := by
  have hmap : Archive.mapFile t path = .ok (number, w.encode) := by
    have hlength : ¬ w.encode.length < headerSize := by
      rw [length_encode_eq]
      omega
    rw [Archive.mapFile, hfind]
    exact if_neg hlength
  rw [Archive.openFile, hmap]
  simp only [decode_encode_eq hkind hsound h]

theorem pairwise_entries_archive (hascending : w.subgraphs.Ascending) :
    w.archive.entries.Pairwise fun x y => x.className.precedes y.className = true := by
  have hnames := classNames_layOut 0 w.subgraphs.entries
  have hpairwise : (w.subgraphs.entries.map Prod.fst).Pairwise fun x y => x.precedes y = true :=
    List.pairwise_map.2 hascending
  rw [← hnames, List.pairwise_map, ← entries_archive] at hpairwise
  exact hpairwise

theorem nodup_entries_archive (hascending : w.subgraphs.Ascending) :
    (w.archive.entries.map SubgraphEntry.className).Nodup :=
  List.pairwise_map.2 ((pairwise_entries_archive hascending).imp Text.ne_of_precedes)

theorem map_entries_archive (w : Writer) (h : w.Storable) :
    w.archive.entries.map (fun e => (e.className, e.objects.toInt))
      = w.subgraphs.entries.map
        fun named => (named.1, ((named.2.objects.getD []).length : Int)) := by
  have hmap : w.archive.entries.map (fun e => (e.className, e.objects.toInt))
      = w.subgraphs.entries.map
        fun named => (named.1, (Int64.ofNat (named.2.objects.getD []).length).toInt) := by
    rw [entries_archive, eq_comm, ← List.forall₂_eq_eq_eq, List.forall₂_map_left_iff,
      List.forall₂_map_right_iff]
    exact (located_layOut 0 w.subgraphs.entries).imp fun named e hlocated => by
      rw [hlocated.className, hlocated.objects]
  refine hmap.trans (List.map_congr_left fun named hnamed => ?_)
  have hlimit := (h.subgraphs.members named hnamed).objects.limited
  rw [maxLength] at hlimit
  rw [Int64.toInt_ofNat_of_lt (by omega)]

/-- **The subgraph of an archived class is read back** if it can be stored. The others are not
touched by one that cannot. -/
theorem subgraph_archive (hsound : w.Sound) (haddress : w.encode.length < 2 ^ 64)
    (hascending : w.subgraphs.Ascending) {name : Text} {s : Subgraph}
    (hs : w.subgraphs.get? name = some s) :
    w.archive.subgraph name
      = if s.Storable then .ok s.trimmed else .error (.of (.record .undecodable)) := by
  have hmem : (name, s) ∈ w.subgraphs.entries := (Table.mem_entries_iff hascending).2 hs
  obtain ⟨e, he, hlocated⟩ :=
    exists_mem_of_forall₂ (located_layOut 0 w.subgraphs.entries).flip hmem
  rw [← entries_archive] at he
  have hentry := Archive.entry?_eq_some (nodup_entries_archive hascending) he hlocated.className
  rw [Archive.subgraph, hentry]
  exact hlocated.readEntry (length_heap_lt haddress) (hsound.named _ hmem)

/-- **No other class has one.** -/
theorem subgraph_archive_eq_error {name : Text} (hs : w.subgraphs.get? name = none) :
    w.archive.subgraph name = .error (.of (.noSubgraph name)) := by
  have hno : ∀ e ∈ w.archive.entries, e.className ≠ name := fun e he => by
    rw [entries_archive] at he
    obtain ⟨named, hnamed, hlocated⟩ :=
      exists_mem_of_forall₂ (located_layOut 0 w.subgraphs.entries) he
    rw [hlocated.className]
    exact Table.get?_eq_none_iff.1 hs named hnamed
  rw [Archive.subgraph, Archive.entry?_eq_none hno]
  rfl

theorem hasHeap_flags (d : Directory) :
    (flags d &&& heapFlag != 0) = true ↔ d.subgraphs.getD [] ≠ [] := by
  rw [flags, ne_eq, ← List.isEmpty_iff]
  cases (d.subgraphs.getD []).isEmpty <;> cases (d.modules.getD []).isEmpty <;> decide

theorem hasModules_flags (d : Directory) :
    (flags d &&& modulesFlag != 0) = true ↔ d.modules.getD [] ≠ [] := by
  rw [flags, ne_eq, ← List.isEmpty_iff]
  cases (d.subgraphs.getD []).isEmpty <;> cases (d.modules.getD []).isEmpty <;> decide

theorem hasHeap_archive (w : Writer) :
    w.archive.header.hasHeap = true ↔ w.subgraphs.entries ≠ [] := by
  have hempty : w.archive.entries = [] ↔ w.subgraphs.entries = [] := by
    rw [entries_archive, ← List.length_eq_zero_iff, ← List.length_eq_zero_iff,
      (located_layOut 0 w.subgraphs.entries).length_eq]
  rw [ne_eq, ← hempty]
  exact hasHeap_flags w.directory

theorem hasModules_archive (w : Writer) :
    w.archive.header.hasModules = true ↔ w.archive.modules ≠ [] :=
  hasModules_flags w.directory

end Opening

/-- An archive has what calls have gathered. -/
structure Reflects (kind : UInt8) (build : Build) (seed : Int64) (calls : List Call)
    (a : Archive) : Prop where
  kind_eq : a.kind = kind
  build_eq : a.build = build
  seed_eq : a.directory.seed = seed
  base_eq : a.header.baseChecksum = calls.foldl Call.base 0
  modules_sorted : a.modules.Pairwise fun x y => y.name.precedes x.name = false
  modules_perm : a.modules.Perm ((calls.flatMap Call.modules).filterMap moduleRecord?)
  classes_ascending : a.classes.Pairwise fun x y => x.precedes y = true
  mem_classes : ∀ name, name ∈ a.classes ↔ name ∈ calls.flatMap Call.classes
  hasHeap : a.header.hasHeap = true ↔ (gathered kind calls).entries ≠ []
  hasModules : a.header.hasModules = true ↔ a.modules ≠ []
  entries_ascending : a.entries.Pairwise fun x y => x.className.precedes y.className = true
  /-- The archived classes with the numbers of their objects. -/
  entries : a.entries.map (fun e => (e.className, e.objects.toInt))
    = (gathered kind calls).entries.map
      fun named => (named.1, ((named.2.objects.getD []).length : Int))
  subgraph : ∀ name s, (gathered kind calls).get? name = some s → a.subgraph name = .ok s
  noSubgraph : ∀ name, (gathered kind calls).get? name = none →
    a.subgraph name = .error (.of (.noSubgraph name))

/-- **The reader inverts the writer.** After any calls whose texts are valid and whose lists are
within the limits, what is written can be opened, and the archive has what was gathered. -/
theorem reflects_of_calls {kind : UInt8} {build : Build} {seed : Int64} {calls : List Call}
    (hkind : kind = staticKind ∨ kind = dynamicKind)
    (h : ((new kind build seed 0).callAll calls).Storable) :
    ∃ a, Archive.decode ((new kind build seed 0).callAll calls).encode = .ok a ∧
      Reflects kind build seed calls a := by
  have hsound := sound_callAll kind build seed calls
  have hascending := ascending_gathered kind calls
  obtain ⟨skipped, heq⟩ := callAll_new kind build seed calls
  refine ⟨_, decode_encode_eq (by rwa [heq]) hsound h, ?_⟩
  rw [heq] at hsound h ⊢
  constructor
  · rfl
  · rfl
  · rfl
  · rfl
  · rw [modules_archive]
    exact sortedModules_pairwise _
  · rw [modules_archive]
    exact sortedModules_perm _
  · rw [classes_archive]
    exact Text.pairwise_sortedUnique _
  · rw [classes_archive]
    exact fun name => Text.mem_sortedUnique
  · exact hasHeap_archive _
  · exact hasModules_archive _
  · exact pairwise_entries_archive hascending
  · exact map_entries_archive _ h
  · intro name s hs
    have hmem := (Table.mem_entries_iff hascending).2 hs
    rw [subgraph_archive hsound h.addressable hascending hs, if_pos (h.subgraphs.members _ hmem),
      (of_mem_gathered hmem).2.2]
  · exact fun name hname => subgraph_archive_eq_error hname

/-- A machine with an initialized class whose static field holds an object that refers to itself. -/
def loopMachine : Machine :=
  { (Machine.new.addClass
      { name := "Node", space := "app", superclass := some Machine.objectClass
        loader := some .boot, instanceVariables := ["next"], slotCount := 1
        statics := ⟨[("head", .obj 0)]⟩, initializer := .none, state := .ready }).2 with
    objects := #[⟨some 2, [.obj 0], none⟩] }

theorem wellNamed_loopMachine : loopMachine.WellNamed := fun name c h =>
  Machine.wellNamed_addClass Machine.wellNamed_new _ name c h

/-- Calls of every kind, of which the last collects a subgraph. -/
def sampleCalls : List Call :=
  [.addClasses ["b", "a", "b"], .setBaseChecksum 7,
    .addModules [⟨"app", ["app.b", "app.a"], some .system⟩, ⟨"idle", [], none⟩],
    .archiveFields loopMachine wellNamed_loopMachine [⟨"app::Node", ["head"]⟩]]

/-- The writer after these calls. -/
def sampleWriter : Writer := (new staticKind ⟨"1", "release", "vm", 21⟩ 42 0).callAll sampleCalls

theorem sortedUnique_sampleWriter :
    Text.sortedUnique sampleWriter.classes = (["a", "b"] : List Text) := by
  have hclasses : sampleWriter.classes = (["b", "a", "b"] : List Text) := rfl
  rw [hclasses]
  refine Text.sortedUnique_eq (fun t => ?_) (by decide)
  simp only [List.mem_cons, List.not_mem_nil, or_false]
  exact ⟨fun h => h.elim Or.inr id, fun h => h.elim (fun ha => Or.inr (Or.inl ha)) Or.inl⟩

theorem directory_sampleWriter :
    sampleWriter.directory =
      { build := ⟨"1", "release", "vm", 21⟩
        seed := 42
        modules := some [⟨"app", "system", some ["app.b", "app.a"]⟩]
        classes := some ["a", "b"]
        subgraphs := presentList (layOut 0 sampleWriter.subgraphs.entries).1 } := by
  have hmodules : sampleWriter.sortedModules = [⟨"app", "system", some ["app.b", "app.a"]⟩] :=
    List.perm_singleton.1 (sortedModules_perm sampleWriter)
  rw [directory, hmodules, sortedUnique_sampleWriter]
  rfl

theorem storable_sampleWriter : sampleWriter.Storable where
  build := by decide
  modules := by decide
  names := by decide
  limited := by
    rw [sortedUnique_sampleWriter]
    decide
  subgraphs := by decide
  addressable := by
    rw [length_encode_eq, directory_sampleWriter]
    decide +kernel

theorem reflects_sampleCalls :
    (gathered staticKind sampleCalls).keys = (["app::Node"] : List Text) ∧
      ∃ a, Archive.decode sampleWriter.encode = .ok a ∧
        Reflects staticKind ⟨"1", "release", "vm", 21⟩ 42 sampleCalls a :=
  ⟨by decide, reflects_of_calls (Or.inl rfl) storable_sampleWriter⟩

end Writer

end ClassSharing
