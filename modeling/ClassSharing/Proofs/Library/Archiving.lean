import ClassSharing.Proofs.Bootstrap.Layers
import ClassSharing.Proofs.Library.Restoring

/-!
# Archiving the library's state

The computed state of the library can be archived as a whole: every archived array leads to objects
of the library only, whose classes are on the boot loader, and everything is within the limits of
the format. So a static dump has a record for each of the four classes, and none for the classes of
the objects.

## Main results

* `Library.Computed.archivable`, `Library.Computed.graphStorable`: the archived arrays can be
  collected and stored
* `Library.Complete.exists_dumpStatic`, `Library.Complete.dumpable`: the dump succeeds and is within
  the limits of the format
* `Library.Dumpable.storable_dumpWriter`: what is within the limits can be opened
* `Library.Complete.archives_of_decode`: what a process that opens the dump finds in it
-/

namespace ClassSharing

open Image

open Cbor (maxLength)

namespace Library

section Archiving

variable {holding : Holding} {l : Layout} {m : Machine} {specs : List ModuleSpec}

/-! ### What can be collected and stored -/

theorem loader_holding (hmem : holding ∈ Holding.all) :
    (installed.classAt holding.classId).loader = some .boot := by
  have hloader : ∀ holding ∈ Holding.all,
      (installed.classAt holding.classId).loader = some .boot := by
    simp only [Holding.all, List.forall_mem_cons]
    exact ⟨by decide, by decide, by decide, by decide, by simp⟩
  exact hloader holding hmem

/-- **The archived array can be collected.** -/
theorem Computed.archivable (h : Computed holding l m) (hmem : holding ∈ Holding.all)
    (hsound : l.Sound) (hm : installed.Evolves m) :
    m.Archivable holding.classId [holding.field] where
  registered := by rw [hm.className, hm.lookup, lookup_holding hmem]
  ready := by
    have hready : (m.classAt holding.classId).state = .ready := h.ready
    rw [Class.isReady, hready]
    rfl
  loader := by rw [hm.loader, loader_holding hmem]
  declared name hname := by
    rw [List.mem_singleton.1 hname]
    exact Holding.has_field hmem (fits_of_evolves hm)
  onBoot o ho := by
    rw [h.field hmem] at ho
    obtain ⟨k, hk, hclass, -⟩ := (h.made hsound ho).shaped
    have hloader : ∀ k ∈ madeClasses, (installed.classAt k).loader = some .boot := by decide
    exact ⟨k, hclass, by rw [hm.loader, hloader k hk]⟩

theorem storable_className {k : ClassId} (hk : k ∈ plainClasses) :
    (installed.className k).Storable := by
  have hstorable : ∀ k ∈ plainClasses, (installed.className k).Storable := by decide
  exact hstorable k hk

theorem storable_holding (hmem : holding ∈ Holding.all) :
    (installed.className holding.classId).Storable ∧ holding.field.Storable := by
  have hstorable : ∀ holding ∈ Holding.all,
      (installed.className holding.classId).Storable ∧ holding.field.Storable := by
    simp only [Holding.all, List.forall_mem_cons]
    exact ⟨by decide, by decide, by decide, by decide, by simp⟩
  exact hstorable holding hmem

/-- **The archived array can be stored.** -/
theorem Computed.graphStorable (h : Computed holding l m) (hmem : holding ∈ Holding.all)
    (hsound : l.Sound) (hm : installed.Evolves m) :
    m.GraphStorable holding.classId [holding.field] where
  className := by rw [hm.className]; exact (storable_holding hmem).1
  fieldCount := (by decide : 1 ≤ maxLength)
  fields name hname := by
    rw [List.mem_singleton.1 hname]
    refine ⟨(storable_holding hmem).2, ?_⟩
    rw [h.derived _ (Holding.field_mem_sources hmem)]
    exact trivial
  objectCount := by
    rw [h.field hmem]
    refine (h.spans hsound).encard_le.trans ?_
    exact_mod_cast hsound.limited
  objects o ho := by
    rw [h.field hmem] at ho
    obtain ⟨k, hk, hclass, -⟩ := (h.made hsound ho).shaped.exists_class hm
    rw [hclass]
    exact ⟨storable_className hk, (h.made hsound ho).storable⟩

/-! ### The dump -/

/-- The specification of the archived field of a class. -/
def Holding.spec (holding : Holding) : FieldSpec :=
  ⟨installed.className holding.classId, [holding.field]⟩

theorem archivableFields_eq : archivableFields = Holding.all.map Holding.spec := by decide

/-- What a writer is told about a machine in a static dump of the library. -/
def dumpCalls (hm : m.WellNamed) : List Writer.Call :=
  [.addModules (m.allModules.map m.moduleAt), .addClasses m.readyNames,
    .archiveFields m hm archivableFields]

/-- The writer of a static dump. -/
def dumpWriter (build : Build) (seed : Int64) (hm : m.WellNamed) : Writer :=
  (Writer.new staticKind build seed 0).callAll (dumpCalls hm)

/-- A static dump installs what its writer writes. -/
theorem install_of_dumpStatic {b : MappedBoot} {t t' : FileTree} {seed : Int64}
    {report : DumpReport} (hm : m.WellNamed)
    (h : b.dumpStatic m t seed archivableFields = (.ok report, t')) :
    t.install {} b.config.archivePath (dumpWriter b.build seed hm).encode = (.ok (), t') :=
  (MappedBoot.install_of_dumpStatic hm h).1

/-- The state of the library as one machine has it, all classes together. -/
structure Complete (specs : List ModuleSpec) (m : Machine) : Prop where
  evolves : installed.Evolves m
  unlinked : m.allModules = []
  computed : ∀ p ∈ layouts specs, Computed p.1 p.2 m

theorem exists_layout (hmem : holding ∈ Holding.all) (specs : List ModuleSpec) :
    ∃ l, (holding, l) ∈ layouts specs := by
  have hall : (layouts specs).map Prod.fst = Holding.all := rfl
  rw [← hall] at hmem
  obtain ⟨p, hp, rfl⟩ := List.mem_map.1 hmem
  exact ⟨p.2, hp⟩

/-- Every class has a record. -/
theorem Complete.exists_record (h : Complete specs m) (hspecs : Resolvable specs)
    (hmem : holding ∈ Holding.all) :
    ∃ found r, m.collectSubgraph holding.spec = .ok r ∧
      m.Collected holding.classId [holding.field] found r ∧ found.length ≤ maxLength ∧
      r.Storable ∧ r.trimmed = r := by
  obtain ⟨l, hl⟩ := exists_layout hmem specs
  have hcomputed : Computed holding l m := h.computed _ hl
  have hsound : l.Sound := sound_layouts hspecs _ hl
  have hstorable := hcomputed.graphStorable hmem hsound h.evolves
  obtain ⟨found, r, hcollect, hcollected, -⟩ :=
    Machine.exists_stored (hcomputed.archivable hmem hsound h.evolves) hstorable
  rw [h.evolves.className] at hcollect
  exact ⟨found, r, hcollect, hcollected, hcollected.length_le hstorable.objectCount,
    hcollected.storable hstorable, hcollected.trimmed⟩

/-- The records that a dump gathers. -/
theorem Complete.exists_records (h : Complete specs m) (hspecs : Resolvable specs) :
    ∃ record : Holding → Subgraph,
      (∀ holding ∈ Holding.all, ∃ found,
        m.Collected holding.classId [holding.field] found (record holding) ∧
          found.length ≤ maxLength ∧ (record holding).Storable ∧
          (record holding).trimmed = record holding) ∧
      Writer.Call.collectEach m archivableFields
        = Holding.all.map fun holding => (installed.className holding.classId, record holding) := by
  have hall := fun holding (hmem : holding ∈ Holding.all) => h.exists_record hspecs hmem
  choose! found record hcollect hcollected hlimit hstorable htrimmed using hall
  refine ⟨record, fun holding hmem => ⟨found holding, hcollected holding hmem, hlimit holding hmem,
    hstorable holding hmem, htrimmed holding hmem⟩, ?_⟩
  have heach : ∀ holdings : List Holding, (∀ holding ∈ holdings, holding ∈ Holding.all) →
      Writer.Call.collectEach m (holdings.map Holding.spec)
        = holdings.map fun holding => (installed.className holding.classId, record holding) := by
    intro holdings hholdings
    induction holdings with
    | nil => rfl
    | cons first rest ih =>
      obtain ⟨hfirst, hrest⟩ := List.forall_mem_cons.1 hholdings
      rw [List.map_cons, Writer.Call.collectEach, hcollect first hfirst, List.map_cons, ih hrest]
      rfl
  rw [archivableFields_eq, heach Holding.all fun _ hmem => hmem]

theorem readyNames_subset (hm : installed.Evolves m) {name : Text} (h : name ∈ m.readyNames) :
    ∃ c ∈ installed.allClasses, installed.className c = name := by
  obtain ⟨c, hc, rfl⟩ := List.mem_map.1 h
  refine ⟨c, ?_, (hm.className c).symm⟩
  have hclass := List.mem_of_mem_filter hc
  rw [Machine.allClasses, hm.names] at hclass
  exact hclass

theorem length_readyNames_le (hm : installed.Evolves m) :
    m.readyNames.length ≤ installed.allClasses.length := by
  have hclasses : m.allClasses = installed.allClasses := by
    rw [Machine.allClasses, Machine.allClasses, hm.names]
  rw [Machine.readyNames, List.length_map, ← hclasses]
  exact List.length_filter_le _ _

/-- What the writer of a static dump has gathered. -/
theorem exists_dumpWriter_eq (build : Build) (seed : Int64) (hm : m.WellNamed) :
    ∃ skipped, dumpWriter build seed hm =
      { kind := staticKind, build := build, seed := seed, baseChecksum := 0
        modules := (m.allModules.map m.moduleAt).filterMap Writer.moduleRecord?
        classes := m.readyNames
        subgraphs := Table.ofList (Writer.Call.collectEach m archivableFields)
        skipped := skipped } := by
  obtain ⟨skipped, heq⟩ := Writer.callAll_new staticKind build seed (dumpCalls hm)
  have hmodules : (dumpCalls hm).flatMap Writer.Call.modules = m.allModules.map m.moduleAt :=
    List.append_nil _
  have hclasses : (dumpCalls hm).flatMap Writer.Call.classes = m.readyNames := List.append_nil _
  have hsubgraphs : (dumpCalls hm).flatMap Writer.Call.subgraphs
      = Writer.Call.collectEach m archivableFields := List.append_nil _
  have hkind : staticKind ≠ dynamicKind := by decide
  refine ⟨skipped, ?_⟩
  rw [dumpWriter, heq, Writer.gathered, if_neg hkind, hmodules, hclasses, hsubgraphs]
  rfl

section Gathered

variable (build : Build) (seed : Int64) (hm : m.WellNamed)

theorem kind_dumpWriter : (dumpWriter build seed hm).kind = staticKind := by
  obtain ⟨skipped, heq⟩ := exists_dumpWriter_eq build seed hm
  rw [heq]

theorem build_dumpWriter : (dumpWriter build seed hm).build = build := by
  obtain ⟨skipped, heq⟩ := exists_dumpWriter_eq build seed hm
  rw [heq]

theorem modules_dumpWriter : (dumpWriter build seed hm).modules
    = (m.allModules.map m.moduleAt).filterMap Writer.moduleRecord? := by
  obtain ⟨skipped, heq⟩ := exists_dumpWriter_eq build seed hm
  rw [heq]

theorem classes_dumpWriter : (dumpWriter build seed hm).classes = m.readyNames := by
  obtain ⟨skipped, heq⟩ := exists_dumpWriter_eq build seed hm
  rw [heq]

theorem subgraphs_dumpWriter : (dumpWriter build seed hm).subgraphs
    = Table.ofList (Writer.Call.collectEach m archivableFields) := by
  obtain ⟨skipped, heq⟩ := exists_dumpWriter_eq build seed hm
  rw [heq]

theorem sound_dumpWriter : (dumpWriter build seed hm).Sound := Writer.sound_callAll _ _ _ _

theorem ascending_dumpWriter : (dumpWriter build seed hm).subgraphs.Ascending :=
  Writer.ascending_callAll _ _ _ _

end Gathered

/-- **A static dump succeeds** if its file can be installed. -/
theorem Complete.exists_dumpStatic (h : Complete specs m) (hspecs : Resolvable specs)
    {b : MappedBoot} {t t' : FileTree} {seed : Int64} (hm : m.WellNamed)
    (hinstall : t.install {} b.config.archivePath (dumpWriter b.build seed hm).encode
      = (.ok (), t')) :
    ∃ report, b.dumpStatic m t seed archivableFields = (.ok report, t') := by
  have hfields : ∀ spec ∈ archivableFields, ∃ r, m.collectSubgraph spec = .ok r := by
    rw [archivableFields_eq]
    intro spec hspec
    obtain ⟨holding, hmem, rfl⟩ := List.mem_map.1 hspec
    obtain ⟨-, r, hcollect, -⟩ := h.exists_record hspecs hmem
    exact ⟨r, hcollect⟩
  obtain ⟨w, hw⟩ := Writer.exists_archiveFields
    (w := ((Writer.new staticKind b.build seed 0).addModules
      (m.allModules.map m.moduleAt)).addClasses m.readyNames) (by decide : staticKind ≠ dynamicKind)
    hfields
  have hwriter : dumpWriter b.build seed hm = w := congrArg Prod.snd hw
  rw [hwriter] at hinstall
  refine ⟨⟨b.config.archivePath, staticKind, some w.archived, w.skipped, m.readyNames.length⟩, ?_⟩
  rw [MappedBoot.dumpStatic]
  simp only [hw, Writer.writeFile, hinstall]

/-! ### What can be opened -/

/-- What a static dump takes from a machine is within the limits of the format, and there are no
long texts in it. -/
structure Dumpable (m : Machine) : Prop where
  modules : ListStorable (fun r : ModuleRecord => r.Storable ∧ r.Short)
    (some ((m.allModules.map m.moduleAt).filterMap Writer.moduleRecord?))
  names : ListStorable (fun name : Text => name.Storable ∧ name.Short) (some m.readyNames)
  records : ∀ named ∈ Writer.Call.collectEach m archivableFields,
    named.2.Storable ∧ named.1.Short ∧ named.2.encode.length ≤ 2 ^ 58

theorem length_subgraphs_dumpWriter_le (build : Build) (seed : Int64) (hm : m.WellNamed) :
    (dumpWriter build seed hm).subgraphs.entries.length ≤ archivableFields.length := by
  rw [subgraphs_dumpWriter]
  exact (Table.length_entries_ofList_le _).trans (Writer.length_collectEach_le m archivableFields)

theorem Dumpable.listsStorable_dumpWriter (h : Dumpable m) (build : Build) (seed : Int64)
    (hm : m.WellNamed) : (dumpWriter build seed hm).ListsStorable where
  modules := by
    rw [modules_dumpWriter]
    exact ⟨h.modules.limited, fun r hr => (h.modules.members r hr).1⟩
  names := by
    rw [classes_dumpWriter]
    exact fun name hname => (h.names.members name hname).1
  limited := by
    rw [classes_dumpWriter]
    exact (Text.length_sortedUnique_le _).trans h.names.limited
  subgraphs := by
    refine ⟨(length_subgraphs_dumpWriter_le build seed hm).trans (by decide), ?_⟩
    rw [subgraphs_dumpWriter]
    exact fun named hnamed => (h.records named (Table.mem_of_mem_ofList hnamed)).1

theorem Dumpable.length_dumpWriter_lt (h : Dumpable m) {build : Build}
    (hbuild : (buildToItem build).encode.length ≤ 2 ^ 14) (seed : Int64) (hm : m.WellNamed) :
    (dumpWriter build seed hm).encode.length < 2 ^ 64 := by
  refine Writer.length_encode_lt ?_ ?_ (h.listsStorable_dumpWriter build seed hm).limited ?_
    ((length_subgraphs_dumpWriter_le build seed hm).trans (by decide)) ?_
  · rw [build_dumpWriter]
    exact hbuild
  · rw [modules_dumpWriter]
    exact ⟨h.modules.limited, fun r hr => (h.modules.members r hr).2⟩
  · rw [classes_dumpWriter]
    exact fun name hname => (h.names.members name hname).2
  · rw [subgraphs_dumpWriter]
    exact fun named hnamed => (h.records named (Table.mem_of_mem_ofList hnamed)).2

/-- **What a process can dump within the limits can be stored.** -/
theorem Dumpable.storable_dumpWriter (h : Dumpable m) {build : Build}
    (hstorable : BuildStorable build) (hbuild : (buildToItem build).encode.length ≤ 2 ^ 14)
    (seed : Int64) (hm : m.WellNamed) : (dumpWriter build seed hm).Storable := by
  have hlists := h.listsStorable_dumpWriter build seed hm
  exact ⟨by rw [build_dumpWriter]; exact hstorable, hlists.modules, hlists.names, hlists.limited,
    hlists.subgraphs, h.length_dumpWriter_lt hbuild seed hm⟩

theorem short_className {k : ClassId} (hk : k ∈ plainClasses) : (installed.className k).Short := by
  have hshort : ∀ k ∈ plainClasses, (installed.className k).Short := by decide
  exact hshort k hk

theorem short_holding (hmem : holding ∈ Holding.all) :
    (installed.className holding.classId).Short ∧ holding.field.Short := by
  have hshort : ∀ holding ∈ Holding.all,
      (installed.className holding.classId).Short ∧ holding.field.Short := by
    simp only [Holding.all, List.forall_mem_cons]
    exact ⟨by decide, by decide, by decide, by decide, by simp⟩
  exact hshort holding hmem

/-- The archived array has no long text if the objects of its layout have none. -/
theorem Computed.graphShort (h : Computed holding l m) (hmem : holding ∈ Holding.all)
    (hsound : l.Sound) (hm : installed.Evolves m)
    (hshort : ∀ node ∈ l.nodes, ∀ v ∈ node.1.contents, v.Short) :
    m.GraphShort holding.classId [holding.field] where
  className := by rw [hm.className]; exact (short_holding hmem).1
  fields name hname := by
    rw [List.mem_singleton.1 hname]
    refine ⟨(short_holding hmem).2, ?_⟩
    rw [h.derived _ (Holding.field_mem_sources hmem)]
    exact trivial
  objects o ho := by
    rw [h.field hmem] at ho
    obtain ⟨k, hk, hclass, -⟩ := (h.made hsound ho).shaped.exists_class hm
    rw [hclass]
    exact ⟨short_className hk, hshort _ ((h.spans hsound).object_mem ho)⟩

theorem Complete.length_encode_le (h : Complete specs m) (hspecs : Resolvable specs)
    (hshort : ∀ p ∈ layouts specs, ∀ node ∈ p.2.nodes, ∀ v ∈ node.1.contents, v.Short)
    {found : List ObjectId} {r : Subgraph} (hmem : holding ∈ Holding.all)
    (hcollected : m.Collected holding.classId [holding.field] found r) :
    r.encode.length ≤ 2 ^ 58 := by
  obtain ⟨l, hl⟩ := exists_layout hmem specs
  have hcomputed : Computed holding l m := h.computed _ hl
  have hsound : l.Sound := sound_layouts hspecs _ hl
  exact hcollected.length_encode_le (hcomputed.graphStorable hmem hsound h.evolves)
    (hcomputed.graphShort hmem hsound h.evolves (hshort _ hl))

/-- **The dump of the library is within the limits of the format** if there are no long texts in
it. -/
theorem Complete.dumpable (h : Complete specs m) (hspecs : Resolvable specs)
    (hshort : ∀ p ∈ layouts specs, ∀ node ∈ p.2.nodes, ∀ v ∈ node.1.contents, v.Short) :
    Dumpable m where
  modules := by
    rw [h.unlinked]
    exact ⟨Nat.zero_le _, by simp⟩
  names := by
    have hfew : installed.allClasses.length ≤ maxLength := by decide
    refine ⟨(length_readyNames_le h.evolves).trans hfew, fun name hname => ?_⟩
    obtain ⟨c, hc, rfl⟩ := readyNames_subset h.evolves hname
    have hnames : ∀ c ∈ installed.allClasses,
        (installed.className c).Storable ∧ (installed.className c).Short := by decide
    exact hnames c hc
  records := by
    obtain ⟨record, hrecord, hcollect⟩ := h.exists_records hspecs
    rw [hcollect]
    intro named hnamed
    obtain ⟨holding, hmem, rfl⟩ := List.mem_map.1 hnamed
    obtain ⟨found, hcollected, -, hstorable, -⟩ := hrecord holding hmem
    exact ⟨hstorable, (short_holding hmem).1, h.length_encode_le hspecs hshort hmem hcollected⟩

/-! ### What is found in the dump -/

theorem className_plain_ne {k : ClassId} (hk : k ∈ plainClasses) (hmem : holding ∈ Holding.all) :
    installed.className holding.classId ≠ installed.className k := by
  intro heq
  have hlookup := lookup_holding hmem
  rw [heq, lookup_plain hk] at hlookup
  exact not_mem_plainClasses hmem (Option.some.inj hlookup ▸ hk)

/-- What a process finds in the dump of a machine that it has opened: of each class with archived
state either nothing or the array of the machine, nothing of the other classes, and the modules. -/
structure Found (b : MappedBoot) (m : Machine) : Prop where
  recorded : ∀ holding ∈ Holding.all,
    (∃ fault, b.subgraph (installed.className holding.classId) = .error fault) ∨
      Recorded b holding m ∧ m.stateOf holding.classId = .ready
  unrecorded : ∀ k ∈ plainClasses, ∃ fault, b.subgraph (installed.className k) = .error fault
  modules : b.modules.Perm ((m.allModules.map m.moduleAt).filterMap Writer.moduleRecord?)

/-- A bootstrap gives out the records and the modules of an archive. -/
structure GivesOut (b : MappedBoot) (a : Archive) : Prop where
  subgraph : ∀ name, b.subgraph name = (a.subgraph name).map some
  modules : b.modules = a.modules

/-- A record in a dump is the one of a class with archived state. -/
theorem exists_of_get?_dumpWriter {build : Build} {seed : Int64} {hm : m.WellNamed} {name : Text}
    {r : Subgraph} (h : (dumpWriter build seed hm).subgraphs.get? name = some r) :
    ∃ holding ∈ Holding.all, installed.className holding.classId = name ∧
      m.collectSubgraph holding.spec = .ok r := by
  rw [subgraphs_dumpWriter] at h
  have hmem := (Table.mem_entries_iff (Table.ascending_ofList _)).2 h
  obtain ⟨spec, hspec, hname, hcollect⟩ := Writer.mem_collectEach (Table.mem_of_mem_ofList hmem)
  rw [archivableFields_eq] at hspec
  obtain ⟨holding, hholding, rfl⟩ := List.mem_map.1 hspec
  exact ⟨holding, hholding, hname, hcollect⟩

/-- It is the graph of the archived array, and the class was ready. -/
theorem exists_collected_of_get? (hevolves : installed.Evolves m) {build : Build} {seed : Int64}
    {hm : m.WellNamed} (hmem : holding ∈ Holding.all) {r : Subgraph}
    (h : (dumpWriter build seed hm).subgraphs.get? (installed.className holding.classId) = some r) :
    m.stateOf holding.classId = .ready ∧
      ∃ found, m.Collected holding.classId [holding.field] found r := by
  obtain ⟨other, hother, hname, hcollect⟩ := exists_of_get?_dumpWriter h
  have hsame : other.classId = holding.classId := by
    by_contra hne
    exact className_ne hmem hother hne hname
  obtain rfl := eq_of_classId_eq hmem hother hsame
  obtain ⟨c, found, hc, hcollected⟩ := Machine.collected_of_collectSubgraph hcollect
  have hlookup : m.lookup (installed.className other.classId) = some c :=
    Machine.lookup_of_archivableClass hc
  rw [hevolves.lookup, lookup_holding hmem] at hlookup
  obtain rfl := Option.some.inj hlookup
  exact ⟨Machine.ready_of_archivableClass hc, found, hcollected⟩

/-- **What a process finds in a dump that it has opened.** -/
theorem found_of_decode (hevolves : installed.Evolves m) {build : Build} {seed : Int64}
    {hm : m.WellNamed} {a : Archive} {b : MappedBoot}
    (haddress : (dumpWriter build seed hm).encode.length < 2 ^ 64)
    (hdecode : Archive.decode (dumpWriter build seed hm).encode = .ok a) (hbase : GivesOut b a) :
    Found b m := by
  have hsound := sound_dumpWriter build seed hm
  have hascending := ascending_dumpWriter build seed hm
  obtain ⟨-, rfl⟩ := (Writer.decode_encode_eq_ok_iff (.inl (kind_dumpWriter build seed hm)) hsound
    haddress).1 hdecode
  constructor
  · intro holding hmem
    rw [hbase.subgraph]
    cases hget :
        (dumpWriter build seed hm).subgraphs.get? (installed.className holding.classId) with
    | none =>
      rw [Writer.subgraph_archive_eq_error hget]
      exact .inl ⟨_, rfl⟩
    | some r =>
      rw [Writer.subgraph_archive hsound haddress hascending hget]
      by_cases hstorable : r.Storable
      · obtain ⟨hready, found, hcollected⟩ := exists_collected_of_get? hevolves hmem hget
        rw [if_pos hstorable, hcollected.trimmed]
        refine .inr ⟨⟨found, r, hcollected, ?_, ?_⟩, hready⟩
        · have hlimit := hstorable.objects.limited
          rw [hcollected.objects, getD_presentList, List.length_map] at hlimit
          exact hlimit
        · rw [hbase.subgraph, Writer.subgraph_archive hsound haddress hascending hget,
            if_pos hstorable, hcollected.trimmed]
          rfl
      · rw [if_neg hstorable]
        exact .inl ⟨_, rfl⟩
  · intro k hk
    rw [hbase.subgraph]
    cases hget : (dumpWriter build seed hm).subgraphs.get? (installed.className k) with
    | none =>
      rw [Writer.subgraph_archive_eq_error hget]
      exact ⟨_, rfl⟩
    | some r =>
      obtain ⟨holding, hmem, hname, -⟩ := exists_of_get?_dumpWriter hget
      exact absurd hname (className_plain_ne hk hmem)
  · rw [hbase.modules, Writer.modules_archive]
    exact (Writer.sortedModules_perm _).trans (.of_eq (modules_dumpWriter build seed hm))

/-- **What a process finds in a dump of the library that it has opened.** -/
theorem Complete.archives_of_decode (h : Complete specs m) (hspecs : Resolvable specs)
    {build : Build} {seed : Int64} {hm : m.WellNamed} {a : Archive} {b : MappedBoot}
    (haddress : (dumpWriter build seed hm).encode.length < 2 ^ 64)
    (hdecode : Archive.decode (dumpWriter build seed hm).encode = .ok a) (hbase : GivesOut b a) :
    Archives b m := by
  have hsound := sound_dumpWriter build seed hm
  have hfound := found_of_decode h.evolves haddress hdecode hbase
  obtain ⟨-, rfl⟩ := (Writer.decode_encode_eq_ok_iff (.inl (kind_dumpWriter build seed hm)) hsound
    haddress).1 hdecode
  obtain ⟨record, hrecord, hcollect⟩ := h.exists_records hspecs
  refine ⟨fun holding hmem => ?_, hfound.unrecorded⟩
  obtain ⟨found, hcollected, hlimit, hstorable, htrimmed⟩ := hrecord holding hmem
  refine ⟨found, record holding, hcollected, hlimit, ?_⟩
  have hdistinct : ((Holding.all.map fun holding =>
      (installed.className holding.classId, record holding)).map Prod.fst).Nodup := by
    rw [List.map_map]
    exact (by decide : (Holding.all.map fun holding =>
      installed.className holding.classId).Nodup)
  have hget : (dumpWriter build seed hm).subgraphs.get? (installed.className holding.classId)
      = some (record holding) := by
    rw [subgraphs_dumpWriter, hcollect]
    exact Table.get?_ofList_of_mem hdistinct (List.mem_map_of_mem hmem)
  rw [hbase.subgraph, Writer.subgraph_archive hsound haddress
    (ascending_dumpWriter build seed hm) hget, if_pos hstorable, htrimmed]
  rfl

end Archiving

end Library

end ClassSharing
