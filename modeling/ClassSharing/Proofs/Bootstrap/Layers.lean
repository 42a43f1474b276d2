import ClassSharing.Bootstrap.Dump
import ClassSharing.Proofs.Bootstrap.Agreement
import ClassSharing.Proofs.Files.Replacing
import ClassSharing.Proofs.Image.Size
import ClassSharing.Proofs.Machine.Frame

/-!
# A layer on a base

A process that dumps a static archive leaves a file that another process can use as its base. That
process dumps the names of the classes that it has initialized and the base does not have, in
another file. A third process that is given both files maps both.

What is in the two archives follows from the writers alone; that the third process finds them
follows from the files alone. Installing the layer does not touch the base, since the two paths mean
different places.

## Main definitions

* `Machine.Initialized`: a class of some name has been initialized
* `MappedBoot.staticWriter`, `MappedBoot.layerWriter`: the writers of the two kinds of dumps

## Main results

* `Machine.mem_readyNames`, `Machine.pairwise_readyNames`: the recorded names
* `MappedBoot.install_of_dumpStatic`, `MappedBoot.install_of_dumpDynamic`: what a dump writes
* `MappedBoot.layered_dumps`: two dumps on top of each other
-/

namespace ClassSharing

open Image

namespace Machine

/-! ### Initialized classes -/

/-- The class that is registered under a name has been initialized. -/
def Initialized (m : Machine) (name : Text) : Prop :=
  ∃ c, m.lookup name = some c ∧ (m.classAt c).isReady = true

section ReadyNames

variable {m : Machine}

theorem readyNames_eq (hnamed : m.WellNamed) (hnames : m.names.Ascending) :
    m.readyNames
      = (m.names.entries.filter fun e => (m.classAt e.2).isReady).map Prod.fst := by
  rw [readyNames, allClasses, Table.values, List.filter_map, List.map_map]
  refine List.map_congr_left fun e he => ?_
  have hlookup := (Table.mem_entries_iff hnames).1 (List.mem_of_mem_filter he)
  exact (hnamed e.1 e.2 hlookup).2

/-- **The names that a dump records** are those of the initialized classes, -/
theorem mem_readyNames (hnamed : m.WellNamed) (hnames : m.names.Ascending) {name : Text} :
    name ∈ m.readyNames ↔ m.Initialized name := by
  rw [readyNames_eq hnamed hnames]
  simp only [List.mem_map, List.mem_filter, Prod.exists, exists_and_right, exists_eq_right,
    Table.mem_entries_iff hnames]
  rfl

/-- each of them once, in ascending order. -/
theorem pairwise_readyNames (hnamed : m.WellNamed) (hnames : m.names.Ascending) :
    m.readyNames.Pairwise fun a b => a.precedes b = true := by
  rw [readyNames_eq hnamed hnames]
  exact List.pairwise_map.2 (List.Pairwise.filter _ hnames)

theorem ascending_names_addClass (h : m.names.Ascending) (k : Class) :
    (m.addClass k).2.names.Ascending :=
  Table.ascending_insert h k.fullName m.classes.size

end ReadyNames

end Machine

/-! ### The writers of dumps -/

namespace MappedBoot

/-- What the writer of a static dump is told about a machine. -/
def staticCalls {m : Machine} (hm : m.WellNamed) (specs : List FieldSpec) : List Writer.Call :=
  [.addModules (m.allModules.map m.moduleAt), .addClasses m.readyNames, .archiveFields m hm specs]

/-- The writer of a static dump. -/
def staticWriter (build : Build) (seed : Int64) {m : Machine} (hm : m.WellNamed)
    (specs : List FieldSpec) : Writer :=
  (Writer.new staticKind build seed 0).callAll (staticCalls hm specs)

/-- The names that a layer adds to its base. -/
def extraNames (base : Archive) (m : Machine) : List Text :=
  m.readyNames.filter fun name => !base.classes.contains name

/-- The writer of a dynamic dump. -/
def layerWriter (build : Build) (base : Archive) (m : Machine) : Writer :=
  (Writer.new dynamicKind build 0 0).callAll
    [.setBaseChecksum base.identity, .addClasses (extraNames base m)]

section Dumping

variable {b : MappedBoot} {m : Machine} {t t' : FileTree} {c : Config} {build : Build}
  {seed : Int64} {specs : List FieldSpec} {report : DumpReport} {base : Archive}

theorem staticWriter_eq (build : Build) (seed : Int64) (hm : m.WellNamed)
    (specs : List FieldSpec) : (staticWriter build seed hm specs).kind = staticKind ∧
      (staticWriter build seed hm specs).build = build ∧
      (staticWriter build seed hm specs).classes = m.readyNames := by
  obtain ⟨skipped, heq⟩ := Writer.callAll_new staticKind build seed (staticCalls hm specs)
  rw [staticWriter, heq]
  exact ⟨rfl, rfl, List.append_nil _⟩

/-- **A static dump installs what its writer writes** and reports how many names it has recorded. -/
theorem install_of_dumpStatic (hm : m.WellNamed)
    (h : b.dumpStatic m t seed specs = (.ok report, t')) :
    t.install {} b.config.archivePath (staticWriter b.build seed hm specs).encode = (.ok (), t') ∧
      report.classes = m.readyNames.length := by
  rw [dumpStatic] at h
  simp only at h
  split at h
  · cases h
  · rename_i w hw
    have hwriter : staticWriter b.build seed hm specs = w := congrArg Prod.snd hw
    rw [Writer.writeFile] at h
    split at h
    · cases h
    · rename_i t'' hinstall
      obtain ⟨hreport, rfl⟩ := Prod.mk.inj h
      rw [hwriter, hinstall, ← Except.ok.inj hreport]
      exact ⟨rfl, rfl⟩

/-- **A dynamic dump installs what its writer writes** and reports how many names it has recorded.
-/
theorem install_of_dumpDynamic (hbase : b.base = some base)
    (h : b.dumpDynamic m t = (.ok report, t')) :
    b.config.topPath ≠ Text.empty ∧
      t.install {} b.config.topPath (layerWriter b.build base m).encode = (.ok (), t') ∧
      report.classes = (extraNames base m).length := by
  rw [dumpDynamic, hbase] at h
  simp only at h
  split at h
  · cases h
  · rename_i htop
    rw [Bool.or_eq_true, not_or] at htop
    have hwriter : ((Writer.new dynamicKind b.build 0 0).setBaseChecksum base.identity).addClasses
        (extraNames base m) = layerWriter b.build base m := rfl
    rw [← extraNames, hwriter, Writer.writeFile] at h
    split at h
    · cases h
    · rename_i t'' hinstall
      obtain ⟨hreport, rfl⟩ := Prod.mk.inj h
      rw [hinstall, ← Except.ok.inj hreport]
      exact ⟨fun hempty => htop.2 (Text.isEmpty_iff.2 hempty), rfl, rfl⟩

/-! ### Opening on top of each other -/

/-- **A file with a static dump** is a base that the same build can use. -/
theorem exists_usableBase {number : Nat} (hm : m.WellNamed) (hnames : m.names.Ascending)
    (hfind : t.find c.archivePath = .ok (.file number (staticWriter build seed hm specs).encode))
    (hstorable : (staticWriter build seed hm specs).Storable) :
    ∃ base, UsableBase t c build base ∧ base.classes = m.readyNames ∧
      base.header = (staticWriter build seed hm specs).archive.header := by
  obtain ⟨hkind, hbuild, hclasses⟩ := staticWriter_eq build seed hm specs
  refine ⟨_, ⟨Writer.openFile_of_find hfind (.inl hkind) (Writer.sound_callAll _ _ _ _) hstorable,
    hkind, hbuild⟩, ?_, rfl⟩
  refine (Writer.classes_archive _).trans ?_
  rw [hclasses]
  exact Text.sortedUnique_eq (fun _ => Iff.rfl) (Machine.pairwise_readyNames hm hnames)

theorem pairwise_extraNames (hm : m.WellNamed) (hnames : m.names.Ascending) (base : Archive) :
    (extraNames base m).Pairwise fun a b => a.precedes b = true :=
  List.Pairwise.filter _ (Machine.pairwise_readyNames hm hnames)

theorem mem_extraNames (hm : m.WellNamed) (hnames : m.names.Ascending) {name : Text} :
    name ∈ extraNames base m ↔ m.Initialized name ∧ name ∉ base.classes := by
  rw [extraNames, List.mem_filter, Machine.mem_readyNames hm hnames]
  simp

/-- **A file with a dynamic dump** is a layer on every base with the same header. -/
theorem exists_fittingTop {number : Nat} {base' : Archive} (hm : m.WellNamed)
    (hnames : m.names.Ascending)
    (hfind : t.find c.topPath = .ok (.file number (layerWriter build base m).encode))
    (hstorable : (layerWriter build base m).Storable) (hsame : base'.header = base.header) :
    ∃ top, FittingTop t c base' top ∧ top.classes = extraNames base m ∧ top.entries = [] ∧
      top.modules = [] := by
  refine ⟨_, ⟨Writer.openFile_of_find hfind (.inr rfl) (Writer.sound_callAll _ _ _ _) hstorable,
    rfl, (congrArg Header.directoryChecksum hsame).symm⟩, ?_, ?_, ?_⟩
  · refine (Writer.classes_archive _).trans ?_
    exact Text.sortedUnique_eq (fun _ => by rfl) (pairwise_extraNames hm hnames base)
  · exact Writer.entries_archive _
  · refine (Writer.modules_archive _).trans (List.perm_nil.1 ?_)
    exact Writer.sortedModules_perm _

theorem openWith_of_dumpDynamic (hmode : c.mode? = some .dumpDynamic)
    (hbase : UsableBase t c build base) :
    openWith t c build = .ok ⟨c, build,
      (loggingStatus c).set (Status.usingFlag ||| Status.dumpingFlag), some base, none⟩ := by
  rw [openWith_dumpDynamic hmode, mapDumpBase, mapBase_eq_ok_iff.2 hbase]
  rfl

/-- A process that is given a usable base and a layer on it maps both. -/
theorem exists_openWith_use (hmode : c.mode? = some .use) (hbase : UsableBase t c build base)
    {top : Archive} (htop : FittingTop t c base top) (hset : c.topPath ≠ Text.empty) :
    ∃ b, openWith t c build = .ok b ∧ b.base = some base ∧ b.top = some top := by
  have hmapped : mapOptionalTop t c base = .ok (some top) := by
    rw [mapOptionalTop, if_neg, mapTop_eq_ok_iff.2 htop]
    rw [isMissing_eq_false htop.opens, Bool.or_false, Text.isEmpty_iff]
    exact hset
  refine ⟨⟨c, build, (loggingStatus c).set (flagsOf .use true), some base, some top⟩, ?_, rfl, rfl⟩
  rw [openWith_of_used hmode (.inl rfl), mapUsed, mapArchives_of_usable hbase, hmapped]
  rfl

/-- A process that dumps statically. -/
theorem dump_of_dumpStatic (hmode : c.mode? = some .dumpStatic)
    (hopen : openWith t c build = .ok b) (m : Machine) (t' : FileTree) (seed : Int64)
    (specs : List FieldSpec) :
    b.config = c ∧ b.build = build ∧
      (Bootstrap.mapped b).dump m t' seed specs = b.dumpStatic m t' seed specs := by
  obtain ⟨b', hopen', hdumping, hstatic, -⟩ := exists_openWith_dumpStatic t build hmode
  obtain rfl := Except.ok.inj (hopen'.symm.trans hopen)
  have hopened := opened_of_openWith hopen
  refine ⟨hopened.config_eq, hopened.build_eq, ?_⟩
  rw [Bootstrap.dump, hdumping, hstatic]
  rfl

/-- A process that dumps a layer. -/
theorem dump_of_dumpDynamic (hstatus : b.status
      = (loggingStatus c).set (Status.usingFlag ||| Status.dumpingFlag)) (m : Machine)
    (t : FileTree) (seed : Int64) (specs : List FieldSpec) :
    (Bootstrap.mapped b).dump m t seed specs = b.dumpDynamic m t := by
  have hflags : b.status.isDumping = true ∧ b.status.isDumpingStatic = false := by
    rw [hstatus]
    rcases loggingStatus_cases c with hstart | hstart <;> rw [hstart] <;> decide
  rw [Bootstrap.dump, hflags.1, hflags.2]
  rfl

end Dumping

/-! ### Two dumps -/

section Layers

variable {t t₀ t₁ t₂ : FileTree} {c₁ c₂ c₃ : Config} {build : Build} {m₁ m₂ : Machine}
  {b₁ b₂ : MappedBoot} {seed₁ seed₂ : Int64} {specs₁ specs₂ : List FieldSpec}
  {report₁ report₂ : DumpReport}

/-- **A static and a dynamic dump on top of each other.** One process dumps a static archive, and
another one that has opened it dumps a layer under a path that means another place. What is recorded
is within the limits of the format. Then a third process that uses both maps both. The base has the
names of the classes that the first process has initialized, and the layer those of the classes that
the second process has initialized and the base does not have, each list in strictly ascending
order. The layer has nothing else, and it names its base. Both reports give the numbers of the
recorded names. -/
theorem layered_dumps (hgrounded : t₀.Grounded)
    (hnamed₁ : m₁.WellNamed) (hnames₁ : m₁.names.Ascending)
    (hnamed₂ : m₂.WellNamed) (hnames₂ : m₂.names.Ascending)
    (hmode₁ : c₁.mode? = some .dumpStatic) (hopen₁ : openWith t c₁ build = .ok b₁)
    (hdump₁ : (Bootstrap.mapped b₁).dump m₁ t₀ seed₁ specs₁ = (.ok report₁, t₁))
    (hstorable₁ : (staticWriter build seed₁ hnamed₁ specs₁).Storable)
    (hmode₂ : c₂.mode? = some .dumpDynamic) (hpath₂ : c₂.archivePath = c₁.archivePath)
    (hopen₂ : openWith t₁ c₂ build = .ok b₂)
    (hdump₂ : (Bootstrap.mapped b₂).dump m₂ t₁ seed₂ specs₂ = (.ok report₂, t₂))
    (hstorable₂ : ∀ base, b₂.base = some base → (layerWriter build base m₂).Storable)
    (hapart : t₀.resolve c₁.archivePath ≠ t₀.resolve c₂.topPath)
    (hmode₃ : c₃.mode? = some .use) (hpath₃ : c₃.archivePath = c₁.archivePath)
    (htop₃ : c₃.topPath = c₂.topPath) :
    ∃ b₃ base top, openWith t₂ c₃ build = .ok b₃ ∧ b₃.base = some base ∧ b₃.top = some top ∧
      (base.classes.Pairwise (fun x y => x.precedes y = true) ∧
        ∀ name, name ∈ base.classes ↔ m₁.Initialized name) ∧
      (top.classes.Pairwise (fun x y => x.precedes y = true) ∧
        ∀ name, name ∈ top.classes ↔ m₂.Initialized name ∧ name ∉ base.classes) ∧
      ((∀ name ∈ top.classes, name ∉ base.classes) ∧
        ∀ name, m₂.Initialized name → name ∈ base.classes ∨ name ∈ top.classes) ∧
      top.entries = [] ∧ top.modules = [] ∧
      top.header.baseChecksum = base.header.directoryChecksum ∧
      report₁.classes = base.classes.length ∧ report₂.classes = top.classes.length := by
  -- The first process leaves a base.
  obtain ⟨hconfig₁, hbuild₁, hstatic⟩ := dump_of_dumpStatic hmode₁ hopen₁ m₁ t₀ seed₁ specs₁
  rw [hstatic] at hdump₁
  obtain ⟨hinstall₁, hreport₁⟩ := install_of_dumpStatic hnamed₁ hdump₁
  rw [hconfig₁, hbuild₁] at hinstall₁
  obtain ⟨hgrounded₁, hcurrent₁, ⟨n₁, hfind₁⟩, -⟩ := hgrounded.install hinstall₁
  obtain ⟨base₂, hbase₂, hclasses₂, hheader₂⟩ := exists_usableBase (c := c₂) hnamed₁ hnames₁
    (by rw [hpath₂]; exact hfind₁) hstorable₁
  -- The second process has it and leaves a layer.
  obtain rfl := Except.ok.inj ((openWith_of_dumpDynamic hmode₂ hbase₂).symm.trans hopen₂)
  rw [dump_of_dumpDynamic rfl] at hdump₂
  obtain ⟨hset, hinstall₂, hreport₂⟩ := install_of_dumpDynamic rfl hdump₂
  obtain ⟨-, -, ⟨n₂, hfind₂⟩, hkept⟩ := hgrounded₁.install hinstall₂
  -- Both files are there for the third one.
  have hresolve : ∀ p, t₁.resolve p = t₀.resolve p := fun p => by
    rw [FileTree.resolve, FileTree.resolve, hcurrent₁]
  have hfind₁' : t₂.find c₁.archivePath = .ok (.file n₁ _) :=
    hkept _ _ (by rw [hresolve, hresolve]; exact hapart) hfind₁
  obtain ⟨base, hbase, hclasses, hheader⟩ := exists_usableBase (c := c₃) hnamed₁ hnames₁
    (by rw [hpath₃]; exact hfind₁') hstorable₁
  obtain ⟨top, htop, htopClasses, hentries, hmodules⟩ := exists_fittingTop (c := c₃) hnamed₂ hnames₂
    (by rw [htop₃]; exact hfind₂) (hstorable₂ base₂ rfl) (hheader.trans hheader₂.symm)
  obtain ⟨b₃, hopen₃, hbase₃, htop₃'⟩ := exists_openWith_use hmode₃ hbase htop (htop₃ ▸ hset)
  have hextra : ∀ name, name ∈ top.classes ↔ m₂.Initialized name ∧ name ∉ base.classes := by
    intro name
    rw [htopClasses, mem_extraNames hnamed₂ hnames₂, hclasses₂, hclasses]
  refine ⟨b₃, base, top, hopen₃, hbase₃, htop₃', ⟨?_, fun name => ?_⟩, ⟨?_, hextra⟩,
    ⟨fun name hname => ((hextra name).1 hname).2, fun name hname => ?_⟩, hentries, hmodules,
    htop.layered, ?_, ?_⟩
  · rw [hclasses]
    exact Machine.pairwise_readyNames hnamed₁ hnames₁
  · rw [hclasses, Machine.mem_readyNames hnamed₁ hnames₁]
  · rw [htopClasses]
    exact pairwise_extraNames hnamed₂ hnames₂ base₂
  · exact or_iff_not_imp_left.2 fun hnot => (hextra name).2 ⟨hname, hnot⟩
  · rw [hreport₁, hclasses]
  · rw [hreport₂, htopClasses]

end Layers

/-! ### Two classes -/

/-- The settings of three processes that differ in the mode. -/
def layersConfig (mode : Mode) : Config :=
  { mode := mode.name, path := "/lib.cds", top := "/top.cds" }

/-- The build of these processes. -/
def layersBuild : Build := ⟨"1", "release", "vm", 21⟩

/-- A new machine whose root class has been initialized. -/
def rootMachine : Machine := Machine.new.setState Machine.objectClass .ready

/-- A machine whose array class has been initialized as well. -/
def arrayMachine : Machine := rootMachine.setState Machine.arrayClass .ready

theorem wellNamed_rootMachine : rootMachine.WellNamed :=
  (Machine.evolves_setState _ _ _).wellNamed Machine.wellNamed_new

theorem wellNamed_arrayMachine : arrayMachine.WellNamed :=
  (Machine.evolves_setState _ _ _).wellNamed wellNamed_rootMachine

/-- A writer of a few short names and nothing else. -/
theorem storable_of_names {w : Writer} {names : List Text} (hbuild : w.build = layersBuild)
    (hmodules : w.modules = []) (hsubgraphs : w.subgraphs.entries = [])
    (hclasses : w.classes = names)
    (hlimited : names.length ≤ Cbor.maxLength)
    (hnames : ∀ name ∈ names, name.Storable ∧ name.Short) : w.Storable := by
  have hstorable : BuildStorable layersBuild ∧
      (buildToItem layersBuild).encode.length ≤ 2 ^ 14 := by decide
  have hunique : (Text.sortedUnique w.classes).length ≤ Cbor.maxLength := by
    rw [hclasses]
    exact (Text.length_sortedUnique_le names).trans hlimited
  have hnone : w.subgraphs.entries.length = 0 := by rw [hsubgraphs, List.length_nil]
  refine ⟨by rw [hbuild]; exact hstorable.1, by rw [hmodules]; decide,
    by rw [hclasses]; exact fun name hname => (hnames name hname).1, hunique,
    by rw [hsubgraphs]; exact ⟨Nat.zero_le _, nofun⟩, ?_⟩
  refine Writer.length_encode_lt (by rw [hbuild]; exact hstorable.2) (by rw [hmodules]; decide)
    hunique ?_ (by rw [hnone]; exact Nat.zero_le 32) (by rw [hsubgraphs]; nofun)
  rw [hclasses]
  exact fun name hname => (hnames name hname).2

/-- A new tree with the file of a base. -/
def layersTree (base : Bytes) : FileTree :=
  ⟨⟨[("/", .directory), ("/dev", .directory), ("/dev/full", .fullDevice),
    ("/lib.cds", .file 0 base)]⟩, "/", 1⟩

/-- Both files can be installed in a new tree, whatever they hold. -/
theorem install_layers (base : Bytes) : ∃ t₁,
    (FileTree.new "/").install {} "/lib.cds" base = (.ok (), t₁) ∧
      ∀ top, (t₁.install {} "/top.cds" top).1 = .ok () := by
  have hdirectory : (layersTree base).resolve (Path.directory "/top.cds") = "/" := rfl
  have hready : (layersTree base).makeDirectories (Path.directory "/top.cds")
      = (.ok (), layersTree base) := rfl
  have hfree : (layersTree base).nodes.contains ((layersTree base).resolve "/.cds-*") = false := rfl
  have hname : Path.join "/" (FileTree.temporaryName 0) = "/.cds-*" := by decide
  have htemporary : (layersTree base).freshPath "/" = "/.cds-*" := by
    rw [FileTree.freshPath_of_free (by rw [hname]; exact hfree), hname]
  refine ⟨layersTree base, rfl, fun top => ?_⟩
  rw [FileTree.install]
  simp only [hready, hdirectory, htemporary]
  rfl

/-- A static dump of no fields succeeds if its file can be installed. -/
theorem exists_dumpStatic_nil {b : MappedBoot} {m : Machine} {t t' : FileTree} {seed : Int64}
    (hm : m.WellNamed) (hinstall : t.install {} b.config.archivePath
      (staticWriter b.build seed hm []).encode = (.ok (), t')) :
    ∃ report, b.dumpStatic m t seed [] = (.ok report, t') := by
  have hfields : (((Writer.new staticKind b.build seed 0).addModules
      (m.allModules.map m.moduleAt)).addClasses m.readyNames).archiveFields m []
      = (.ok (), staticWriter b.build seed hm []) := rfl
  rw [dumpStatic]
  simp only [hfields, Writer.writeFile, hinstall]
  exact ⟨_, rfl⟩

/-- A dynamic dump succeeds if it has a base, and its file can be installed. -/
theorem exists_dumpDynamic {b : MappedBoot} {m : Machine} {t : FileTree} {base : Archive}
    (hbase : b.base = some base) (hmode : b.config.mode? = some .dumpDynamic)
    (hset : b.config.topPath ≠ Text.empty)
    (hinstall : (t.install {} b.config.topPath (layerWriter b.build base m).encode).1 = .ok ()) :
    ∃ report t', b.dumpDynamic m t = (.ok report, t') := by
  have hwriter : ((Writer.new dynamicKind b.build 0 0).setBaseChecksum base.identity).addClasses
      (m.readyNames.filter fun name => !base.classes.contains name)
      = layerWriter b.build base m := rfl
  have hunset : b.config.topPath.isEmpty = false := by
    rw [Bool.eq_false_iff, Ne, Text.isEmpty_iff]
    exact hset
  rw [dumpDynamic, hbase]
  simp only [hmode, hunset, hwriter, Writer.writeFile]
  cases hresult : t.install {} b.config.topPath (layerWriter b.build base m).encode with
  | mk answer t' =>
    rw [hresult] at hinstall
    obtain rfl : answer = .ok () := hinstall
    exact ⟨_, t', rfl⟩

/-- The base has the root class, and the layer adds the array class. -/
theorem layered_dumps_arrayMachine :
    ∃ t₁ t₂ report₁ report₂ b₁ b₂ b₃ base top,
      openWith (FileTree.new "/") (layersConfig .dumpStatic) layersBuild = .ok b₁ ∧
      (Bootstrap.mapped b₁).dump rootMachine (FileTree.new "/") 7 [] = (.ok report₁, t₁) ∧
      openWith t₁ (layersConfig .dumpDynamic) layersBuild = .ok b₂ ∧
      (Bootstrap.mapped b₂).dump arrayMachine t₁ 8 [] = (.ok report₂, t₂) ∧
      openWith t₂ (layersConfig .use) layersBuild = .ok b₃ ∧ b₃.base = some base ∧
      b₃.top = some top ∧ ("Object" : Text) ∈ base.classes ∧ ("Array" : Text) ∈ top.classes := by
  have hnames : Machine.new.names.Ascending :=
    Machine.ascending_names_addClass (Machine.ascending_names_addClass Table.ascending_empty _) _
  have hmode : ∀ mode, (layersConfig mode).mode? = some mode := Mode.ofName?_name
  -- The first dump.
  obtain ⟨b₁, hopen₁, -⟩ := exists_openWith_dumpStatic (FileTree.new "/") layersBuild
    (hmode .dumpStatic)
  obtain ⟨hconfig₁, hbuild₁, hdump⟩ := dump_of_dumpStatic (hmode .dumpStatic) hopen₁ rootMachine
    (FileTree.new "/") 7 []
  obtain ⟨t₁, hinstall₁, hinstall₂⟩ :=
    install_layers (staticWriter layersBuild 7 wellNamed_rootMachine []).encode
  obtain ⟨report₁, hdump₁⟩ := exists_dumpStatic_nil wellNamed_rootMachine
    (by rw [hconfig₁, hbuild₁]; exact hinstall₁)
  rw [← hdump] at hdump₁
  have hstorable₁ : (staticWriter layersBuild 7 wellNamed_rootMachine []).Storable :=
    storable_of_names rfl rfl rfl rfl (by decide) (by decide)
  -- The second dump.
  obtain ⟨-, -, ⟨number, hfind⟩, -⟩ := FileTree.grounded_new.install hinstall₁
  obtain ⟨base₂, hbase₂, hclasses₂, -⟩ := exists_usableBase (c := layersConfig .dumpDynamic)
    wellNamed_rootMachine hnames hfind hstorable₁
  have hopen₂ := openWith_of_dumpDynamic (hmode .dumpDynamic) hbase₂
  have hset : (layersConfig .dumpDynamic).topPath ≠ Text.empty := by decide
  have hsucceeds : ∀ status, ∃ report t', dumpDynamic ⟨layersConfig .dumpDynamic, layersBuild,
      status, some base₂, none⟩ arrayMachine t₁ = (.ok report, t') :=
    fun status => exists_dumpDynamic rfl (hmode .dumpDynamic) hset (hinstall₂ _)
  obtain ⟨report₂, t₂, hdump₂⟩ := hsucceeds _
  rw [← dump_of_dumpDynamic rfl arrayMachine t₁ 8 []] at hdump₂
  have hextra : extraNames base₂ arrayMachine = (["Array"] : List Text) := by
    rw [extraNames, hclasses₂]
    decide
  have hstorable₂ : (layerWriter layersBuild base₂ arrayMachine).Storable :=
    storable_of_names rfl rfl rfl hextra (by decide) (by decide)
  obtain ⟨b₃, base, top, hopen₃, hbase₃, htop₃, ⟨-, hbase⟩, ⟨-, htop⟩, -⟩ := layered_dumps
    FileTree.grounded_new wellNamed_rootMachine hnames wellNamed_arrayMachine hnames
    (hmode .dumpStatic) hopen₁ hdump₁ hstorable₁ (hmode .dumpDynamic) rfl hopen₂ hdump₂
    (fun base hsame => Option.some.inj hsame ▸ hstorable₂) (by decide) (hmode .use) rfl rfl
  have hroot : ¬ rootMachine.Initialized "Array" := by
    rintro ⟨c, hlookup, hready⟩
    obtain rfl : 1 = c := Option.some.inj hlookup
    cases hready
  exact ⟨t₁, t₂, report₁, report₂, b₁, _, b₃, base, top, hopen₁, hdump₁, hopen₂, hdump₂, hopen₃,
    hbase₃, htop₃, (hbase _).2 ⟨0, rfl, rfl⟩,
    (htop _).2 ⟨⟨1, rfl, rfl⟩, fun hmem => hroot ((hbase _).1 hmem)⟩⟩

end MappedBoot

end ClassSharing
