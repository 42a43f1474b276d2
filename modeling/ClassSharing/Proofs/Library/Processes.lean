import ClassSharing.Proofs.Bootstrap.Opening
import ClassSharing.Proofs.Files.Installing
import ClassSharing.Proofs.Library.Archiving
import ClassSharing.Session.Boot

/-!
# Processes with and without an archive

A process opens its bootstrap, installs the library behind a gate, and initializes the classes with
archived state. Without an archive it computes that state; with an archive that another process has
dumped it restores it. Both end up with the same state, whatever the salts of the processes are.

The two never meet directly. What a process computes depends on the modules alone, so the process
without an archive has the graphs of the process that dumped; and what is restored mirrors what was
dumped.

## Main definitions

* `Library.Process`, `Library.prepare`, `Library.start`: a process, and how it starts
* `Library.commonValues`: the statics that processes have in common

## Main results

* `Library.exists_start_computed`: a process that uses no archive starts
* `Library.start_restored_iso`: a process that uses an archive starts with the same state
-/

namespace ClassSharing

open Image Session

namespace Library

/-! ### Starting -/

/-- What a process works with once the library is initialized. -/
structure Process where
  boot : BootId
  graph : GraphId
  library : Library
deriving DecidableEq

/-- Opens the archives of a process and installs the library on a gate of its own. -/
def prepare (c : Config) (build : Build) (sinks : List Sink) : Run Process := do
  let boot ← Session.openBoot c build
  let gate ← Run.act (Session.newGate (some boot) sinks)
  let library ← install (.gate gate)
  let graph ← Run.act fun s => s.addGraph gate
  modify fun s => { s with hook := some graph }
  return ⟨boot, graph, library⟩

/-- Starts a process: its archives are opened, the library is installed on a gate of its own, and
all classes with archived state are initialized. -/
def start (c : Config) (build : Build) (sinks : List Sink) : Run Process := do
  let process ← prepare c build sinks
  process.library.requestAll
  return process

/-- The process that starting gives. -/
def firstProcess : Process := ⟨0, 0, standard⟩

/-- The session of a process whose library is installed and not yet initialized. -/
def installedSession (files : FileTree) (specs : List ModuleSpec) (entropy : Int64)
    (sinks : List Sink) (b : MappedBoot) : Session :=
  { Session.new files specs entropy with
    machine := installed, hook := some 0, graphs := #[⟨0, Table.empty, false⟩]
    gates := #[⟨some 0, sinks, none⟩], boots := #[.mapped b] }

section Starting

variable {files : FileTree} {specs : List ModuleSpec} {entropy : Int64} {sinks : List Sink}
  {c : Config} {build : Build} {b : MappedBoot} {s' : Session}

/-- Everything up to the first request always goes the same way. -/
theorem prepare_eq (h : MappedBoot.openWith files c build = .ok b) (entropy : Int64)
    (sinks : List Sink) :
    prepare c build sinks (Session.new files specs entropy)
      = (.ok firstProcess, installedSession files specs entropy sinks b) := by
  have hopen : Session.openBoot c build (Session.new files specs entropy)
      = (.ok 0, { Session.new files specs entropy with boots := #[.mapped b] }) := by
    rw [openBoot, exceptBind_apply (exceptGet_apply _)]
    show (Run.ofFailure (MappedBoot.openWith files c build) >>= _) _ = _
    rw [h]
    rfl
  rw [prepare, exceptBind_apply hopen]
  refine (exceptBind_apply (lift_apply _ _)).trans ?_
  refine (exceptBind_apply (install_eq rfl)).trans ?_
  refine (exceptBind_apply (lift_apply _ _)).trans ?_
  exact exceptBind_apply (exceptModify_apply _ _)

theorem start_eq (h : MappedBoot.openWith files c build = .ok b)
    (hall : requestAll standard (installedSession files specs entropy sinks b) = (.ok (), s')) :
    start c build sinks (Session.new files specs entropy) = (.ok firstProcess, s') := by
  rw [start, exceptBind_apply (prepare_eq h entropy sinks)]
  exact exceptBind_apply hall

theorem files_requestEach (classes : List ClassId) :
    Within Evolves (requestEach classes) := by
  have hstable := stable_evolves
  induction classes with
  | nil => exact .exceptPure hstable ()
  | cons c rest ih =>
    refine .exceptBind hstable ?_ fun _ => ih
    exact .exceptBind hstable (x := Run.act (Session.request c)) (within_request c)
      fun answer => within_ofFault hstable answer

theorem hooked_installedSession (h : MappedBoot.Opened files c build b) :
    Hooked b specs (installedSession files specs entropy sinks b) :=
  ⟨rfl, ⟨_, _, rfl⟩, ⟨sinks, none, rfl, .inl rfl⟩, rfl, rfl, h.sound⟩

/-- **A process begins with every class pending.** -/
theorem pending_installedSession (h : MappedBoot.Opened files c build b)
    (hplain : ∀ k ∈ plainClasses, ∃ fault, b.subgraph (installed.className k) = .error fault) :
    Pending b specs Holding.all (installedSession files specs entropy sinks b) where
  hooked := hooked_installedSession h
  evolves := Machine.Evolves.refl installed
  unrecorded := hplain
  idle := by
    show ∀ k ∈ plainClasses, installed.stateOf k = .uninitialized ∨ installed.stateOf k = .ready
    decide
  untouched := by
    have huninitialized : ∀ holding ∈ Holding.all,
        installed.stateOf holding.classId = .uninitialized ∧
          installed.static holding.classId holding.field = .nil := by
      simp only [Holding.all, List.forall_mem_cons]
      exact ⟨by decide, by decide, by decide, by decide, by simp⟩
    exact fun holding hmem =>
      ⟨(huninitialized holding hmem).1, (huninitialized holding hmem).2, fun _ _ => rfl⟩

/-- What is known of a process whose library is installed. -/
theorem pending_of_prepare {p : Process} (h : MappedBoot.openWith files c build = .ok b)
    (hprepare : prepare c build sinks (Session.new files specs entropy) = (.ok p, s'))
    (hplain : ∀ k ∈ plainClasses, ∃ fault, b.subgraph (installed.className k) = .error fault) :
    p = firstProcess ∧ Pending b specs Holding.all s' := by
  rw [prepare_eq h] at hprepare
  obtain ⟨hp, rfl⟩ := Prod.mk.inj hprepare
  exact ⟨(Except.ok.inj hp).symm, pending_installedSession (MappedBoot.opened_of_openWith h) hplain⟩

/-- **A process that uses no archive starts**, and computes the state of the library. -/
theorem exists_start_computed (hspecs : Resolvable specs)
    (h : MappedBoot.openWith files c build = .ok b) (hnot : b.status.isUsing = false)
    (entropy : Int64) (sinks : List Sink) :
    ∃ s', start c build sinks (Session.new files specs entropy) = (.ok firstProcess, s') ∧
      s'.files = files ∧ s'.bootAt 0 = .mapped b ∧ Complete specs s'.machine := by
  have hopened := MappedBoot.opened_of_openWith h
  have hunmapped := hopened.unmapped hnot
  have hpending : Pending b specs Holding.all (installedSession files specs entropy sinks b) :=
    pending_installedSession hopened fun k _ => hunmapped (installed.className k)
  obtain ⟨s', hall, hpending', hlinkage, hcomputed⟩ :=
    exists_requestAll_computed hspecs hunmapped hpending rfl
  have hunlinked : s'.machine.allModules = [] := by
    rw [Machine.allModules_of_linkage_eq hlinkage]
    show installed.allModules = []
    decide
  have hfiles := files_requestEach standard.classes (installedSession files specs entropy sinks b)
  rw [← requestAll, hall] at hfiles
  exact ⟨s', start_eq h hall, hfiles.files, hpending'.hooked.bootAt, hpending'.evolves, hunlinked,
    hcomputed⟩

/-- **A process that uses an archive of the library starts**, and restores its state. -/
theorem exists_start_restored {m : Machine} (hspecs : Resolvable specs)
    (h : MappedBoot.openWith files c build = .ok b) (husing : b.status.isUsing = true)
    (harchives : Archives b m) (hm : Complete specs m) (entropy : Int64) (sinks : List Sink) :
    ∃ s', start c build sinks (Session.new files specs entropy) = (.ok firstProcess, s') ∧
      installed.Evolves s'.machine ∧ ∀ p ∈ layouts specs, Restored m p.1 p.2.root s' := by
  have hpending : Pending b specs Holding.all (installedSession files specs entropy sinks b) :=
    pending_installedSession (MappedBoot.opened_of_openWith h) harchives.unrecorded
  obtain ⟨s', hall, hrestored⟩ :=
    exists_requestAll_restored hspecs husing harchives hm.evolves hm.computed hpending
  have hevolves := files_requestEach standard.classes (installedSession files specs entropy sinks b)
  rw [← requestAll, hall] at hevolves
  exact ⟨s', start_eq h hall, hevolves.machine, hrestored⟩

end Starting

/-! ### Dumping -/

section Dumping

variable {specs : List ModuleSpec} {b : MappedBoot} {s s' : Session} {id : BootId} {seed : Int64}
  {report : DumpReport}

/-- What a dump writes is in the files of the session afterwards. -/
theorem install_of_dump (hm : s.machine.WellNamed) (hboot : s.bootAt id = .mapped b)
    (hdumping : b.status.isDumping = true) (hstatic : b.status.isDumpingStatic = true)
    (h : Session.dump id seed archivableFields s = (.ok report, s')) :
    s.files.install {} b.config.archivePath (dumpWriter b.build seed hm).encode
      = (.ok (), s'.files) := by
  rw [Session.dump, exceptBind_apply (exceptGet_apply s)] at h
  simp only [hboot, Bootstrap.dump, hdumping, hstatic, Bool.not_true, Bool.false_eq_true, if_false,
    if_true] at h
  cases hdump : b.dumpStatic s.machine s.files seed archivableFields with
  | mk answer t =>
    rw [hdump] at h
    cases answer with
    | error e => cases h
    | ok written =>
      obtain ⟨-, rfl⟩ := Prod.mk.inj h
      exact install_of_dumpStatic hm hdump

/-- **A process that has computed the state of the library can dump it** if the file can be
installed. -/
theorem Complete.exists_dump (hm : Complete specs s.machine) (hspecs : Resolvable specs)
    (hnamed : s.machine.WellNamed) (hboot : s.bootAt id = .mapped b)
    (hdumping : b.status.isDumping = true) (hstatic : b.status.isDumpingStatic = true)
    {t : FileTree} (hinstall : s.files.install {} b.config.archivePath
      (dumpWriter b.build seed hnamed).encode = (.ok (), t)) :
    ∃ report, Session.dump id seed archivableFields s = (.ok report, s.withFiles t) := by
  obtain ⟨report, hdump⟩ := hm.exists_dumpStatic hspecs hnamed hinstall
  refine ⟨report, ?_⟩
  rw [Session.dump, exceptBind_apply (exceptGet_apply s)]
  simp only [hboot, Bootstrap.dump, hdumping, hstatic, Bool.not_true, Bool.false_eq_true, if_false,
    if_true, hdump]
  rfl

/-- **A process of the same build can use what a writer has written to its archive file.** -/
theorem exists_openWith_use {t : FileTree} {c : Config} {w : Writer} {number : Nat}
    (hmode : c.mode? = some .use) (htop : c.topPath.isEmpty = true)
    (hfind : t.find c.archivePath = .ok (.file number w.encode)) (hkind : w.kind = staticKind)
    (hsound : w.Sound) (hstorable : w.Storable) :
    ∃ b, MappedBoot.openWith t c w.build = .ok b ∧ b.status.isUsing = true := by
  have hbase : MappedBoot.mapBase t c w.build
      = .ok { w.archive with path := c.archivePath, source := some number } := by
    have hopen := Writer.openFile_of_find hfind (.inl hkind) hsound hstorable
    rw [MappedBoot.mapBase, hopen]
    exact (if_neg (not_not.2 hkind)).trans (if_neg (not_not.2 rfl))
  have hused : MappedBoot.mapUsed t c w.build false
      = .ok (some { w.archive with path := c.archivePath, source := some number }, none) := by
    rw [MappedBoot.mapUsed, MappedBoot.mapArchives]
    simp only [hbase, Bool.false_eq_true, if_false, Except.map, MappedBoot.mapOptionalTop, htop,
      Bool.true_or, if_true]
  refine ⟨⟨c, w.build, (MappedBoot.loggingStatus c).set Status.usingFlag,
    some { w.archive with path := c.archivePath, source := some number }, none⟩, ?_, ?_⟩
  · have hauto : decide (Mode.use = Mode.auto) = false := by decide
    rw [MappedBoot.openWith]
    simp only [hmode]
    rw [hauto, hused]
    rfl
  · rcases MappedBoot.loggingStatus_cases c with hstart | hstart <;> simp only [hstart] <;> decide

/-- What a process that uses the dump of another one has read. -/
theorem exists_decoded_of_dump (hnamed : s.machine.WellNamed) (hboot : s.bootAt id = .mapped b)
    (hdumping : b.status.isDumping = true) (hstatic : b.status.isDumpingStatic = true)
    (h : Session.dump id seed archivableFields s = (.ok report, s'))
    {t : FileTree} {c : Config} {build : Build} {b' : MappedBoot}
    (hopened : MappedBoot.Opened t c build b') (husing : b'.status.isUsing = true)
    (hread : t.read c.archivePath = s'.files.read b.config.archivePath)
    (hsize : ∀ data, t.read c.archivePath = .ok data → data.length < 2 ^ 64) :
    ∃ a, (dumpWriter b.build seed hnamed).encode.length < 2 ^ 64 ∧
      Archive.decode (dumpWriter b.build seed hnamed).encode = .ok a ∧ GivesOut b' a := by
  have hinstall := install_of_dump hnamed hboot hdumping hstatic h
  obtain ⟨a, hbase, hmap⟩ := hopened.exists_base husing
  obtain ⟨data, opened, number, hdata, hdecode, rfl⟩ := MappedBoot.mapBase_ok hmap
  have hlength := hsize data hdata
  rw [hread] at hdata
  obtain rfl := FileTree.read_install hinstall hdata
  refine ⟨opened, hlength, hdecode, fun name => ?_, ?_⟩
  · rw [MappedBoot.subgraph, hbase]
    rfl
  · rw [MappedBoot.modules, hbase]
    rfl

end Dumping

/-! ### The same state -/

/-- The names of the statics that processes have in common. The salt of a process, and the order in
which it visits sets, are its own. -/
def commonNames (m : Machine) (c : ClassId) : List Text :=
  (m.classAt c).statics.names.filter fun name => name ≠ "salt" && name ≠ "reverse"

/-- The values of these statics. -/
def commonValues (m : Machine) (c : ClassId) : List Value := (commonNames m c).map (m.static c)

theorem commonNames_eq {holding : Holding} (hmem : holding ∈ Holding.all) {m : Machine}
    (h : installed.Evolves m) : commonNames m holding.classId = holding.names := by
  have hnames : ∀ holding ∈ Holding.all,
      commonNames installed holding.classId = holding.names := by
    simp only [Holding.all, List.forall_mem_cons]
    exact ⟨by decide, by decide, by decide, by decide, by simp⟩
  rw [commonNames, Class.names_eq_of_shape (h.shapes holding.classId)]
  exact hnames holding hmem

/-- A restored class has the state that was computed, in the process that dumped and in every other
one. -/
theorem Restored.sameGraph {holding : Holding} {l : Layout} {m m' : Machine} {s : Session}
    (h : Restored m holding l.root s) (hmem : holding ∈ Holding.all) (hsound : l.Sound)
    (hm : installed.Evolves m) (hm' : installed.Evolves m') (hs : installed.Evolves s.machine)
    (hcomputed : Computed holding l m) (hcomputed' : Computed holding l m') :
    ∃ f, Machine.SameGraph m' s.machine (commonValues m' holding.classId)
      (commonValues s.machine holding.classId) f := by
  obtain ⟨root, hderived, ⟨f, hmirrors⟩, -⟩ := h.graph
  have hclass : ∀ c, m.className c = m'.className c := fun c => by
    rw [hm.className, hm'.className]
  have hgraph :=
    ((hcomputed'.spans hsound).sameGraph (hcomputed.spans hsound) hclass).trans hmirrors
  rw [commonValues, commonValues, commonNames_eq hmem hm', commonNames_eq hmem hs]
  exact ⟨_, Holding.sameGraph hcomputed'.derived hderived hgraph⟩

/-- **Starting from an archive is equivalent to starting without one.** A process has dumped the
state of the library, and another one with the same modules and the same build uses the archive.
Then it starts, it restores every class, and the state of each class is the one that any process
computes that uses no archive: one renaming of objects relates all statics of the class that
processes have in common, whatever the salts are. -/
theorem start_restored_iso {specs : List ModuleSpec} (hspecs : Resolvable specs)
    {dumpFiles useFiles offFiles : FileTree} {dumpConfig useConfig offConfig : Config}
    {build offBuild : Build} {dumpEntropy useEntropy offEntropy : Int64}
    {dumpSinks useSinks offSinks : List Sink} {p : Process} {started dumped : Session}
    {seed : Int64} {report : DumpReport} {useBoot offBoot : MappedBoot}
    (hmode : dumpConfig.mode? = some .dumpStatic)
    (hstart : start dumpConfig build dumpSinks (Session.new dumpFiles specs dumpEntropy)
      = (.ok p, started))
    (hdump : Session.dump p.boot seed archivableFields started = (.ok report, dumped))
    (hread : useFiles.read useConfig.archivePath = dumped.files.read dumpConfig.archivePath)
    (hsize : ∀ data, useFiles.read useConfig.archivePath = .ok data → data.length < 2 ^ 64)
    (huse : MappedBoot.openWith useFiles useConfig build = .ok useBoot)
    (husing : useBoot.status.isUsing = true)
    (hoff : MappedBoot.openWith offFiles offConfig offBuild = .ok offBoot)
    (hnot : offBoot.status.isUsing = false) :
    ∃ used off,
      start useConfig build useSinks (Session.new useFiles specs useEntropy) = (.ok p, used) ∧
      start offConfig offBuild offSinks (Session.new offFiles specs offEntropy) = (.ok p, off) ∧
      ∀ c ∈ p.library.classes,
        used.outcomeOf p.graph (used.machine.className c) = .restored ∧
        commonNames used.machine c = commonNames off.machine c ∧
        ∃ f, Machine.SameGraph off.machine used.machine (commonValues off.machine c)
          (commonValues used.machine c) f := by
  obtain ⟨b, hopen, hdumping, hstatic, hnone⟩ :=
    MappedBoot.exists_openWith_dumpStatic dumpFiles build hmode
  obtain ⟨_, hstart', -, hboot, hdumper⟩ :=
    exists_start_computed hspecs hopen hnone dumpEntropy dumpSinks
  obtain ⟨hp, rfl⟩ := Prod.mk.inj (hstart'.symm.trans hstart)
  obtain rfl := Except.ok.inj hp
  have hconfig : b.config = dumpConfig := (MappedBoot.opened_of_openWith hopen).config_eq
  rw [← hconfig] at hread
  obtain ⟨a, haddress, hdecode, hbase⟩ :=
    exists_decoded_of_dump (hdumper.evolves.wellNamed wellNamed_installed) hboot hdumping hstatic
      hdump (MappedBoot.opened_of_openWith huse) husing hread hsize
  have harchives := hdumper.archives_of_decode hspecs haddress hdecode hbase
  obtain ⟨used, hused, hevolves, hrestored⟩ :=
    exists_start_restored hspecs huse husing harchives hdumper useEntropy useSinks
  obtain ⟨off, hstarted, -, -, hcomputed⟩ :=
    exists_start_computed hspecs hoff hnot offEntropy offSinks
  refine ⟨used, off, hused, hstarted, fun c hc => ?_⟩
  have hclasses : standard.classes = Holding.all.map Holding.classId := rfl
  obtain ⟨holding, hmem, rfl⟩ := List.mem_map.1 (hclasses ▸ hc)
  obtain ⟨l, hl⟩ := exists_layout hmem specs
  have hclass := hrestored _ hl
  refine ⟨?_, ?_, ?_⟩
  · rw [hevolves.className, outcomeOf]
    exact congrArg (Option.getD · .notAttempted) hclass.outcome
  · rw [commonNames_eq hmem hevolves, commonNames_eq hmem hcomputed.evolves]
  · exact hclass.sameGraph hmem (sound_layouts hspecs _ hl) hdumper.evolves hcomputed.evolves
      hevolves (hdumper.computed _ hl) (hcomputed.computed _ hl)

/-! ### A library with two modules -/

/-- Two modules of which one has no packages, so that the module graph shares the empty set. -/
def sampleSpecs : List ModuleSpec :=
  [⟨"core.base", .boot, ["core.lang", "core.util"]⟩, ⟨"app.main", .system, []⟩]

/-- The build of all processes. -/
def sampleBuild : Build := ⟨"1", "release", "vm", 21⟩

/-- The settings of the processes, which differ in the mode. -/
def sampleConfig (mode : Mode) : Config := { mode := mode.name, path := "/lib.cds" }

/-- The files before the dump. -/
def sampleFiles : FileTree := FileTree.new "/"

theorem resolvable_sampleSpecs : Resolvable sampleSpecs where
  describable := by
    simp only [sampleSpecs, List.forall_mem_cons]
    exact ⟨⟨by decide, by decide, by decide, by decide⟩,
      ⟨by decide, by decide, by decide, by decide⟩, by simp⟩
  limited := by decide

theorem short_sampleSpecs :
    ∀ p ∈ layouts sampleSpecs, ∀ node ∈ p.2.nodes, ∀ v ∈ node.1.contents, v.Short := by
  decide +kernel

theorem exists_install_sampleFiles (contents : Bytes) :
    ∃ t, sampleFiles.install {} (sampleConfig .dumpStatic).archivePath contents = (.ok (), t) ∧
      t.find (sampleConfig .use).archivePath = .ok (.file 0 contents) :=
  ⟨(sampleFiles.install {} "/lib.cds" contents).2, Prod.ext rfl rfl, rfl⟩

/-- What a process with these files has dumped within the limits can be used. -/
theorem exists_use_sampleFiles {b : MappedBoot} {s s' : Session} {report : DumpReport}
    (hopen : MappedBoot.openWith sampleFiles (sampleConfig .dumpStatic) sampleBuild = .ok b)
    (hnamed : s.machine.WellNamed) (hboot : s.bootAt 0 = .mapped b)
    (hdumping : b.status.isDumping = true) (hstatic : b.status.isDumpingStatic = true)
    (hfiles : s.files = sampleFiles) (hstorable : (dumpWriter sampleBuild 7 hnamed).Storable)
    (hdump : Session.dump 0 7 archivableFields s = (.ok report, s')) :
    ∃ useBoot, MappedBoot.openWith s'.files (sampleConfig .use) sampleBuild = .ok useBoot ∧
      useBoot.status.isUsing = true ∧
      ∀ data, s'.files.read (sampleConfig .use).archivePath = .ok data → data.length < 2 ^ 64 := by
  have hopened := MappedBoot.opened_of_openWith hopen
  have hstored := install_of_dump hnamed hboot hdumping hstatic hdump
  obtain ⟨t, hinstall, hfind⟩ := exists_install_sampleFiles (dumpWriter sampleBuild 7 hnamed).encode
  rw [hfiles, hopened.config_eq, hopened.build_eq, hinstall] at hstored
  obtain rfl : t = s'.files := (Prod.mk.inj hstored).2
  obtain ⟨useBoot, huse, husing⟩ := exists_openWith_use (c := sampleConfig .use) (by decide)
    (by decide) hfind (kind_dumpWriter _ _ _) (sound_dumpWriter _ _ _) hstorable
  rw [build_dumpWriter] at huse
  refine ⟨useBoot, huse, husing, fun data hdata => ?_⟩
  rw [FileTree.read, hfind] at hdata
  rw [← Except.ok.inj hdata]
  exact hstorable.addressable

/-- A process dumps the library, and what it has dumped can be used. -/
theorem exists_dump_sampleSpecs :
    ∃ started report dumped useBoot,
      start (sampleConfig .dumpStatic) sampleBuild [] (Session.new sampleFiles sampleSpecs 1)
        = (.ok firstProcess, started) ∧
      Session.dump firstProcess.boot 7 archivableFields started = (.ok report, dumped) ∧
      MappedBoot.openWith dumped.files (sampleConfig .use) sampleBuild = .ok useBoot ∧
      useBoot.status.isUsing = true ∧
      ∀ data, dumped.files.read (sampleConfig .use).archivePath = .ok data →
        data.length < 2 ^ 64 := by
  obtain ⟨b, hopen, hdumping, hstatic, hnone⟩ :=
    MappedBoot.exists_openWith_dumpStatic sampleFiles sampleBuild
      (by decide : (sampleConfig .dumpStatic).mode? = some .dumpStatic)
  have hopened := MappedBoot.opened_of_openWith hopen
  obtain ⟨started, hstart, hfiles, hboot, hcomplete⟩ :=
    exists_start_computed resolvable_sampleSpecs hopen hnone 1 []
  have hnamed : started.machine.WellNamed := hcomplete.evolves.wellNamed wellNamed_installed
  obtain ⟨t, hinstall, -⟩ := exists_install_sampleFiles (dumpWriter b.build 7 hnamed).encode
  have hstored : started.files.install {} b.config.archivePath
      (dumpWriter b.build 7 hnamed).encode = (.ok (), t) := by
    rw [hfiles, hopened.config_eq]
    exact hinstall
  obtain ⟨report, hdump⟩ := hcomplete.exists_dump resolvable_sampleSpecs hnamed hboot hdumping
    hstatic hstored
  have hstorable : (dumpWriter sampleBuild 7 hnamed).Storable :=
    (hcomplete.dumpable resolvable_sampleSpecs short_sampleSpecs).storable_dumpWriter (by decide)
      (by decide) 7 hnamed
  obtain ⟨useBoot, huse, husing, hsize⟩ := exists_use_sampleFiles hopen hnamed hboot hdumping
    hstatic hfiles hstorable hdump
  exact ⟨started, report, _, useBoot, hstart, hdump, huse, husing, hsize⟩

/-- A process dumps the library, another one uses the dump, and a third one uses no archive; the
salts of the three differ. -/
theorem start_restored_sampleSpecs :
    ∃ p started report dumped useBoot used off,
      start (sampleConfig .dumpStatic) sampleBuild [] (Session.new sampleFiles sampleSpecs 1)
        = (.ok p, started) ∧
      Session.dump p.boot 7 archivableFields started = (.ok report, dumped) ∧
      MappedBoot.openWith dumped.files (sampleConfig .use) sampleBuild = .ok useBoot ∧
      useBoot.status.isUsing = true ∧
      start (sampleConfig .use) sampleBuild [] (Session.new dumped.files sampleSpecs 2)
        = (.ok p, used) ∧
      start (sampleConfig .off) sampleBuild [] (Session.new sampleFiles sampleSpecs 3)
        = (.ok p, off) ∧
      ∀ c ∈ p.library.classes,
        used.outcomeOf p.graph (used.machine.className c) = .restored ∧
        commonNames used.machine c = commonNames off.machine c ∧
        ∃ f, Machine.SameGraph off.machine used.machine (commonValues off.machine c)
          (commonValues used.machine c) f := by
  have hmode : (sampleConfig .dumpStatic).mode? = some .dumpStatic := by decide
  obtain ⟨started, report, dumped, useBoot, hstart, hdump, huse, husing, hsize⟩ :=
    exists_dump_sampleSpecs
  have hpath : (sampleConfig .use).archivePath = (sampleConfig .dumpStatic).archivePath := rfl
  have hoff : MappedBoot.openWith sampleFiles (sampleConfig .off) sampleBuild
      = .ok ⟨sampleConfig .off, sampleBuild, Status.none, none, none⟩ := rfl
  obtain ⟨used, off, hused, hcomputed, hsame⟩ :=
    start_restored_iso resolvable_sampleSpecs hmode hstart hdump (congrArg dumped.files.read hpath)
      hsize huse husing hoff rfl
  exact ⟨_, _, _, _, _, used, off, hstart, hdump, huse, husing, hused, hcomputed, hsame⟩

end Library

end ClassSharing
