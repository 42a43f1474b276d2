import ClassSharing.Proofs.Library.Processes
import ClassSharing.Proofs.Library.Relinking

/-!
# Linking modules with and without an archive

A process links its modules in two steps: first the archived ones, if it uses an archive, and then
those of its module graph that are missing. Without an archive the module graph is the only source,
and of several modules of one name on one loader the first one counts. With an archive the modules
come sorted by name, whatever loader they are on, and the module graph adds nothing.

Both ways lead to the same loaders. A process that could link its modules has shown that those that
count do not get in each other's way, so the order does not matter; and every module of the graph
has one of its name among them, so that the second step skips it.

## Main definitions

* `Library.link`: a process up to the point where its modules are linked

## Main results

* `Library.exists_link_unused`, `Library.exists_link_used`: linking without and with an archive
* `Library.of_link_unused`: what a process that could link its modules has shown
* `Library.link_archived_eq_link_computed`: the loaders are the same
-/

namespace ClassSharing

open Image Session

namespace Library

/-! ### Linking -/

/-- Starts a process and links its modules: the archived ones, and then those of the module graph.
An error of either step is the answer. -/
def link (c : Config) (build : Build) (sinks : List Sink) : Run Process := do
  let p ← prepare c build sinks
  Run.onMachine fun m => ((), m.createLoaders)
  Run.ofFault (← Run.act
    (Session.defineArchivedModules p.graph (some .platform) (some .system)).run)
  p.library.defineModules (some .platform) (some .system)
  return p

/-- The modules that count: of several modules of one name on one loader the first. -/
def effective (specs : List ModuleSpec) : List ModuleSpec :=
  (specs.map ModuleSpec.sorted).foldl linkNew []

/-- The session of a process whose loaders have been created. -/
def loadedSession (files : FileTree) (specs : List ModuleSpec) (entropy : Int64)
    (sinks : List Sink) (b : MappedBoot) : Session :=
  (installedSession files specs entropy sinks b).withMachine installed.createLoaders

section Linking

variable {files : FileTree} {specs : List ModuleSpec} {entropy : Int64} {sinks : List Sink}
  {c : Config} {build : Build} {b : MappedBoot} {s s' : Session}

theorem relinked_createLoaders : installed.Relinked installed.createLoaders := ⟨rfl, rfl, rfl⟩

/-- **Before anything is linked**, every class is pending and every loader is empty. -/
theorem pending_loadedSession (h : MappedBoot.Opened files c build b)
    (hplain : ∀ k ∈ plainClasses, ∃ fault, b.subgraph (installed.className k) = .error fault) :
    Pending b specs Holding.all (loadedSession files specs entropy sinks b) := by
  have hpending : Pending b specs Holding.all (installedSession files specs entropy sinks b) :=
    pending_installedSession h hplain
  exact hpending.of_relinked (hpending.hooked.withMachine _) relinked_createLoaders fun _ => rfl

theorem linked_loadedSession :
    (loadedSession files specs entropy sinks b).machine.Linked [] :=
  Machine.linked_nil fun kind => by cases kind <;> rfl

/-- The two steps of linking. -/
theorem link_eq (h : MappedBoot.openWith files c build = .ok b)
    (harchived : defineArchivedModules 0 (some .platform) (some .system)
      (loadedSession files specs entropy sinks b) = (.ok (), s)) :
    link c build sinks (Session.new files specs entropy)
      = (do
          standard.defineModules (some .platform) (some .system)
          return firstProcess : Run Process) s := by
  rw [link, exceptBind_apply (prepare_eq h entropy sinks)]
  refine (exceptBind_apply (onMachine_apply _ _)).trans ?_
  refine (exceptBind_apply (lift_apply _ _)).trans ?_
  have hrun : (defineArchivedModules 0 (some .platform) (some .system)).run
      (loadedSession files specs entropy sinks b) = (.ok (), s) := harchived
  show (Run.ofFault ((defineArchivedModules 0 (some .platform) (some .system)).run
    (loadedSession files specs entropy sinks b)).1 >>= _) ((defineArchivedModules 0
    (some .platform) (some .system)).run (loadedSession files specs entropy sinks b)).2 = _
  rw [hrun]
  exact exceptBind_apply (ofFault_apply () s)

/-! ### Without an archive -/

/-- What a process without an archive starts linking its module graph from. -/
theorem exists_link_eq_unused (h : MappedBoot.openWith files c build = .ok b)
    (hnot : b.status.isUsing = false) (entropy : Int64) (sinks : List Sink) :
    ∃ s, link c build sinks (Session.new files specs entropy)
        = (do
            standard.defineModules (some .platform) (some .system)
            return firstProcess : Run Process) s ∧
      Pending b specs Holding.all s ∧ s.machine.Linked [] := by
  have hopened := MappedBoot.opened_of_openWith h
  have hpending : Pending b specs Holding.all (loadedSession files specs entropy sinks b) :=
    pending_loadedSession hopened fun k _ => hopened.unmapped hnot _
  obtain ⟨s, harchived, hhooked, hmachine, houtcomes⟩ :=
    hpending.hooked.exists_defineArchivedModules_unused rfl hnot
  have hrelinked : (loadedSession files specs entropy sinks b).machine.Relinked s.machine := by
    rw [hmachine]
    exact .refl _
  refine ⟨s, link_eq h harchived, hpending.of_relinked hhooked hrelinked houtcomes, ?_⟩
  rw [hmachine]
  exact linked_loadedSession

theorem isSorted_of_mem_map_sorted : ∀ spec ∈ specs.map ModuleSpec.sorted, spec.IsSorted := by
  intro spec hspec
  obtain ⟨spec, -, rfl⟩ := List.mem_map.1 hspec
  exact spec.isSorted_sorted

/-- **A process without an archive links its modules** if none lists a package twice and those that
count do not get in each other's way. -/
theorem exists_link_unused (h : MappedBoot.openWith files c build = .ok b)
    (hnot : b.status.isUsing = false) (hspecs : ∀ spec ∈ specs, spec.packages.Nodup)
    (hcompatible : (effective specs).Pairwise ModuleSpec.Compatible) (entropy : Int64)
    (sinks : List Sink) :
    ∃ s', link c build sinks (Session.new files specs entropy) = (.ok firstProcess, s') ∧
      Resolved b specs s' ∧ s'.machine.Linked (effective specs) := by
  have hunmapped := (MappedBoot.opened_of_openWith h).unmapped hnot
  obtain ⟨s, hlink, hpending, hlinked⟩ := exists_link_eq_unused h hnot entropy sinks
  obtain ⟨s₁, hread, hresolved, hlinkage⟩ := hpending.exists_descriptors (.inl (hunmapped _))
    (.inl (hunmapped _)) hspecs
  obtain ⟨m, hdefine, hlinked', hrelinked⟩ := exists_defineEach (hlinked.of_linkage_eq hlinkage)
    isSorted_of_mem_map_sorted hcompatible
  refine ⟨s₁.withMachine m, ?_, hresolved.of_relinked (hresolved.hooked.withMachine m) hrelinked
    fun _ => rfl, hlinked'⟩
  have hmodules : standard.defineModules (some .platform) (some .system) s
      = (.ok (), s₁.withMachine m) := by
    rw [defineModules, exceptBind_apply hread, hdefine]
  rw [hlink, exceptBind_apply hmodules]
  rfl

/-- **What a process without an archive has shown that could link its modules.** -/
theorem of_link_unused (h : MappedBoot.openWith files c build = .ok b)
    (hnot : b.status.isUsing = false) {p : Process}
    (hlink : link c build sinks (Session.new files specs entropy) = (.ok p, s')) :
    p = firstProcess ∧ (∀ spec ∈ specs, spec.packages.Nodup) ∧
      (effective specs).Pairwise ModuleSpec.Compatible ∧ s'.machine.Linked (effective specs) := by
  have hunmapped := (MappedBoot.opened_of_openWith h).unmapped hnot
  obtain ⟨s, hlink', hpending, hlinked⟩ := exists_link_eq_unused h hnot entropy sinks
  rw [hlink'] at hlink
  obtain ⟨⟨⟩, s₁, hmodules, hpure⟩ := exists_of_exceptBind_eq_ok hlink
  obtain ⟨hp, rfl⟩ := Prod.mk.inj hpure
  obtain ⟨modules, s₂, hread, hdefine⟩ := exists_of_exceptBind_eq_ok hmodules
  -- Reading the module graph has shown that no module lists a package twice.
  obtain ⟨⟨⟩, s₃, hrequire, -⟩ := exists_of_exceptBind_eq_ok hread
  obtain ⟨fault, hrecord⟩ := hunmapped (installed.className 7)
  have hgranted : request 7 s = (.ok (), s₃) := eq_ok_of_require_eq_ok hrequire
  have hspecs : ∀ spec ∈ specs, spec.packages.Nodup :=
    nodup_of_request_modules hpending.toUnderway
      (hpending.untouched .modules Holding.modules_mem)
      (.inl (hpending.untouched .collections Holding.collections_mem)) (.inl (hunmapped _)) hrecord
      (Nat.le_refl _) hgranted
  obtain ⟨s₂', hread', hresolved, hlinkage⟩ := hpending.exists_descriptors (.inl (hunmapped _))
    (.inl (hunmapped _)) hspecs
  obtain ⟨hmodules', rfl⟩ := Prod.mk.inj (hread'.symm.trans hread)
  obtain rfl := Except.ok.inj hmodules'
  obtain ⟨m, rfl, hlinked', hcompatible, -⟩ := exists_of_defineEach
    (hlinked.of_linkage_eq hlinkage) isSorted_of_mem_map_sorted List.Pairwise.nil hdefine
  exact ⟨(Except.ok.inj hp).symm, hspecs, hcompatible, hlinked'⟩

/-! ### With an archive -/

/-- **A process that uses an archive links its modules** if the archived ones are those that count,
in any order. -/
theorem exists_link_used (h : MappedBoot.openWith files c build = .ok b)
    (husing : b.status.isUsing = true)
    (hunrecorded : ∀ k ∈ plainClasses, ∃ fault, b.subgraph (installed.className k) = .error fault)
    (hofferEmpties : Offers b .collections HoldsEmpties)
    (hofferGraph : Offers b .modules (HoldsGraph specs))
    (hspecs : ∀ spec ∈ specs, spec.packages.Nodup)
    (hcompatible : (effective specs).Pairwise ModuleSpec.Compatible)
    (hmodules : b.modules.Perm ((effective specs).map ModuleSpec.record)) (entropy : Int64)
    (sinks : List Sink) :
    ∃ s' linked, link c build sinks (Session.new files specs entropy) = (.ok firstProcess, s') ∧
      linked.Perm (effective specs) ∧ s'.machine.Linked linked := by
  have hpending : Pending b specs Holding.all (loadedSession files specs entropy sinks b) :=
    pending_loadedSession (MappedBoot.opened_of_openWith h) hunrecorded
  -- The archived modules are the ones that count.
  obtain ⟨linked, hperm, hrecords⟩ := exists_perm_of_map_perm hmodules
  have hsorted : ∀ spec ∈ linked, spec.IsSorted := by
    intro spec hspec
    rcases mem_of_mem_foldl_linkNew _ _ spec (hperm.mem_iff.1 hspec) with hnone | hspec
    · cases hnone
    · exact isSorted_of_mem_map_sorted spec hspec
  have hempty : (loadedSession files specs entropy sinks b).machine.Linked [] :=
    linked_loadedSession
  obtain ⟨m, hlink, hlinked, hrelinked⟩ := hempty.exists_linkModules hsorted
    ((hperm.pairwise_iff ModuleSpec.Compatible.symm).2 hcompatible)
  rw [← hrecords] at hlink
  obtain ⟨s, harchived, hhooked, hmachine, houtcomes⟩ :=
    hpending.hooked.exists_defineArchivedModules_used rfl husing hlink
  rw [← hmachine] at hlinked hrelinked
  -- The module graph adds nothing to them.
  obtain ⟨s', hread, -, hlinkage⟩ :=
    (hpending.of_relinked hhooked hrelinked houtcomes).exists_descriptors hofferEmpties hofferGraph
      hspecs
  have hlinked' : s'.machine.Linked linked := hlinked.of_linkage_eq hlinkage
  have hdefine : defineEach (some .platform) (some .system) (specs.map ModuleSpec.sorted) s'
      = (.ok (), s') := by
    refine defineEach_of_mem hlinked' fun spec hspec => ?_
    obtain ⟨other, hother, hsame⟩ := exists_mem_foldl_linkNew [] _ spec hspec
    exact ⟨other, hperm.mem_iff.2 hother, hsame⟩
  have hgraph : standard.defineModules (some .platform) (some .system) s = (.ok (), s') := by
    rw [defineModules, exceptBind_apply hread, hdefine]
  refine ⟨s', linked, ?_, hperm, hlinked'⟩
  rw [link_eq h harchived, exceptBind_apply hgraph]
  rfl

/-! ### The same loaders -/

/-- What another process can get of a class from a dump, if something is known of the class as soon
as it is ready. -/
theorem Found.offers {m : Machine} {holding : Holding} {C : Machine → ObjectId → Prop}
    (h : Found b m) (husing : b.status.isUsing = true) (hm : installed.Evolves m)
    (hmem : holding ∈ Holding.all)
    (hsettled : m.stateOf holding.classId = .ready → Settled holding C m) : Offers b holding C := by
  refine (h.recorded holding hmem).imp id fun ⟨hrecorded, hready⟩ => ?_
  obtain ⟨-, root, hderived, hcontent⟩ := hsettled hready
  exact ⟨husing, m, root, hm, hrecorded, hderived, hcontent⟩

/-- What another process can get from the dump of a process that has its module graph. -/
theorem Resolved.offers (h : Resolved b specs s) {b' : MappedBoot} (hfound : Found b' s.machine)
    (husing : b'.status.isUsing = true) :
    Offers b' .collections HoldsEmpties ∧ Offers b' .modules (HoldsGraph specs) := by
  refine ⟨hfound.offers husing h.evolves Holding.collections_mem fun hready => ?_,
    hfound.offers husing h.evolves Holding.modules_mem fun _ => h.graph⟩
  refine (h.collections.resolve_left fun huntouched => ?_).settled
  rw [huntouched.uninitialized] at hready
  cases hready

end Linking

/-- **The archived and the computed module graph link the same modules.** A process without an
archive can link some modules. Then so can a process that dumps; and after it has initialized any of
the classes of the library and dumped, a process with the same modules and the same build that uses
the archive links its modules without an error in either step. Each of its loaders has the same
modules with the same packages, and the same owners of packages, as in the process without an
archive. -/
theorem link_archived_eq_link_computed {specs : List ModuleSpec}
    {dumpFiles useFiles offFiles : FileTree} {dumpConfig useConfig offConfig : Config}
    {build offBuild : Build} {dumpEntropy useEntropy offEntropy : Int64}
    {dumpSinks useSinks offSinks : List Sink} {offBoot useBoot : MappedBoot} {p : Process}
    {off linked ready dumped : Session} {answer : Except Failure Process} {classes : List ClassId}
    {granted : Except Failure Unit} {seed : Int64} {report : DumpReport}
    (hopenOff : MappedBoot.openWith offFiles offConfig offBuild = .ok offBoot)
    (hnot : offBoot.status.isUsing = false)
    (hoff : link offConfig offBuild offSinks (Session.new offFiles specs offEntropy) = (.ok p, off))
    (hmode : dumpConfig.mode? = some .dumpStatic)
    (hlink : link dumpConfig build dumpSinks (Session.new dumpFiles specs dumpEntropy)
      = (answer, linked))
    (hclasses : ∀ c ∈ classes, c ∈ p.library.classes)
    (hready : requestEach classes linked = (granted, ready))
    (hdump : Session.dump p.boot seed archivableFields ready = (.ok report, dumped))
    (hread : useFiles.read useConfig.archivePath = dumped.files.read dumpConfig.archivePath)
    (hsize : ∀ data, useFiles.read useConfig.archivePath = .ok data → data.length < 2 ^ 64)
    (hopenUse : MappedBoot.openWith useFiles useConfig build = .ok useBoot)
    (husing : useBoot.status.isUsing = true) :
    answer = .ok p ∧ granted = .ok () ∧
      ∃ used, link useConfig build useSinks (Session.new useFiles specs useEntropy)
          = (.ok p, used) ∧
        ∀ kind, ∃ modules owners,
          off.machine.modulesOf kind = some modules ∧ used.machine.modulesOf kind = some modules ∧
          off.machine.ownersOf kind = some owners ∧ used.machine.ownersOf kind = some owners := by
  obtain ⟨rfl, hspecs, hcompatible, hlinkedOff⟩ := of_link_unused hopenOff hnot hoff
  -- The dumping process links the same modules, and keeps them while it goes on.
  obtain ⟨b, hopen, hdumping, hstatic, hnone⟩ :=
    MappedBoot.exists_openWith_dumpStatic dumpFiles build hmode
  have hopened := MappedBoot.opened_of_openWith hopen
  obtain ⟨linked', hlink', hresolved, hlinkedDump⟩ :=
    exists_link_unused hopen hnone hspecs hcompatible dumpEntropy dumpSinks
  obtain ⟨rfl, rfl⟩ := Prod.mk.inj (hlink'.symm.trans hlink)
  obtain ⟨ready', hready', hresolved', hlinkage⟩ :=
    hresolved.exists_requestEach (hopened.unmapped hnone) hclasses
  obtain ⟨rfl, rfl⟩ := Prod.mk.inj (hready'.symm.trans hready)
  -- What it dumps is what the other process finds.
  rw [← hopened.config_eq] at hread
  obtain ⟨a, haddress, hdecode, hgives⟩ := exists_decoded_of_dump
    (hresolved'.evolves.wellNamed wellNamed_installed) hresolved'.hooked.bootAt hdumping hstatic
    hdump (MappedBoot.opened_of_openWith hopenUse) husing hread hsize
  have hfound := found_of_decode hresolved'.evolves haddress hdecode hgives
  obtain ⟨hofferEmpties, hofferGraph⟩ := hresolved'.offers hfound husing
  have hmodules : useBoot.modules.Perm ((effective specs).map ModuleSpec.record) :=
    hfound.modules.trans ((hlinkedDump.of_linkage_eq hlinkage).records_perm hcompatible)
  obtain ⟨used, order, hused, hperm, hlinkedUse⟩ := exists_link_used hopenUse husing
    hfound.unrecorded hofferEmpties hofferGraph hspecs hcompatible hmodules useEntropy useSinks
  refine ⟨rfl, rfl, used, hused, fun kind => ?_⟩
  obtain ⟨l, hl⟩ := hlinkedOff.created kind
  obtain ⟨hsameModules, hsameOwners⟩ :=
    hlinkedUse.tables_eq hlinkedOff (fun spec => hperm.mem_iff) kind
  rw [hsameModules, hsameOwners, Machine.modulesOf, Machine.ownersOf, hl]
  exact ⟨_, _, rfl, rfl, rfl, rfl⟩

/-! ### Modules of two loaders -/

/-- Modules of two loaders. One has no packages, and the name of another one is taken. -/
def mixedSpecs : List ModuleSpec :=
  [⟨"core.base", .boot, ["core.lang"]⟩, ⟨"app.main", .system, []⟩,
    ⟨"core.base", .boot, ["core.util"]⟩]

/-- A process that dumps, with these modules linked and the locales initialized. -/
def mixedSession : Session :=
  (requestEach [9] (link (sampleConfig .dumpStatic) sampleBuild []
    (Session.new sampleFiles mixedSpecs 1)).2).2

theorem dump_mixedSession :
    mixedSession.files = sampleFiles ∧
      (Session.dump 0 7 archivableFields mixedSession).1.isOk = true := by
  decide +kernel

theorem dumpable_mixedSession : Dumpable mixedSession.machine where
  modules := by decide +kernel
  names := by decide +kernel
  records := by decide +kernel

/-- A process dumps these modules, another one links the archived ones, and a third one uses no
archive; the salts of the three differ. -/
theorem link_archived_eq_mixedSpecs :
    ∃ p report off linked ready dumped useBoot used,
      link (sampleConfig .off) sampleBuild [] (Session.new sampleFiles mixedSpecs 3)
        = (.ok p, off) ∧
      link (sampleConfig .dumpStatic) sampleBuild [] (Session.new sampleFiles mixedSpecs 1)
        = (.ok p, linked) ∧
      requestEach [9] linked = (.ok (), ready) ∧
      Session.dump p.boot 7 archivableFields ready = (.ok report, dumped) ∧
      MappedBoot.openWith dumped.files (sampleConfig .use) sampleBuild = .ok useBoot ∧
      useBoot.status.isUsing = true ∧
      link (sampleConfig .use) sampleBuild [] (Session.new dumped.files mixedSpecs 2)
        = (.ok p, used) ∧
      ∀ kind, ∃ modules owners,
        off.machine.modulesOf kind = some modules ∧ used.machine.modulesOf kind = some modules ∧
        off.machine.ownersOf kind = some owners ∧ used.machine.ownersOf kind = some owners := by
  have hspecs : ∀ spec ∈ mixedSpecs, spec.packages.Nodup := by decide
  have hcompatible : (effective mixedSpecs).Pairwise ModuleSpec.Compatible := by decide +kernel
  have hopenOff : MappedBoot.openWith sampleFiles (sampleConfig .off) sampleBuild
      = .ok ⟨sampleConfig .off, sampleBuild, Status.none, none, none⟩ := rfl
  obtain ⟨off, hoff, -, -⟩ := exists_link_unused hopenOff rfl hspecs hcompatible 3 []
  -- The process that dumps.
  have hmode : (sampleConfig .dumpStatic).mode? = some .dumpStatic := by decide
  obtain ⟨b, hopen, hdumping, hstatic, hnone⟩ :=
    MappedBoot.exists_openWith_dumpStatic sampleFiles sampleBuild hmode
  have hopened := MappedBoot.opened_of_openWith hopen
  obtain ⟨linked, hlink, hresolved, -⟩ := exists_link_unused hopen hnone hspecs hcompatible 1 []
  have hclasses : ∀ c ∈ ([9] : List ClassId), c ∈ firstProcess.library.classes := by decide
  obtain ⟨ready, hready, hresolved', -⟩ :=
    hresolved.exists_requestEach (hopened.unmapped hnone) hclasses
  have hnamed : ready.machine.WellNamed := hresolved'.evolves.wellNamed wellNamed_installed
  have hsession : mixedSession = ready := by
    rw [mixedSession, hlink]
    show (requestEach [9] linked).2 = ready
    rw [hready]
  obtain ⟨hfiles, hsucceeds⟩ := dump_mixedSession
  have hdumpable := dumpable_mixedSession
  rw [hsession] at hfiles hsucceeds hdumpable
  obtain ⟨report, dumped, hdump⟩ : ∃ report dumped,
      Session.dump firstProcess.boot 7 archivableFields ready = (.ok report, dumped) := by
    cases hresult : Session.dump 0 7 archivableFields ready with
    | mk result dumped =>
      rw [hresult] at hsucceeds
      cases result with
      | ok report => exact ⟨report, dumped, hresult⟩
      | error failure => cases hsucceeds
  -- The process that uses what has been dumped.
  obtain ⟨useBoot, huse, husing, hsize⟩ := exists_use_sampleFiles hopen hnamed
    hresolved'.hooked.bootAt hdumping hstatic hfiles
    (hdumpable.storable_dumpWriter (by decide) (by decide) 7 hnamed) hdump
  have hpath : (sampleConfig .use).archivePath = (sampleConfig .dumpStatic).archivePath := rfl
  obtain ⟨-, -, used, hused, hsame⟩ := link_archived_eq_link_computed hopenOff rfl hoff hmode hlink
    hclasses hready hdump (congrArg dumped.files.read hpath) hsize huse husing
  exact ⟨_, _, off, linked, _, dumped, useBoot, used, hoff, hlink, hready, hdump, huse, husing,
    hused, hsame⟩

end Library

end ClassSharing
