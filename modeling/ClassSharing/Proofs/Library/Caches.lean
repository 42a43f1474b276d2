import ClassSharing.Proofs.Library.Declared
import ClassSharing.Proofs.Library.LinkedModules

/-!
# Caches, computed and restored

What the library shares does not depend on where it comes from. An initializer that computes a cache
and a process that restores one end up with an archived array that holds the same, and it is the
array alone that lookups use. The restored array may come from a process that did anything with the
library before it dumped: in every state that it reaches, a class that is ready has its outcome, and
only classes that are ready are dumped.

So a process that uses an archive of the library is a setting for the library as well, and what was
said of lookups holds in every state that it reaches.

## Main definitions

* `Library.Supplied`: what the bootstrap of a process has for the classes with archived state
* `Library.Started`: a session with the library installed, without an archive or with one

## Main results

* `Library.setting_process`: a process is a setting for the library
* `Library.supplied_of_found`: what a process has after another one has dumped
* `Library.lookups_answered_and_shared`: lookups are answered correctly and share the cached answers
-/

namespace ClassSharing

namespace Library

open Session

/-- What the bootstrap of a process has for the classes with archived state. It has a module graph
only if no module lists a package twice. -/
structure Supplied (b : MappedBoot) (specs : List ModuleSpec) : Prop where
  integers : Offers b .integers (HoldsRow 2 boxedRows)
  collections : Offers b .collections HoldsEmpties
  modules : (∃ fault, b.subgraph (installed.className 7) = .error fault) ∨
    (∀ spec ∈ specs, spec.packages.Nodup) ∧ Offers b .modules (HoldsGraph specs)
  locales : Offers b .locales (HoldsRow 8 localeRows)

section Processes

variable {b : MappedBoot} {specs : List ModuleSpec} {s s' : Session} {cs : List ClassId}

/-! ### Processes -/

theorem Underway.goes (h : Underway b specs s) (hadvances : Advances b specs cs s s')
    (hcs : ∀ c ∈ cs, c ∈ standard.classes) : Goes (Underway b specs) (Untouched b) cs s s' := by
  have hholding : ∀ c ∈ cs, ∃ holding ∈ Holding.all, holding.classId = c := fun c hc =>
    List.mem_map.1 (hcs c hc)
  refine ⟨h.of_advances hadvances fun k hk hmem => ?_, hadvances.toAdvances,
    fun holding hmem hnot huntouched => ?_⟩
  · obtain ⟨holding, hholdings, rfl⟩ := hholding k hmem
    exact not_mem_plainClasses hholdings hk
  · refine huntouched.of_advances hmem h.evolves hadvances hnot fun c hc => ?_
    obtain ⟨other, hother, rfl⟩ := hholding c hc
    exact className_ne hother hmem fun heq => hnot (heq ▸ hc)

theorem Untouched.withMachine {holding : Holding} (h : Untouched b holding s) {m : Machine}
    (hstate : m.stateOf holding.classId = s.machine.stateOf holding.classId)
    (hstatic : m.static holding.classId holding.field
      = s.machine.static holding.classId holding.field) :
    Untouched b holding (s.withMachine m) :=
  ⟨hstate.trans h.uninitialized, hstatic.trans h.empty, h.fresh⟩

theorem Underway.goes_withMachine (h : Underway b specs s) {m : Machine} {c : ClassId}
    {objects : List Object} (hfills : Machine.Fills c objects s.machine m) :
    Goes (Underway b specs) (Untouched b) [c] s (s.withMachine m) where
  base := ⟨h.hooked.withMachine m, h.evolves.trans hfills.evolves, h.unrecorded, fun k hk => by
    show m.stateOf k = .uninitialized ∨ m.stateOf k = .ready
    rw [hfills.states]
    exact h.idle k hk⟩
  advances := hfills.advances List.mem_cons_self
  unrequested holding _ hnot huntouched := by
    have hadvances : Machine.Advances [c] s.machine m := hfills.advances List.mem_cons_self
    exact huntouched.withMachine (hfills.states _) (hadvances.static hnot _)

/-- **A process is a setting for the library.** -/
theorem setting_process (h : Supplied b specs) :
    Setting specs (Underway b specs) (Untouched b) where
  fits h := fits_of_evolves h.evolves
  uninitialized h := h.uninitialized
  note e h :=
    h.goes ⟨(Machine.Readied.refl _).advances, h.hooked.note e, fun _ _ _ _ => rfl⟩ (by simp)
  filled h hfills := h.goes_withMachine hfills
  salted salt backwards hs huntouched :=
    huntouched.withMachine ((Machine.fills_assigned _ 5 _).states 5)
      (static_resalted (fits_of_evolves hs.evolves) salt backwards "archivedObjects")
  integers hs huntouched := by
    obtain ⟨s', hgranted, hadvances, hsettled⟩ :=
      exists_request_integers hs huntouched h.integers (Nat.le_refl _)
    exact ⟨s', hgranted, hs.goes hadvances (by decide), hsettled⟩
  collections hs huntouched := by
    obtain ⟨s', hgranted, hadvances, hserves⟩ :=
      exists_request_collections hs huntouched h.collections (Nat.le_refl _)
    exact ⟨s', hgranted, hs.goes hadvances (by decide), hserves⟩
  modules hs huntouched hcollections hspecs := by
    obtain ⟨s', hgranted, hadvances, hsettled, hunspoiled⟩ := exists_request_modules hs huntouched
      hcollections h.collections (h.modules.elim .inl And.right) hspecs (Nat.le_refl _)
    exact ⟨s', hgranted, hs.goes hadvances (by decide), hunspoiled, hsettled⟩
  refused hs huntouched hcollections hspecs := by
    obtain ⟨_, hrecord⟩ := h.modules.resolve_right fun hboth => by
      obtain ⟨spec, hspec, hrepeats⟩ := hspecs
      exact hrepeats (hboth.1 spec hspec)
    obtain ⟨fault, s', hrefused, hadvances, hunspoiled, herroneous, hrepeats⟩ :=
      exists_request_refused hs huntouched hcollections h.collections hrecord hspecs (Nat.le_refl _)
    exact ⟨fault, s', hrefused, hs.goes hadvances (by decide), hunspoiled, herroneous, hrepeats⟩
  locales hs huntouched := by
    obtain ⟨s', hgranted, hadvances, hsettled⟩ :=
      exists_request_locales hs huntouched h.locales (Nat.le_refl _)
    exact ⟨s', hgranted, hs.goes hadvances (by decide), hsettled⟩

/-- A bootstrap without an archive has nothing. -/
theorem supplied_of_unmapped (specs : List ModuleSpec)
    (hunmapped : ∀ name, ∃ fault, b.subgraph name = .error fault) :
    Supplied b specs :=
  ⟨.inl (hunmapped _), .inl (hunmapped _), .inl (hunmapped _), .inl (hunmapped _)⟩

/-- **What a process has after another one has dumped** that did anything with the library. -/
theorem supplied_of_found {b₀ : MappedBoot}
    (hw : Setting specs (Underway b₀ specs) (Untouched b₀))
    (h : Standing specs (Underway b₀ specs) (Untouched b₀) s) (hfound : Found b s.machine)
    (husing : b.status.isUsing = true) : Supplied b specs where
  integers := hfound.offers husing h.base.evolves Holding.integers_mem
    (hw.outcome h integers_mem_outcomes)
  collections := hfound.offers husing h.base.evolves Holding.collections_mem fun hready =>
    (hw.outcome h collections_mem_outcomes hready).settled
  modules := by
    rcases hfound.recorded .modules Holding.modules_mem with hmissing | ⟨-, hready⟩
    · exact .inl hmissing
    right
    cases hw.outcome h modules_mem_outcomes hready with
    | resolved hspecs hsettled =>
      exact ⟨hspecs, hfound.offers husing h.base.evolves Holding.modules_mem fun _ => hsettled⟩
    | refused _ _ herroneous => cases herroneous.symm.trans hready
  locales := hfound.offers husing h.base.evolves Holding.locales_mem
    (hw.outcome h locales_mem_outcomes)

end Processes

/-! ### Sessions with the library -/

/-- A session with the library installed in which nothing has been requested. It uses no archive, or
it is a process that uses an archive of the library: another process with the same modules has done
anything with the library and then dumped it. -/
inductive Started (lib : Library) (s : Session) : Prop where
  | unarchived {seeds : SeedSource} {s₀ s₁ : Session} (hempty : s₀.machine = Machine.new)
    (hinstall : install seeds s₀ = (.ok lib, s₁)) (hmachine : s.machine = s₁.machine)
    (hunused : s.inUse = false) : Started lib s
  | archived {specs : List ModuleSpec} {dumpFiles useFiles : FileTree}
    {dumpConfig useConfig : Config} {dumpBuild useBuild : Build}
    {dumpEntropy useEntropy : Int64} {dumpSinks useSinks : List Sink} {p q : Process}
    {prepared ready dumped : Session} {seed : Int64} {report : DumpReport} {b : MappedBoot}
    (hmode : dumpConfig.mode? = some .dumpStatic)
    (hprepare : prepare dumpConfig dumpBuild dumpSinks (Session.new dumpFiles specs dumpEntropy)
      = (.ok p, prepared))
    (hready : Reached p.library prepared ready)
    (hdump : Session.dump p.boot seed archivableFields ready = (.ok report, dumped))
    (hread : useFiles.read useConfig.archivePath = dumped.files.read dumpConfig.archivePath)
    (hsize : ∀ data, useFiles.read useConfig.archivePath = .ok data → data.length < 2 ^ 64)
    (hopen : MappedBoot.openWith useFiles useConfig useBuild = .ok b)
    (husing : b.status.isUsing = true)
    (huse : prepare useConfig useBuild useSinks (Session.new useFiles specs useEntropy)
      = (.ok q, s)) (hlib : lib = q.library) : Started lib s

/-- **What a process has that uses the dump of another one.** -/
theorem supplied_of_dump {specs : List ModuleSpec} {dumpFiles useFiles : FileTree}
    {dumpConfig useConfig : Config} {dumpBuild useBuild : Build} {dumpEntropy : Int64}
    {dumpSinks : List Sink} {p : Process} {prepared ready dumped : Session} {seed : Int64}
    {report : DumpReport} {b : MappedBoot} (hmode : dumpConfig.mode? = some .dumpStatic)
    (hprepare : prepare dumpConfig dumpBuild dumpSinks (Session.new dumpFiles specs dumpEntropy)
      = (.ok p, prepared))
    (hready : Reached p.library prepared ready)
    (hdump : Session.dump p.boot seed archivableFields ready = (.ok report, dumped))
    (hread : useFiles.read useConfig.archivePath = dumped.files.read dumpConfig.archivePath)
    (hsize : ∀ data, useFiles.read useConfig.archivePath = .ok data → data.length < 2 ^ 64)
    (hopened : MappedBoot.Opened useFiles useConfig useBuild b)
    (husing : b.status.isUsing = true) :
    Supplied b specs ∧
      ∀ k ∈ plainClasses, ∃ fault, b.subgraph (installed.className k) = .error fault := by
  obtain ⟨b₀, hopen₀, hdumping, hstatic, hnone⟩ :=
    MappedBoot.exists_openWith_dumpStatic dumpFiles dumpBuild hmode
  have hopened₀ := MappedBoot.opened_of_openWith hopen₀
  have hunmapped := hopened₀.unmapped hnone
  obtain ⟨rfl, hpending⟩ := pending_of_prepare hopen₀ hprepare fun k _ => hunmapped _
  have hw := setting_process (supplied_of_unmapped specs hunmapped)
  have hstanding := hw.of_reached
    (standing_of_unrequested hpending.toUnderway hpending.untouched) hready
  rw [← hopened₀.config_eq] at hread
  obtain ⟨a, haddress, hdecode, hgives⟩ := exists_decoded_of_dump
    (hstanding.base.evolves.wellNamed wellNamed_installed) hstanding.base.hooked.bootAt hdumping
    hstatic hdump hopened husing hread hsize
  have hfound := found_of_decode hstanding.base.evolves haddress hdecode hgives
  exact ⟨supplied_of_found hw hstanding hfound husing, hfound.unrecorded⟩

/-- **Such a session has a setting**, and nothing has been requested. -/
theorem Started.exists_setting {lib : Library} {s : Session} (h : Started lib s) :
    lib = standard ∧ ∃ specs B U, Setting specs B U ∧ B s ∧
      ∀ holding ∈ Holding.all, U holding s := by
  cases h with
  | @unarchived seeds s₀ s₁ hempty hinstall hmachine hunused =>
    rw [install_eq_installedWith seeds hempty] at hinstall
    obtain ⟨hlib, rfl⟩ := Prod.mk.inj hinstall
    exact ⟨(Except.ok.inj hlib).symm, _, _, _, setting_unarchived seeds s,
      bare_of_installed hmachine hunused⟩
  | archived hmode hprepare hready hdump hread hsize hopen husing huse hlib =>
    obtain ⟨hsupplied, hunrecorded⟩ := supplied_of_dump hmode hprepare hready hdump hread hsize
      (MappedBoot.opened_of_openWith hopen) husing
    obtain ⟨rfl, hpending⟩ := pending_of_prepare hopen huse hunrecorded
    exact ⟨hlib, _, _, _, setting_process hsupplied, hpending.toUnderway, hpending.untouched⟩

/-- The caches of such a session can be initialized. -/
theorem Started.exists_ready {lib : Library} {s : Session} (h : Started lib s) :
    ∃ t, requestEach [lib.integerCache, lib.localeCache] s = (.ok (), t) ∧
      t.machine.stateOf lib.integerCache = .ready ∧
      t.machine.stateOf lib.localeCache = .ready := by
  obtain ⟨rfl, specs, B, U, hw, hbase, hunrequested⟩ := h.exists_setting
  obtain ⟨s₁, hfirst, hgoes₁, hintegers⟩ :=
    hw.integers hbase (hunrequested _ Holding.integers_mem)
  obtain ⟨s₂, hsecond, hgoes₂, hlocales⟩ := hw.locales hgoes₁.base
    (hgoes₁.unrequested _ Holding.locales_mem (by decide) (hunrequested _ Holding.locales_mem))
  exact ⟨s₂, (requestEach_cons hfirst).trans (requestEach_cons hsecond),
    hgoes₂.advances.ready (by decide) hintegers.1, hlocales.1⟩

/-- **Lookups are answered correctly and share exactly the cached answers**, in every state in which
the caches are ready, computed or restored. Each lookup gives out an object that is a boxed integer
with the number, or a locale with the language and the region. Of two lookups, both give out the
same object if and only if they are lookups of the same thing and its answer is cached: an integer
from -128 to 127, or one of the three preallocated locales. -/
theorem lookups_answered_and_shared {lib : Library} {s t : Session} (h : Started lib s)
    (hreached : Reached lib s t) (hintegers : t.machine.stateOf lib.integerCache = .ready)
    (hlocales : t.machine.stateOf lib.localeCache = .ready) (lookups : List Lookup) :
    ∃ os t', lookups.mapM (Lookup.ask lib) t = (.ok (os.map some), t') ∧
      List.Forall₂ (Lookup.IsAnswer lib t'.machine) lookups os ∧
      (lookups.zip os).Pairwise fun a b => a.2 = b.2 ↔ a.1 = b.1 ∧ a.1.Shared := by
  obtain ⟨rfl, specs, B, U, hw, hbase, hunrequested⟩ := h.exists_setting
  have hstanding := hw.of_reached (standing_of_unrequested hbase hunrequested) hreached
  have hfits := hw.fits hstanding.base
  have hserved : ∀ l : Lookup, l.Served t.machine := by
    intro l
    cases l with
    | integer n => exact hw.outcome hstanding integers_mem_outcomes hintegers
    | locale language region => exact hw.outcome hstanding locales_mem_outcomes hlocales
  obtain ⟨os, objects, t', hasked, hmachine, hanswered, hpairs⟩ :=
    Lookup.exists_answers lookups hfits hserved
  have hfits' : Fits t'.machine := by
    rw [hmachine]
    exact hfits.of_evolves (Machine.evolves_withObjects _ _)
  exact ⟨os, t', hasked, hanswered.imp fun _ _ hanswer =>
    Lookup.isAnswer_of_object hfits' hanswer.object, hpairs⟩

/-- A process that uses the dump of another one. -/
theorem exists_started_sampleSpecs : ∃ s, s.inUse = true ∧ Started standard s := by
  have hmode : (sampleConfig .dumpStatic).mode? = some .dumpStatic := by decide
  obtain ⟨started, report, dumped, useBoot, hstart, hdump, hopen, husing, hsize⟩ :=
    exists_dump_sampleSpecs
  -- The process that dumps has requested all classes.
  rw [start] at hstart
  obtain ⟨p, prepared, hprepare, hstart⟩ := exists_of_exceptBind_eq_ok hstart
  obtain ⟨⟨⟩, ready, hall, hpure⟩ := exists_of_exceptBind_eq_ok hstart
  obtain ⟨hp, rfl⟩ := Prod.mk.inj hpure
  obtain rfl := Except.ok.inj hp
  have hready : Reached standard prepared (requestEach standard.classes prepared).2 :=
    Reached.start.requestEach fun _ hc => hc
  have hrequested : requestEach standard.classes prepared = (.ok (), ready) := hall
  rw [hrequested] at hready
  -- The other process has its archive.
  have hread : dumped.files.read (sampleConfig .use).archivePath
      = dumped.files.read (sampleConfig .dumpStatic).archivePath := rfl
  have huse : prepare (sampleConfig .use) sampleBuild [] (Session.new dumped.files sampleSpecs 2)
      = _ := prepare_eq hopen 2 []
  have hstarted := Started.archived hmode hprepare hready hdump hread hsize hopen husing huse rfl
  refine ⟨_, ?_, hstarted⟩
  have hhooked : Hooked useBoot sampleSpecs
      (installedSession dumped.files sampleSpecs 2 [] useBoot) :=
    hooked_installedSession (MappedBoot.opened_of_openWith hopen)
  obtain ⟨s', hused, -⟩ := hhooked.isUsing
  rw [inUse]
  show (Session.isUsing 0 _).1 = true
  rw [hused, husing]

/-- A process that uses the dump of another one shares the boxed form of 127 and not that of 128. -/
theorem lookups_answered_and_shared_sampleSpecs :
    ∃ s t t' a b c d, s.inUse = true ∧ Started standard s ∧
      requestEach [standard.integerCache, standard.localeCache] s = (.ok (), t) ∧
      [Lookup.integer 127, .integer 128, .integer 127, .integer 128].mapM (Lookup.ask standard) t
        = (.ok [some a, some b, some c, some d], t') ∧ a = c ∧ b ≠ d := by
  obtain ⟨s, husing, h⟩ := exists_started_sampleSpecs
  obtain ⟨t, hrequested, hintegers, hlocales⟩ := h.exists_ready
  have hreached : Reached standard s
      (requestEach [standard.integerCache, standard.localeCache] s).2 :=
    Reached.start.requestEach (by decide)
  rw [hrequested] at hreached
  obtain ⟨os, t', hasked, hanswers, hpairs⟩ := lookups_answered_and_shared h hreached hintegers
    hlocales [.integer 127, .integer 128, .integer 127, .integer 128]
  have hshared : (Lookup.integer 127).Shared := ⟨by decide, by decide⟩
  have hunshared : ¬ (Lookup.integer 128).Shared := fun h => absurd h.2 (by decide)
  match os, hanswers with
  | [a, b, c, d], _ =>
    simp only [List.zip_cons_cons, List.zip_nil_right, List.pairwise_cons,
      List.forall_mem_cons] at hpairs
    exact ⟨s, t, t', a, b, c, d, husing, h, hrequested, hasked,
      hpairs.1.2.1.2 ⟨trivial, hshared⟩, fun heq => hunshared (hpairs.2.1.2.1.1 heq).2⟩

end Library

end ClassSharing
