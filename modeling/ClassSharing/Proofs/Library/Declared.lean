import ClassSharing.Proofs.Library.Unarchived
import ClassSharing.Proofs.Library.Uses

/-!
# Modules that read back as declared

Without an archive the module graph is what the library makes of the declared modules. The packages
of a module go through a hash table whose layout depends on their hashes and on the order in which
they are put there, and they come out in an order that the salt gives; a module without packages
gets the empty set that all of them share, and the class that has it may be initialized on the way.
A program that reads the modules sees nothing of this, whatever the source of seeds is and whatever
it did with the library before.

A module that lists a package twice cannot be described. Then the class of the module graph becomes
erroneous and stays so.

## Main results

* `Library.setting_unarchived`: a session without an archive is a setting for the library
* `Library.declared_modules_read_back`: the module graph reads back as declared
-/

namespace ClassSharing

namespace ModuleSpec

/-- A module that was read is a declared one, with its packages in ascending order. -/
structure ReadsAs (spec read : ModuleSpec) : Prop where
  name : read.name = spec.name
  loader : read.loader = spec.loader
  packages : read.packages.Perm spec.packages
  ascending : read.packages.Pairwise fun p q => p.atMost q = true

theorem readsAs_sorted (spec : ModuleSpec) : spec.ReadsAs spec.sorted :=
  ⟨rfl, rfl, Text.sorted_perm _, Text.pairwise_sorted _⟩

end ModuleSpec

namespace Library

open Session

section Declared

variable {seeds : SeedSource} {s₀ s s' : Session} {cs : List ClassId}

/-! ### The setting -/

/-- What is known of a session that started without an archive. -/
structure Bare (seeds : SeedSource) (s₀ s : Session) : Prop extends Unarchived seeds s where
  started : s₀.Evolves s

/-- A class that nobody has requested in such a session. -/
def Unrequested (holding : Holding) (s : Session) : Prop := Vacant holding s.machine

theorem Bare.goes (h : Bare seeds s₀ s) (hunarchived : Unarchived seeds s')
    (hevolves : s.Evolves s') (hadvances : Machine.Advances cs s.machine s'.machine) :
    Goes (Bare seeds s₀) Unrequested cs s s' where
  base := ⟨hunarchived, h.started.trans hevolves⟩
  advances := hadvances
  unrequested _ hmem hcs hvacant := Vacant.of_advances hvacant hmem h.evolves hadvances hcs

/-- A request goes on, and it has been settled that no archive is in use. -/
theorem Bare.goes_of_request (h : Bare seeds s₀ s) {c : ClassId} {answer : Except Fault Unit}
    (hanswer : Session.request c s = (answer, s')) (hoffline : s'.Offline)
    (hadvances : Machine.Advances cs s.machine s'.machine) (hcs : 0 ∉ cs) :
    Goes (Bare seeds s₀) Unrequested cs s s' := by
  have hevolves := within_request c s
  rw [hanswer] at hevolves
  exact h.goes (h.toUnarchived.of_advances hoffline hadvances hcs) hevolves hadvances

theorem Bare.goes_withMachine (h : Bare seeds s₀ s) {m : Machine} {c : ClassId}
    {objects : List Object} (hfills : Machine.Fills c objects s.machine m) :
    Goes (Bare seeds s₀) Unrequested [c] s (s.withMachine m) := by
  have hevolves : s.Evolves (s.withMachine m) := .of_fixtures_eq hfills.evolves rfl
  exact h.goes (h.toUnarchived.of_evolves hevolves rfl rfl rfl (hfills.states 0)) hevolves
    (hfills.advances List.mem_cons_self)

/-- A class whose initializer always succeeds. -/
theorem Bare.exists_request_made (h : Bare seeds s₀ s) {holding : Holding} {specs : List ModuleSpec}
    {C : Machine → ObjectId → Prop} (hmem : holding ∈ Holding.all) (hC : Content holding specs C)
    (hvacant : Unrequested holding s)
    (hmakes : ∀ depth t, Fits t.machine → t.machine.static holding.classId holding.field = .nil →
      ∃ t', Makes holding C
        (runBody (requestWithin depth) holding.classId (initializerOf seeds holding)) t t') :
    ∃ s', Session.request holding.classId s = (.ok (), s') ∧
      Goes (Bare seeds s₀) Unrequested [holding.classId] s s' ∧ Settled holding C s'.machine := by
  obtain ⟨_, _, _, -, hgranted, hoffline, hadvances, hsettled⟩ :=
    h.toUnarchived.exists_request_made hmem hC hvacant (Nat.le_refl _) hmakes
  refine ⟨_, hgranted, h.goes_of_request hgranted hoffline hadvances fun hzero => ?_, hsettled⟩
  exact not_mem_plainClasses hmem (List.mem_singleton.1 hzero ▸ by decide)

/-- **A session without an archive is a setting for the library.** -/
theorem setting_unarchived (seeds : SeedSource) (s₀ : Session) :
    Setting s₀.moduleSpecs (Bare seeds s₀) Unrequested where
  fits h := h.toUnarchived.fits
  uninitialized h := h.uninitialized
  note e h := h.goes (h.toUnarchived.note e) (evolves_note _ e) (Machine.Readied.refl _).advances
  filled h hfills := h.goes_withMachine hfills
  salted salt backwards h hvacant :=
    ⟨((Machine.fills_assigned _ 5 _).states 5).trans hvacant.uninitialized,
      (static_resalted h.toUnarchived.fits salt backwards "archivedObjects").trans hvacant.empty⟩
  integers h hvacant := h.exists_request_made Holding.integers_mem (content_integers []) hvacant
    fun _ _ hfits hnil => exists_makes_integers hfits hnil
  collections h hvacant := by
    obtain ⟨s', hgranted, hoffline, hadvances, hserves⟩ :=
      h.toUnarchived.exists_request_collections hvacant (Nat.le_refl _)
    exact ⟨s', hgranted, h.goes_of_request hgranted hoffline hadvances (by decide), hserves⟩
  modules h hvacant hcollections hspecs := by
    obtain ⟨s', hgranted, hresolves, hsettled⟩ := h.toUnarchived.exists_request_modules hvacant
      hcollections (by rw [h.started.moduleSpecs]; exact hspecs) (Nat.le_refl _)
    rw [h.started.moduleSpecs] at hsettled
    exact ⟨s', hgranted,
      h.goes_of_request hgranted hresolves.offline hresolves.advances (by decide),
      hresolves.collections, hsettled⟩
  refused h hvacant hcollections hspecs := by
    obtain ⟨fault, s', hrefused, hresolves, herroneous, hrepeats⟩ :=
      h.toUnarchived.exists_request_refused hvacant hcollections
        (by rw [h.started.moduleSpecs]; exact hspecs) (Nat.le_refl _)
    rw [h.started.moduleSpecs] at hrepeats
    exact ⟨fault, s', hrefused,
      h.goes_of_request hrefused hresolves.offline hresolves.advances (by decide),
      hresolves.collections, herroneous, hrepeats⟩
  locales h hvacant := h.exists_request_made Holding.locales_mem (content_locales []) hvacant
    fun _ _ hfits hnil => exists_makes_locales hfits hnil

/-- **At the start** nothing has been requested. -/
theorem bare_of_installed (hmachine : s.machine = installedWith seeds) (hunused : s.inUse = false) :
    Bare seeds s s ∧ ∀ holding ∈ Holding.all, Unrequested holding s := by
  refine ⟨⟨⟨?_, .inr ⟨hunused, ?_⟩, .inl ?_⟩, .refl s⟩, fun holding hmem => ?_⟩
  · rw [hmachine]
    exact .refl _
  · rw [hmachine]
    rfl
  · rw [hmachine]
    rfl
  · rw [Unrequested, hmachine]
    exact vacant_installedWith seeds hmem

end Declared

/-! ### Reading back -/

/-- **The module graph reads back as declared.** The library has been installed with any source of
seeds, no archive is in use, and a program may have done anything with the library. If no module
lists a package twice, the modules are read in the order of their declaration, with the same names
and loaders and with exactly the declared packages in ascending order. If a module lists a package
twice, a request for the module graph fails because an element is there twice, and its class is
erroneous for that reason. -/
theorem declared_modules_read_back {seeds : SeedSource} {s₀ s₁ s t : Session} {lib : Library}
    (hempty : s₀.machine = Machine.new) (hinstall : install seeds s₀ = (.ok lib, s₁))
    (hmachine : s.machine = s₁.machine) (hunused : s.inUse = false) (hreached : Reached lib s t) :
    ((∀ spec ∈ s.moduleSpecs, spec.packages.Nodup) →
      ∃ modules t', lib.descriptors t = (.ok modules, t') ∧
        List.Forall₂ ModuleSpec.ReadsAs s.moduleSpecs modules) ∧
    ((∃ spec ∈ s.moduleSpecs, ¬ spec.packages.Nodup) →
      ∃ fault cause t', Session.request lib.moduleGraph t = (.error fault, t') ∧
        fault.wraps .duplicateElement = true ∧
        t'.machine.stateOf lib.moduleGraph = .erroneous cause ∧
        cause.wraps .duplicateElement = true) := by
  rw [install_eq_installedWith seeds hempty] at hinstall
  obtain ⟨hlib, rfl⟩ := Prod.mk.inj hinstall
  obtain rfl := Except.ok.inj hlib
  have hw := setting_unarchived seeds s
  obtain ⟨hbare, hunrequested⟩ := bare_of_installed hmachine hunused
  have hstanding := hw.of_reached (standing_of_unrequested hbare hunrequested) hreached
  constructor
  · intro hspecs
    obtain ⟨t', hread, -⟩ := hw.exists_descriptors hstanding hspecs
    refine ⟨_, t', hread, ?_⟩
    rw [List.forall₂_map_right_iff, List.forall₂_same]
    exact fun spec _ => spec.readsAs_sorted
  · intro hspecs
    obtain ⟨fault, cause, t', hrefused, -, herroneous, hfault, hcause⟩ :=
      hw.exists_request_refused hstanding hspecs
    exact ⟨fault, cause, t', hrefused, hfault, herroneous, hcause⟩

/-- A session with the library installed, which has no archives at all. -/
def bareSession (specs : List ModuleSpec) : Session :=
  { Session.new (FileTree.new "/") specs 1 with machine := installedWith (.constant 7) }

/-- Two modules are read back with another salt after the locales have been requested. A module that
lists a package twice is refused. -/
theorem declared_modules_read_back_bareSession :
    (∃ modules t', standard.descriptors (standard.resalt 5 true (Session.request 9
        (bareSession [⟨"core.base", .boot, ["core.util", "core.lang"]⟩,
          ⟨"app.main", .system, []⟩])).2).2 = (.ok modules, t') ∧
      List.Forall₂ ModuleSpec.ReadsAs
        [⟨"core.base", .boot, ["core.util", "core.lang"]⟩, ⟨"app.main", .system, []⟩] modules) ∧
    ∃ fault cause t', Session.request standard.moduleGraph
        (bareSession [⟨"app.main", .system, ["app", "app"]⟩]) = (.error fault, t') ∧
      fault.wraps .duplicateElement = true ∧
      t'.machine.stateOf standard.moduleGraph = .erroneous cause ∧
      cause.wraps .duplicateElement = true := by
  have hinstall : ∀ specs, install (.constant 7) (Session.new (FileTree.new "/") specs 1)
      = (.ok standard, bareSession specs) := fun specs => install_eq_installedWith (.constant 7) rfl
  constructor
  · have hreached : Reached standard (bareSession [⟨"core.base", .boot, ["core.util", "core.lang"]⟩,
        ⟨"app.main", .system, []⟩]) _ :=
      .resalted (.requested .start (by decide : (9 : ClassId) ∈ standard.classes)) 5 true
    exact (declared_modules_read_back rfl (hinstall _) rfl rfl hreached).1 (by decide)
  · exact (declared_modules_read_back rfl (hinstall _) rfl rfl .start).2 (by decide)

end Library

end ClassSharing
