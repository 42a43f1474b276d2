import ClassSharing.Proofs.Image.Size
import ClassSharing.Proofs.Library.Linking
import ClassSharing.Proofs.Session.Restore

/-!
# Archived modules

An archive keeps the modules of the three loaders as one list, sorted by name. A process that uses
the archive makes every one of them anew and links it to its own loader of the recorded kind.

On the machine that was archived a module may have replaced another one of its name, and then that
one may still own packages. It is in no table of modules, so it is not archived. The modules that
are archived own all their packages; so no two of them on one loader have a package in common, and
linking them in any order refuses none. The new loaders have the same modules as the old ones, and
the packages that no archived module has are no longer owned by anybody.

## Main definitions

* `Machine.loaderOf`: the tables of a loader
* `Machine.linkedSpecs`: the modules of all loaders
* `Session.Unlinked`: a process that uses an archive and has linked nothing

## Main results

* `Machine.Tidy.compatible_linkedSpecs`: archived modules do not get in each other's way
* `Session.exists_defineArchivedModules`: archived modules are linked
* `Writer.archived_modules_relinked`: the loaders have the modules of the archived machine
-/

namespace ClassSharing

open Image Session

theorem Table.values_map {α β : Type} (f : α → β) (t : Table α) :
    (t.map f).values = t.values.map f := by
  rw [Table.values, Table.values, Table.map, List.map_map, List.map_map]
  rfl

/-- A list that is a permutation of some images consists of the images in another order. -/
theorem exists_perm_of_map_perm {α β : Type} {f : α → β} {ys : List β} {xs : List α}
    (h : ys.Perm (xs.map f)) : ∃ xs' : List α, xs'.Perm xs ∧ ys = xs'.map f := by
  induction ys generalizing xs with
  | nil =>
    have hnil : xs = [] := List.map_eq_nil_iff.1 (List.nil_perm.1 h)
    exact ⟨[], by rw [hnil], rfl⟩
  | cons y ys ih =>
    obtain ⟨x, hx, rfl⟩ := List.mem_map.1 (h.mem_iff.1 List.mem_cons_self)
    obtain ⟨before, after, rfl⟩ := List.append_of_mem hx
    have hrest : ys.Perm ((before ++ after).map f) := by
      rw [List.map_append, List.map_cons] at h
      rw [List.map_append]
      exact (h.trans List.perm_middle).cons_inv
    obtain ⟨xs', hperm, rfl⟩ := ih hrest
    exact ⟨x :: xs', (hperm.cons x).trans List.perm_middle.symm, rfl⟩

namespace Machine

/-! ### The modules of a machine -/

/-- The tables of a loader, empty ones if it has not been created. -/
def loaderOf (m : Machine) (kind : LoaderKind) : Loader := (m.loader? kind).getD Loader.empty

/-- What the modules of all loaders are made of. -/
def linkedSpecs (m : Machine) : List ModuleSpec :=
  LoaderKind.all.flatMap fun kind => (m.linkedTo kind).map fun mod => ⟨mod.name, kind, mod.packages⟩

section Tidy

variable {m : Machine} {home : ModuleId → LoaderKind} {kind : LoaderKind} {mod : Module}
  {spec : ModuleSpec}

theorem linkedTo_eq (m : Machine) (kind : LoaderKind) :
    m.linkedTo kind = (m.loaderOf kind).modules.values.map m.moduleAt := by
  rw [linkedTo, loaderOf]
  cases m.loader? kind <;> rfl

theorem Tidy.tidyLoader (h : m.Tidy home) (kind : LoaderKind) :
    m.TidyLoader kind (m.loaderOf kind) := by
  rw [loaderOf]
  cases hl : m.loader? kind with
  | none => exact tidyLoader_empty m kind
  | some l => exact h.loaders kind l hl

theorem Tidy.mem_linkedTo (h : m.Tidy home) : mod ∈ m.linkedTo kind ↔
    ∃ id, (m.loaderOf kind).modules.get? mod.name = some id ∧ m.moduleAt id = mod := by
  have htidy := h.tidyLoader kind
  rw [linkedTo_eq]
  simp only [Table.values, List.map_map, List.mem_map, Function.comp_apply, Prod.exists,
    Table.mem_entries_iff htidy.ascending.1]
  constructor
  · rintro ⟨name, id, hid, rfl⟩
    exact ⟨id, (htidy.named name id hid).2.symm ▸ hid, rfl⟩
  · rintro ⟨id, hid, hmod⟩
    exact ⟨mod.name, id, hid, hmod⟩

theorem Tidy.loader_of_mem (h : m.Tidy home) (hmem : mod ∈ m.linkedTo kind) :
    mod.loader = some kind := by
  obtain ⟨id, hid, rfl⟩ := h.mem_linkedTo.1 hmem
  exact ((h.tidyLoader kind).named _ id hid).1.2

theorem mem_linkedSpecs : spec ∈ m.linkedSpecs ↔
    ∃ mod ∈ m.linkedTo spec.loader, spec = ⟨mod.name, spec.loader, mod.packages⟩ := by
  rw [linkedSpecs, List.mem_flatMap]
  constructor
  · rintro ⟨kind, -, hmem⟩
    obtain ⟨mod, hmod, rfl⟩ := List.mem_map.1 hmem
    exact ⟨mod, hmod, rfl⟩
  · rintro ⟨mod, hmod, heq⟩
    exact ⟨spec.loader, by cases spec.loader <;> decide, List.mem_map.2 ⟨mod, hmod, heq.symm⟩⟩

theorem Tidy.linked_mem_iff (h : m.Tidy home) :
    spec ∈ m.linkedSpecs ↔ spec.linked ∈ m.linkedTo spec.loader := by
  rw [mem_linkedSpecs]
  constructor
  · rintro ⟨⟨name, packages, loader⟩, hmod, heq⟩
    have hloader : loader = some spec.loader := h.loader_of_mem hmod
    have hlinked : spec.linked = ⟨name, packages, loader⟩ := by
      rw [heq, hloader]
      rfl
    rw [hlinked]
    exact hmod
  · intro hmod
    exact ⟨spec.linked, hmod, rfl⟩

theorem Tidy.map_linkedSpecs (h : m.Tidy home) :
    m.linkedSpecs.map ModuleSpec.linked = m.allModules.map m.moduleAt := by
  rw [map_allModules, linkedSpecs, List.map_flatMap]
  congr 1
  funext kind
  rw [List.map_map]
  refine (List.map_congr_left fun mod hmod => ?_).trans (List.map_id _)
  obtain ⟨name, packages, loader⟩ := mod
  have hloader : loader = some kind := h.loader_of_mem hmod
  rw [hloader]
  rfl

theorem Tidy.isSorted (h : m.Tidy home) (hspec : spec ∈ m.linkedSpecs) : spec.IsSorted := by
  obtain ⟨id, -, hid⟩ := h.mem_linkedTo.1 (h.linked_mem_iff.1 hspec)
  have hsorted := h.sorted id
  rw [hid] at hsorted
  exact hsorted

/-- The table of modules of a loader leads to the modules that are made of these. -/
theorem Tidy.leads (h : m.Tidy home) (kind : LoaderKind) :
    m.Leads (m.loaderOf kind).modules m.linkedSpecs kind fun spec name => spec.name = name := by
  have htidy := h.tidyLoader kind
  refine ⟨htidy.ascending.1, fun name id hid => (htidy.named name id hid).1.1, fun name mod => ?_⟩
  rw [Option.map_eq_some_iff]
  constructor
  · rintro ⟨id, hid, rfl⟩
    obtain ⟨⟨-, hloader⟩, hname⟩ := htidy.named name id hid
    have hlinked :
        (⟨name, kind, (m.moduleAt id).packages⟩ : ModuleSpec).linked = m.moduleAt id := by
      rw [ModuleSpec.linked, ← hname, ← hloader]
    refine ⟨⟨name, kind, (m.moduleAt id).packages⟩, h.linked_mem_iff.2 ?_, rfl, rfl, hlinked⟩
    rw [hlinked]
    exact h.mem_linkedTo.2 ⟨id, hname.symm ▸ hid, rfl⟩
  · rintro ⟨spec, hspec, rfl, rfl, rfl⟩
    exact h.mem_linkedTo.1 (h.linked_mem_iff.1 hspec)

/-- **The modules of a machine do not get in each other's way**: each of them owns its packages. -/
theorem Tidy.compatible_linkedSpecs (h : m.Tidy home) :
    m.linkedSpecs.Pairwise ModuleSpec.Compatible := by
  rw [linkedSpecs, List.pairwise_flatMap]
  constructor
  · intro kind _
    have htidy := h.tidyLoader kind
    rw [linkedTo_eq, Table.values, List.map_map, List.map_map, List.pairwise_map]
    refine htidy.ascending.1.imp_of_mem fun {e f} he hf hprecedes _ => ?_
    have hne := Text.ne_of_precedes hprecedes
    have hid := (Table.mem_entries_iff htidy.ascending.1).1 he
    have hid' := (Table.mem_entries_iff htidy.ascending.1).1 hf
    have hname : (m.moduleAt e.2).name = e.1 := (htidy.named e.1 e.2 hid).2
    have hname' : (m.moduleAt f.2).name = f.1 := (htidy.named f.1 f.2 hid').2
    refine ⟨fun heq => hne (hname.symm.trans (heq.trans hname')), fun p hp hp' => ?_⟩
    -- The owner of a common package would be both modules.
    have howner := htidy.owned e.1 e.2 hid p hp
    have howner' := htidy.owned f.1 f.2 hid' p hp'
    have hsame : e.2 = f.2 := Option.some.inj (howner.symm.trans howner')
    exact hne (hname.symm.trans ((congrArg (fun id => (m.moduleAt id).name) hsame).trans hname'))
  · refine (by decide : LoaderKind.all.Pairwise (· ≠ ·)).imp ?_
    intro kind kind' hne a ha b hb hloader
    obtain ⟨mod, -, rfl⟩ := List.mem_map.1 ha
    obtain ⟨mod', -, rfl⟩ := List.mem_map.1 hb
    exact absurd hloader hne

/-- A machine whose loaders have been given the same modules. -/
theorem Tidy.linkedTo_eq_of_linked (h : m.Tidy home) {m' : Machine} {specs : List ModuleSpec}
    (hlinked : m'.Linked specs) (hmem : ∀ spec, spec ∈ m.linkedSpecs ↔ spec ∈ specs)
    (kind : LoaderKind) : ∃ l, m'.loader? kind = some l ∧ m'.linkedTo kind = m.linkedTo kind ∧
      ∀ mod ∈ m.linkedTo kind, mod.loader = some kind ∧
        (l.modules.get? mod.name).map m'.moduleAt = some mod ∧
        ∀ p ∈ mod.packages, (l.packages.get? p).map m'.moduleAt = some mod := by
  obtain ⟨l, hl⟩ := hlinked.created kind
  have hleads := hlinked.modules kind l hl
  have hloaderOf : m'.loaderOf kind = l := by rw [loaderOf, hl, Option.getD_some]
  refine ⟨l, hl, ?_, fun mod hmod => ⟨h.loader_of_mem hmod, ?_, fun p hp => ?_⟩⟩
  · have htables := hleads.map_eq (h.leads kind) (fun spec => (hmem spec).symm) id
    have hvalues := congrArg Table.values htables
    rw [Table.values_map, Table.values_map] at hvalues
    rw [linkedTo_eq, linkedTo_eq, hloaderOf]
    exact hvalues
  · obtain ⟨spec, hspec, hspec', hname, rfl⟩ := ((h.leads kind).leads mod.name mod).1
      (Option.map_eq_some_iff.2 (h.mem_linkedTo.1 hmod))
    exact (hleads.leads _ _).2 ⟨spec, (hmem spec).1 hspec, hspec', hname, rfl⟩
  · obtain ⟨spec, hspec, hspec', -, rfl⟩ := ((h.leads kind).leads mod.name mod).1
      (Option.map_eq_some_iff.2 (h.mem_linkedTo.1 hmod))
    exact ((hlinked.owners kind l hl).leads p _).2 ⟨spec, (hmem spec).1 hspec, hspec', hp, rfl⟩

end Tidy

end Machine

/-! ### Asking for archived modules -/

namespace Session

section Asking

variable {s : Session} {g : GraphId} {platformLoader systemLoader : LoaderKind}

/-- The session with the archived modules asked for through a graph. -/
def withModulesDefined (s : Session) (g : GraphId) : Session :=
  s.updateGraph g fun graph => { graph with modulesDefined := true }

theorem gate_withModulesDefined (s : Session) (g : GraphId) :
    ((s.withModulesDefined g).graphAt g).gate = (s.graphAt g).gate := by
  rw [withModulesDefined, graphAt_updateGraph]
  split <;> rfl

/-- Asking for archived modules comes down to asking whether an archive is in use. -/
theorem defineArchivedModules_eq (hfirst : (s.graphAt g).modulesDefined = false) :
    defineArchivedModules g (some platformLoader) (some systemLoader) s
      = (do
          if ← ExceptT.lift (isUsing g) then
            let s ← get
            match (s.gateAt (s.graphAt g).gate).boot with
            | none => return
            | some b =>
              let (faults, m) :=
                linkModules platformLoader systemLoader s.machine (s.bootAt b).modules
              set (s.withMachine m)
              match Fault.join? faults with
              | some fault => throw fault
              | none => return : Attempt Unit) (s.withModulesDefined g) := by
  rw [defineArchivedModules, exceptBind_apply (exceptGet_apply s), hfirst]
  rfl

/-- Asking for the status does not change the archived modules. -/
theorem modules_bootAt_isUsing (g : GraphId) (s : Session) (b : BootId) :
    ((isUsing g s).2.bootAt b).modules = (s.bootAt b).modules := by
  have hasked : ∀ other, ((s.updateBoot other Bootstrap.afterStatus).bootAt b).modules
      = (s.bootAt b).modules := by
    intro other
    rw [bootAt_updateBoot]
    split
    · cases s.bootAt b <;> rfl
    · rfl
  show ((gateStatus (s.graphAt g).gate s).2.bootAt b).modules = (s.bootAt b).modules
  rw [gateStatus]
  split
  · rfl
  · rw [askStatus]
    split
    · rfl
    · simp only
      split
      · exact hasked _
      · exact hasked _

/-- Whether an archive is in use does not depend on what has been asked for. -/
theorem isUsing_withModulesDefined (g : GraphId) (s : Session) :
    isUsing g (s.withModulesDefined g)
      = ((isUsing g s).1, (isUsing g s).2.withModulesDefined g) := by
  have hstatus : gateStatus (s.graphAt g).gate (s.withModulesDefined g)
      = ((gateStatus (s.graphAt g).gate s).1,
          (gateStatus (s.graphAt g).gate s).2.withModulesDefined g) := by
    have hgate : ∀ id, (s.withModulesDefined g).gateAt id = s.gateAt id := fun _ => rfl
    have hboot : ∀ id, (s.withModulesDefined g).bootAt id = s.bootAt id := fun _ => rfl
    rw [gateStatus, gateStatus, hgate]
    cases (s.gateAt (s.graphAt g).gate).status with
    | some status => rfl
    | none =>
      simp only
      rw [askStatus, askStatus, hgate]
      cases (s.gateAt (s.graphAt g).gate).boot with
      | none => rfl
      | some b =>
        simp only [hboot]
        cases judge (s.bootAt b).status <;> rfl
  show ((gateStatus ((s.withModulesDefined g).graphAt g).gate (s.withModulesDefined g)).1.isUsing,
    (gateStatus ((s.withModulesDefined g).graphAt g).gate (s.withModulesDefined g)).2) = _
  rw [gate_withModulesDefined, hstatus]
  rfl

/-- The modules of the archive behind a graph. -/
def archivedModules (s : Session) (g : GraphId) : List ModuleRecord :=
  match (s.gateAt (s.graphAt g).gate).boot with
  | none => []
  | some b => (s.bootAt b).modules

/-- Asking for the status does not change which modules are archived. -/
theorem archivedModules_isUsing (g : GraphId) (s : Session) :
    ((isUsing g s).2.withModulesDefined g).archivedModules g = s.archivedModules g := by
  have hevolves := (calm_isUsing g s).evolves
  have hboot : (((isUsing g s).2.withModulesDefined g).gateAt
      (((isUsing g s).2.withModulesDefined g).graphAt g).gate).boot
        = (s.gateAt (s.graphAt g).gate).boot := by
    rw [gate_withModulesDefined, hevolves.gateOf]
    exact hevolves.bootOf _
  rw [archivedModules, archivedModules, hboot]
  cases (s.gateAt (s.graphAt g).gate).boot with
  | none => rfl
  | some b => exact modules_bootAt_isUsing g s b

/-- The answer with some faults. -/
def answerOf (faults : List Fault) : Except Fault Unit :=
  match Fault.join? faults with
  | some fault => .error fault
  | none => .ok ()

/-- **Asking for archived modules the first time** links them if an archive is in use. -/
theorem defineArchivedModules_of_first (hfirst : (s.graphAt g).modulesDefined = false) :
    defineArchivedModules g (some platformLoader) (some systemLoader) s
      = if (isUsing g s).1 then
          (answerOf (linkModules platformLoader systemLoader s.machine (s.archivedModules g)).1,
            ((isUsing g s).2.withModulesDefined g).withMachine
              (linkModules platformLoader systemLoader s.machine (s.archivedModules g)).2)
        else (.ok (), (isUsing g s).2.withModulesDefined g) := by
  rw [defineArchivedModules_eq hfirst, exceptBind_apply (lift_apply _ _),
    isUsing_withModulesDefined]
  cases (isUsing g s).1 with
  | false => rfl
  | true =>
    refine (exceptBind_apply (exceptGet_apply _)).trans ?_
    have hmachine : ((isUsing g s).2.withModulesDefined g).machine = s.machine :=
      machine_isUsing g s
    rw [← archivedModules_isUsing g s, archivedModules, ← hmachine, if_pos rfl]
    cases (((isUsing g s).2.withModulesDefined g).gateAt
        (((isUsing g s).2.withModulesDefined g).graphAt g).gate).boot with
    | none => rfl
    | some b =>
      simp only [answerOf]
      cases Fault.join? (linkModules platformLoader systemLoader
        ((isUsing g s).2.withModulesDefined g).machine
        (((isUsing g s).2.withModulesDefined g).bootAt b).modules).1 <;> rfl

/-- A process that uses an archive with these modules. Its loaders have been created and are empty,
and its graph has not been asked for the archived modules. -/
structure Unlinked (s : Session) (g : GraphId) (modules : List ModuleRecord) : Prop where
  loaders : ∀ kind, s.machine.loader? kind = some Loader.empty
  unasked : (s.graphAt g).modulesDefined = false
  inUse : (isUsing g s).1 = true
  archived : ∃ b, (s.gateAt (s.graphAt g).gate).boot = some b ∧ (s.bootAt b).modules = modules

theorem Unlinked.archivedModules_eq {modules : List ModuleRecord} (h : s.Unlinked g modules) :
    s.archivedModules g = modules := by
  obtain ⟨b, hboot, hmodules⟩ := h.archived
  rw [archivedModules, hboot]
  exact hmodules

/-- **Archived modules are linked** if linking them refuses none. -/
theorem exists_defineArchivedModules {modules : List ModuleRecord} {m : Machine}
    (h : s.Unlinked g modules)
    (hlink : linkModules .platform .system s.machine modules = ([], m)) :
    ∃ s', defineArchivedModules g (some .platform) (some .system) s = (.ok (), s') ∧
      s'.machine = m := by
  refine ⟨((isUsing g s).2.withModulesDefined g).withMachine m, ?_, rfl⟩
  rw [defineArchivedModules_of_first h.unasked, h.archivedModules_eq, hlink, if_pos h.inUse]
  rfl

end Asking

end Session

/-! ### Linking what was written -/

namespace Writer

/-- **Archived modules are relinked exactly.** A machine has got its modules by any calls that link
each of them to one loader only. An archive of them can be read, and a process that uses it links
them without an error. Then each loader lists the same modules as the loader of its kind on the
archived machine: the same names with the same packages, linked to that loader. It finds each of
them under its name, and as the owner of each of its packages. -/
theorem archived_modules_relinked {start : Machine} (hstart : start.Moduleless)
    {home : ModuleId → LoaderKind} {calls : List ModuleCall}
    (hcalls : ∀ call ∈ calls, call.AtHome home) {kind : UInt8} {build : Build} {seed : Int64}
    (hkind : kind = staticKind ∨ kind = dynamicKind) {gathering : List Call}
    (hmodules : gathering.flatMap Call.modules
      = (start.moduleCalls calls).allModules.map (start.moduleCalls calls).moduleAt)
    (hstorable : ((Writer.new kind build seed 0).callAll gathering).Storable) :
    ∃ a, Archive.decode ((Writer.new kind build seed 0).callAll gathering).encode = .ok a ∧
      ∀ (s : Session) (g : GraphId), s.Unlinked g a.modules →
        ∃ s', defineArchivedModules g (some .platform) (some .system) s = (.ok (), s') ∧
          ∀ kind, ∃ l, s'.machine.loader? kind = some l ∧
            s'.machine.linkedTo kind = (start.moduleCalls calls).linkedTo kind ∧
            ∀ mod ∈ (start.moduleCalls calls).linkedTo kind, mod.loader = some kind ∧
              (l.modules.get? mod.name).map s'.machine.moduleAt = some mod ∧
              ∀ p ∈ mod.packages, (l.packages.get? p).map s'.machine.moduleAt = some mod := by
  have htidy : (start.moduleCalls calls).Tidy home := hstart.tidy.moduleCalls hcalls
  obtain ⟨skipped, hwriter⟩ := callAll_new kind build seed gathering
  have hkind' : ((Writer.new kind build seed 0).callAll gathering).kind = kind := by rw [hwriter]
  have hdecode := decode_encode_eq (by rw [hkind']; exact hkind)
    (sound_callAll kind build seed gathering) hstorable
  refine ⟨_, hdecode, fun s g hunlinked => ?_⟩
  -- The records are those of the modules, in another order.
  have hrecords : ((Writer.new kind build seed 0).callAll gathering).modules
      = (start.moduleCalls calls).linkedSpecs.map ModuleSpec.record := by
    rw [hwriter]
    show (gathering.flatMap Call.modules).filterMap moduleRecord? = _
    rw [hmodules, ← htidy.map_linkedSpecs, List.filterMap_map, ← List.filterMap_eq_map]
    rfl
  have hperm := sortedModules_perm ((Writer.new kind build seed 0).callAll gathering)
  rw [hrecords] at hperm
  obtain ⟨specs, hspecs, hsorted⟩ := exists_perm_of_map_perm hperm
  rw [modules_archive, hsorted] at hunlinked
  obtain ⟨m, hlink, hlinked, -⟩ := (Machine.linked_nil hunlinked.loaders).exists_linkModules
    (fun spec hspec => htidy.isSorted (hspecs.mem_iff.1 hspec))
    ((hspecs.pairwise_iff ModuleSpec.Compatible.symm).2 htidy.compatible_linkedSpecs)
  obtain ⟨s', hdefine, rfl⟩ := exists_defineArchivedModules hunlinked hlink
  exact ⟨s', hdefine, htidy.linkedTo_eq_of_linked hlinked fun spec => hspecs.mem_iff.symm⟩

/-! ### Modules of one name -/

/-- Two loaders get modules of one name, and on the boot loader a module is replaced. -/
def namesakeCalls : List ModuleCall :=
  [.load, .make "core.base" ["core.lang"], .link .boot 0, .make "core.base" ["core.lang"],
    .link .system 1, .make "core.base" ["core.util"], .link .boot 2]

/-- The machine after these calls. -/
def namesakeMachine : Machine := Machine.new.moduleCalls namesakeCalls

/-- A writer that gathers its modules. -/
def namesakeWriter : Writer :=
  (new staticKind ⟨"1", "release", "vm", 21⟩ 42 0).callAll
    [.addModules (namesakeMachine.allModules.map namesakeMachine.moduleAt)]

theorem storable_namesakeWriter : namesakeWriter.Storable where
  build := by decide
  modules := by decide +kernel
  names := nofun
  limited := by decide +kernel
  subgraphs := by decide
  addressable :=
    length_encode_lt (by decide) (by decide +kernel) (by decide +kernel) nofun (by decide) nofun

/-- A new process that uses an archive with some modules. -/
def usingSession (modules : List ModuleRecord) : Session :=
  { Session.new (FileTree.new "/") [] 0 with
    machine := Machine.new.createLoaders
    graphs := #[⟨0, Table.empty, false⟩]
    gates := #[⟨some 0, [], none⟩]
    boots := #[.synthetic
      { SyntheticBoot.new (.ok ⟨Status.usingFlag⟩) ⟨"1", "release", "vm", 21⟩ with
        modules := modules }] }

theorem unlinked_usingSession (modules : List ModuleRecord) :
    (usingSession modules).Unlinked 0 modules where
  loaders kind := by cases kind <;> rfl
  unasked := rfl
  inUse := rfl
  archived := ⟨0, rfl, rfl⟩

/-- The archive of these modules is used: both loaders have their own module of the name, and the
boot loader the one that replaced the other. -/
theorem archived_modules_relinked_namesakeCalls :
    ∃ a s', Archive.decode namesakeWriter.encode = .ok a ∧
      defineArchivedModules 0 (some .platform) (some .system) (usingSession a.modules)
        = (.ok (), s') ∧
      (⟨"core.base", ["core.util"], some .boot⟩ : Module) ∈ s'.machine.linkedTo .boot ∧
      (⟨"core.base", ["core.lang"], some .system⟩ : Module)
        ∈ s'.machine.linkedTo .system := by
  have hcalls : ∀ call ∈ namesakeCalls,
      call.AtHome fun id => if id = 1 then .system else .boot := by
    decide
  obtain ⟨a, hdecode, huse⟩ := archived_modules_relinked Machine.moduleless_new hcalls
    (Or.inl rfl) (List.append_nil _) storable_namesakeWriter
  obtain ⟨s', hdefine, hsame⟩ := huse _ 0 (unlinked_usingSession a.modules)
  obtain ⟨-, -, hboot, -⟩ := hsame .boot
  obtain ⟨-, -, hsystem, -⟩ := hsame .system
  refine ⟨a, s', hdecode, hdefine, ?_, ?_⟩
  · rw [hboot]
    decide +kernel
  · rw [hsystem]
    decide +kernel

end Writer

end ClassSharing
