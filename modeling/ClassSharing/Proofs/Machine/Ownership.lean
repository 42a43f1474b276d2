import ClassSharing.Proofs.Machine.Loaders

/-!
# The owners of packages

A package is owned by the module that was last linked with it. A later module takes the package over
only under the same name, so the name of the owner never changes, although the owner does. Whether a
module is refused is decided by these names alone, and a module that is refused is entered nowhere.

Nothing compares the modules of the table of modules with each other. That modules of two names have
no package in common follows from the names of the owners: when a module was linked, each of its
packages got an owner of its name, and it has kept one since, also where the owner has been
replaced.

## What is deliberately absent

There is no condition on where modules are linked: a module may be linked to several loaders, and
again to the same one. The loader that a module names is its last one, so the table of a loader may
have modules that name another loader. All that is said of that field is that a refusal leaves it
alone.

## Main definitions

* `Machine.OwnedBy`: a package has an owner of a name
* `Machine.Free`: no package of a module has an owner of another name
* `Machine.Owning`: what calls about modules preserve
* `Machine.KeepsModules`, `Machine.LoaderStep`: what one call does to the modules and to one loader

## Main results

* `Machine.defineModule_eq_error_iff`: when a module is refused, and how
* `Machine.Owning.moduleCall`, `Machine.OwnedBy.moduleCall`: one call, and `moduleCalls` for a run
* `Machine.ownership_permanent`: the owners of the packages over all calls
-/

namespace ClassSharing

/-- A conflict is a package with an owner of another name. -/
theorem Loader.of_conflict?_eq_some {l : Loader} {nameOf : ModuleId → Text} {name : Text}
    {packages : List Text} {p taken : Text}
    (h : l.conflict? nameOf name packages = some (p, taken)) :
    p ∈ packages ∧ taken ≠ name ∧
      ∃ owner, l.packages.get? p = some owner ∧ nameOf owner = taken := by
  induction packages with
  | nil => cases h
  | cons first rest ih =>
    have hrest : l.conflict? nameOf name rest = some (p, taken) → p ∈ first :: rest ∧ taken ≠ name ∧
        ∃ owner, l.packages.get? p = some owner ∧ nameOf owner = taken :=
      fun hconflict => (ih hconflict).imp_left (List.mem_cons_of_mem first)
    rw [conflict?] at h
    cases hget : l.packages.get? first with
    | none =>
      rw [hget] at h
      exact hrest h
    | some owner =>
      rw [hget] at h
      dsimp only at h
      by_cases howner : nameOf owner = name
      · rw [if_pos howner] at h
        exact hrest h
      · rw [if_neg howner] at h
        obtain ⟨rfl, rfl⟩ := Prod.mk.inj (Option.some.inj h)
        exact ⟨List.mem_cons_self, howner, owner, hget, rfl⟩

namespace Machine

variable {m m' : Machine} {kind : LoaderKind} {l l' : Loader} {id : ModuleId} {p n : Text}

/-! ### Linking a module -/

/-- A package has an owner of that name in a loader. -/
def OwnedBy (m : Machine) (kind : LoaderKind) (p n : Text) : Prop :=
  ∃ l owner, m.loader? kind = some l ∧ l.packages.get? p = some owner ∧ (m.moduleAt owner).name = n

/-- No package of a module has an owner of another name. -/
def Free (m : Machine) (l : Loader) (id : ModuleId) : Prop :=
  ∀ p ∈ (m.moduleAt id).packages, ∀ owner, l.packages.get? p = some owner →
    (m.moduleAt owner).name = (m.moduleAt id).name

theorem free_iff (hl : m.loader? kind = some l) : m.Free l id ↔
    ∀ p ∈ (m.moduleAt id).packages, ∀ n, m.OwnedBy kind p n → n = (m.moduleAt id).name := by
  constructor
  · rintro hfree p hp n ⟨l', owner, hl', howner, rfl⟩
    obtain rfl := Option.some.inj (hl.symm.trans hl')
    exact hfree p hp owner howner
  · exact fun h p hp owner howner => h p hp _ ⟨l, owner, hl, howner, rfl⟩

/-- **A module is refused** for one of its packages that has an owner of another name. -/
theorem defineModule_eq_error_iff (hl : m.loader? kind = some l) :
    (∃ failure, m.defineModule kind id = .error failure) ↔
      ∃ p ∈ (m.moduleAt id).packages, ∃ n, m.OwnedBy kind p n ∧ n ≠ (m.moduleAt id).name := by
  have hok : (∃ m', m.defineModule kind id = .ok m') ↔ m.Free l id := by
    constructor
    · rintro ⟨m', h⟩
      obtain ⟨l', hl', hfree, -⟩ := defineModule_eq_ok_iff.1 h
      obtain rfl := Option.some.inj (hl.symm.trans hl')
      exact hfree
    · exact fun hfree => ⟨_, defineModule_eq_ok_iff.2 ⟨l, hl, hfree, rfl⟩⟩
  have herror : (∃ failure, m.defineModule kind id = .error failure) ↔ ¬ m.Free l id := by
    rw [← hok]
    cases m.defineModule kind id <;> simp
  rw [herror, free_iff hl]
  push Not
  rfl

/-- The fault of a module that is refused tells the package and both names. -/
theorem of_defineModule_eq_error (hl : m.loader? kind = some l) {failure : Failure}
    (h : m.defineModule kind id = .error failure) :
    ∃ p ∈ (m.moduleAt id).packages, ∃ n, m.OwnedBy kind p n ∧ n ≠ (m.moduleAt id).name ∧
      failure = .fault (.of (.packageConflict p n (m.moduleAt id).name)) := by
  rw [defineModule, hl] at h
  dsimp only at h
  split at h
  · rename_i p n hconflict
    obtain ⟨hp, hn, owner, howner, hname⟩ := Loader.of_conflict?_eq_some hconflict
    obtain rfl := Except.error.inj h
    exact ⟨p, hp, n, ⟨l, owner, hl, howner, hname⟩, hn, rfl⟩
  · cases h

/-! ### One call -/

/-- The modules that have been made keep their names and their packages. -/
structure KeepsModules (m m' : Machine) : Prop where
  size : m.modules.size ≤ m'.modules.size
  name : ∀ id < m.modules.size, (m'.moduleAt id).name = (m.moduleAt id).name
  packages : ∀ id < m.modules.size, (m'.moduleAt id).packages = (m.moduleAt id).packages

theorem keepsModules_moduleCall (m : Machine) (call : ModuleCall) :
    KeepsModules m (m.moduleCall call) := by
  have hrefl : KeepsModules m m := ⟨Nat.le_refl _, fun _ _ => rfl, fun _ _ => rfl⟩
  cases call with
  | make name packages =>
    have hmodule : ∀ id < m.modules.size,
        (m.addModule name packages).2.moduleAt id = m.moduleAt id := fun id hid =>
      (moduleAt_addModule m name packages id).trans (if_neg (Nat.ne_of_lt hid))
    refine ⟨?_, fun id hid => congrArg _ (hmodule id hid),
      fun id hid => congrArg _ (hmodule id hid)⟩
    exact (Array.size_push _).symm ▸ Nat.le_succ _
  | load =>
    refine ⟨?_, fun id _ => congrArg _ (moduleAt_createLoaders m id),
      fun id _ => congrArg _ (moduleAt_createLoaders m id)⟩
    exact Nat.le_of_eq (congrArg Array.size (modules_createLoaders m)).symm
  | link kind id =>
    rw [moduleCall]
    split
    · cases hdefine : m.defineModule kind id with
      | error failure => exact hrefl
      | ok m' =>
        obtain ⟨l, -, -, rfl⟩ := defineModule_eq_ok_iff.1 hdefine
        exact ⟨Nat.le_of_eq (size_modules_linking m kind l id).symm,
          fun other _ => name_moduleAt_linking m kind l id other,
          fun other _ => packages_moduleAt_linking m kind l id other⟩
    · exact hrefl

/-- What becomes of a loader in a call: it stays as it is, it is made, or one module is entered. -/
inductive LoaderStep (m : Machine) : Option Loader → Option Loader → Prop where
  | same (loader? : Option Loader) : m.LoaderStep loader? loader?
  | made : m.LoaderStep none (some Loader.empty)
  | entered {l : Loader} {id : ModuleId} (made : id < m.modules.size) (free : m.Free l id) :
      m.LoaderStep (some l) (some (l.enter id (m.moduleAt id).name (m.moduleAt id).packages))

/-- **What a call does to a loader.** Without the condition the system loader would not be safe:
both loaders are made where the platform loader is missing. -/
theorem loader?_moduleCall (hpaired : m.platform = none → m.system = none) (call : ModuleCall)
    (kind : LoaderKind) : m.LoaderStep (m.loader? kind) ((m.moduleCall call).loader? kind) := by
  cases call with
  | make name packages =>
    cases kind with
    | boot => exact .same _
    | platform => exact .same _
    | system => exact .same _
  | load =>
    rw [moduleCall, createLoaders]
    cases hplatform : m.platform with
    | some old => exact .same _
    | none =>
      cases kind with
      | boot => exact .same _
      | platform =>
        show m.LoaderStep m.platform (some Loader.empty)
        rw [hplatform]
        exact .made
      | system =>
        show m.LoaderStep m.system (some Loader.empty)
        rw [hpaired hplatform]
        exact .made
  | link target id =>
    rw [moduleCall]
    split
    · rename_i hid
      cases hdefine : m.defineModule target id with
      | error failure => exact .same _
      | ok m' =>
        obtain ⟨l, hl, hfree, rfl⟩ := defineModule_eq_ok_iff.1 hdefine
        show m.LoaderStep (m.loader? kind) ((m.linking target l id).loader? kind)
        rw [loader?_linking]
        split
        · rename_i htarget
          rw [htarget, hl]
          exact .entered hid hfree
        · exact .same _
    · exact .same _

/-! ### What calls preserve -/

/-- The owners of the packages of one loader. -/
structure OwningLoader (m : Machine) (l : Loader) : Prop where
  ascending : l.Ascending
  /-- The owners have been made, -/
  made : ∀ p owner, l.packages.get? p = some owner → owner < m.modules.size
  /-- the modules are in the table under their names, -/
  named : ∀ name id, l.modules.get? name = some id →
    id < m.modules.size ∧ (m.moduleAt id).name = name
  /-- and every package of such a module has an owner of the same name, be it another module. -/
  claimed : ∀ name id, l.modules.get? name = some id → ∀ p ∈ (m.moduleAt id).packages,
    ∃ owner, l.packages.get? p = some owner ∧ (m.moduleAt owner).name = name

/-- The owners of the packages of all loaders. -/
structure Owning (m : Machine) : Prop where
  loaders : ∀ kind l, m.loader? kind = some l → m.OwningLoader l
  /-- The platform and the system loader are made together. -/
  paired : m.platform = none → m.system = none

theorem owningLoader_empty (m : Machine) : m.OwningLoader Loader.empty where
  ascending := Loader.ascending_empty
  made _ _ h := by cases h
  named _ _ h := by cases h
  claimed _ _ h := by cases h

theorem Moduleless.owning (h : m.Moduleless) (hpaired : m.platform = none → m.system = none) :
    m.Owning := by
  refine ⟨fun kind l hl => ?_, hpaired⟩
  rw [h.loaders kind l hl]
  exact owningLoader_empty m

theorem OwningLoader.keeps (h : m.OwningLoader l) (hkeeps : KeepsModules m m') :
    m'.OwningLoader l := by
  refine ⟨h.ascending, fun p owner howner => ?_, fun name id hid => ?_, fun name id hid p hp => ?_⟩
  · exact Nat.lt_of_lt_of_le (h.made p owner howner) hkeeps.size
  · obtain ⟨hlt, hname⟩ := h.named name id hid
    exact ⟨Nat.lt_of_lt_of_le hlt hkeeps.size, (hkeeps.name id hlt).trans hname⟩
  · rw [hkeeps.packages id (h.named name id hid).1] at hp
    obtain ⟨owner, howner, hname⟩ := h.claimed name id hid p hp
    exact ⟨owner, howner, (hkeeps.name owner (h.made p owner howner)).trans hname⟩

/-- **The owner of a package keeps its name** when the package gets another owner. -/
theorem LoaderStep.exists_owner {loader? : Option Loader} (h : m.LoaderStep (some l) loader?)
    {owner : ModuleId} (howner : l.packages.get? p = some owner) (hmade : owner < m.modules.size) :
    ∃ l' owner', loader? = some l' ∧ l'.packages.get? p = some owner' ∧ owner' < m.modules.size ∧
      (m.moduleAt owner').name = (m.moduleAt owner).name := by
  cases h with
  | same => exact ⟨l, owner, rfl, howner, hmade, rfl⟩
  | @entered _ id hid hfree =>
    refine ⟨_, if p ∈ (m.moduleAt id).packages then id else owner, rfl, ?_⟩
    rw [Loader.get?_packages_enter]
    split
    · rename_i hp
      exact ⟨rfl, hid, (hfree p hp owner howner).symm⟩
    · exact ⟨howner, hmade, rfl⟩

theorem OwningLoader.enter (h : m.OwningLoader l) (hid : id < m.modules.size)
    (hfree : m.Free l id) :
    m.OwningLoader (l.enter id (m.moduleAt id).name (m.moduleAt id).packages) := by
  refine ⟨h.ascending.enter _ _ _, fun p owner howner => ?_, fun name other hother => ?_,
    fun name other hother p hp => ?_⟩
  · rw [Loader.get?_packages_enter] at howner
    split at howner
    · obtain rfl := Option.some.inj howner
      exact hid
    · exact h.made p owner howner
  · rw [Loader.get?_modules_enter] at hother
    split at hother
    · rename_i hname
      obtain rfl := Option.some.inj hother
      exact ⟨hid, hname.symm⟩
    · exact h.named name other hother
  · rw [Loader.get?_modules_enter] at hother
    split at hother
    · rename_i hname
      obtain rfl := Option.some.inj hother
      exact ⟨id, (Loader.get?_packages_enter ..).trans (if_pos hp), hname.symm⟩
    · -- The packages of the other modules had owners of their names before.
      obtain ⟨owner, howner, hname⟩ := h.claimed name other hother p hp
      obtain ⟨l', owner', hl', howner', -, hname'⟩ :=
        (LoaderStep.entered hid hfree).exists_owner howner (h.made p owner howner)
      obtain rfl := Option.some.inj hl'
      exact ⟨owner', howner', hname'.trans hname⟩

/-- A call that makes a platform loader makes a system loader, and no other call makes a loader. -/
theorem paired_moduleCall (hpaired : m.platform = none → m.system = none) (call : ModuleCall) :
    (m.moduleCall call).platform = none → (m.moduleCall call).system = none := by
  cases call with
  | make name packages => exact hpaired
  | load =>
    rw [moduleCall, createLoaders]
    cases hplatform : m.platform with
    | some old =>
      intro h
      cases hplatform.symm.trans h
    | none =>
      intro h
      cases h
  | link kind id =>
    rw [moduleCall]
    split
    · cases hdefine : m.defineModule kind id with
      | error failure => exact hpaired
      | ok m' =>
        obtain ⟨l, hl, -, rfl⟩ := defineModule_eq_ok_iff.1 hdefine
        intro hnone
        have hplatform := (loader?_linking m kind .platform l id).symm.trans hnone
        have hsystem := loader?_linking m kind .system l id
        cases kind with
        | boot => exact hsystem.trans (hpaired hplatform)
        | platform => cases hplatform
        | system => cases (hpaired hplatform).symm.trans hl
    · exact hpaired

/-- **What calls preserve** is preserved by one call, -/
theorem Owning.moduleCall (h : m.Owning) (call : ModuleCall) : (m.moduleCall call).Owning := by
  refine ⟨fun kind l' hl' => ?_, paired_moduleCall h.paired call⟩
  refine OwningLoader.keeps ?_ (keepsModules_moduleCall m call)
  have hstep := loader?_moduleCall h.paired call kind
  rw [hl'] at hstep
  generalize hbefore : m.loader? kind = before at hstep
  cases hstep with
  | same => exact h.loaders kind l' hbefore
  | made => exact owningLoader_empty m
  | entered hid hfree => exact (h.loaders kind _ hbefore).enter hid hfree

/-- and so is the name of an owner. -/
theorem OwnedBy.moduleCall (howned : m.OwnedBy kind p n) (h : m.Owning) (call : ModuleCall) :
    (m.moduleCall call).OwnedBy kind p n := by
  obtain ⟨l, owner, hl, howner, rfl⟩ := howned
  have hstep := loader?_moduleCall h.paired call kind
  rw [hl] at hstep
  obtain ⟨l', owner', hl', howner', hmade, hname⟩ :=
    hstep.exists_owner howner ((h.loaders kind l hl).made p owner howner)
  exact ⟨l', owner', hl', howner', ((keepsModules_moduleCall m call).name owner' hmade).trans hname⟩

/-- Both hold for any calls. -/
theorem Owning.moduleCalls (h : m.Owning) (calls : List ModuleCall) :
    (m.moduleCalls calls).Owning ∧
      ∀ {kind p n}, m.OwnedBy kind p n → (m.moduleCalls calls).OwnedBy kind p n := by
  induction calls generalizing m with
  | nil => exact ⟨h, fun howned => howned⟩
  | cons call rest ih =>
    obtain ⟨howning, hkept⟩ := ih (h.moduleCall call)
    exact ⟨howning, fun howned => hkept (howned.moduleCall h call)⟩

/-! ### The history of a loader -/

/-- **Modules of two names have no package in common.** -/
theorem OwningLoader.disjoint (h : m.OwningLoader l) {id other : ModuleId}
    (hid : id ∈ l.modules.values) (hother : other ∈ l.modules.values)
    (hne : (m.moduleAt id).name ≠ (m.moduleAt other).name) :
    ∀ p ∈ (m.moduleAt id).packages, p ∉ (m.moduleAt other).packages := by
  have hclaimed : ∀ {id}, id ∈ l.modules.values → ∀ p ∈ (m.moduleAt id).packages,
      ∃ owner, l.packages.get? p = some owner ∧
        (m.moduleAt owner).name = (m.moduleAt id).name := by
    intro id hid p hp
    obtain ⟨⟨name, _⟩, hentry, rfl⟩ := List.mem_map.1 hid
    have hget := (Table.mem_entries_iff h.ascending.1).1 hentry
    rw [(h.named name _ hget).2]
    exact h.claimed name _ hget p hp
  intro p hp hp'
  obtain ⟨owner, howner, hname⟩ := hclaimed hid p hp
  obtain ⟨owner', howner', hname'⟩ := hclaimed hother p hp'
  obtain rfl := Option.some.inj (howner.symm.trans howner')
  exact hne (hname.symm.trans hname')

/-- **The owners of the packages over all calls.** Let `s` be any machine that calls about modules
reach. A package with an owner of a name has an owner of that name after any further calls. A module
is refused exactly if one of its packages has an owner of another name, and then the fault is that
conflict, and the machine is left as it is, with the tables of the loader and the loader of the
module. And modules of two names that a loader has have no package in common. -/
theorem ownership_permanent (h : m.Moduleless) (hpaired : m.platform = none → m.system = none)
    (calls : List ModuleCall) {s : Machine} (hs : s = m.moduleCalls calls) (kind : LoaderKind) :
    (∀ later p n, s.OwnedBy kind p n → (s.moduleCalls later).OwnedBy kind p n) ∧
    ∀ l, s.loader? kind = some l →
      (∀ id < s.modules.size,
        ((∃ failure, s.defineModule kind id = .error failure) ↔
          ∃ p ∈ (s.moduleAt id).packages, ∃ n, s.OwnedBy kind p n ∧ n ≠ (s.moduleAt id).name) ∧
        ∀ failure, s.defineModule kind id = .error failure →
          (∃ fault, failure = .fault fault ∧ fault.kinds = [.packageConflict]) ∧
          s.moduleCall (.link kind id) = s) ∧
      ∀ id ∈ l.modules.values, ∀ other ∈ l.modules.values,
        (s.moduleAt id).name ≠ (s.moduleAt other).name →
        ∀ p ∈ (s.moduleAt id).packages, p ∉ (s.moduleAt other).packages := by
  have howning : s.Owning := hs ▸ ((h.owning hpaired).moduleCalls calls).1
  refine ⟨fun later p n howned => (howning.moduleCalls later).2 howned, fun l hl =>
    ⟨fun id hid => ⟨defineModule_eq_error_iff hl, fun failure hrefused => ⟨?_, ?_⟩⟩,
      fun id hid other hother hne => (howning.loaders kind l hl).disjoint hid hother hne⟩⟩
  · obtain ⟨p, -, n, -, -, rfl⟩ := of_defineModule_eq_error hl hrefused
    exact ⟨_, rfl, rfl⟩
  · rw [moduleCall, if_pos hid, hrefused]

/-- A package stays with the name of a module that has been replaced by one without it, so that a
module of another name is refused, and linked without the package. -/
def contestedCalls : List ModuleCall :=
  [.make "core.sql" ["p"], .link .boot 0, .make "core.sql" ["q"], .link .boot 1,
    .make "core.log" ["p"], .link .boot 2, .make "core.log" ["r"], .link .boot 3]

theorem ownership_permanent_contestedCalls :
    (∀ later, ((Machine.new.moduleCalls contestedCalls).moduleCalls later).OwnedBy .boot "p"
      "core.sql") ∧
    (∃ failure, (Machine.new.moduleCalls contestedCalls).defineModule .boot 2 = .error failure) ∧
    (Machine.new.moduleCalls contestedCalls).boot.modules.values = [3, 1] ∧
    ("r" : Text) ∈ ((Machine.new.moduleCalls contestedCalls).moduleAt 3).packages ∧
    ("r" : Text) ∉ ((Machine.new.moduleCalls contestedCalls).moduleAt 1).packages := by
  generalize hs : Machine.new.moduleCalls contestedCalls = s
  obtain ⟨howner, hsize, hvalues, hp, hr⟩ :
      s.boot.packages.get? "p" = some 0 ∧ s.modules.size = 4 ∧ s.boot.modules.values = [3, 1] ∧
      ("p" : Text) ∈ (s.moduleAt 2).packages ∧ ("r" : Text) ∈ (s.moduleAt 3).packages := by
    subst hs
    decide +kernel
  obtain ⟨hname₀, hname₁, hname₂, hname₃⟩ :
      (s.moduleAt 0).name = "core.sql" ∧ (s.moduleAt 1).name = "core.sql" ∧
      (s.moduleAt 2).name = "core.log" ∧ (s.moduleAt 3).name = "core.log" := by
    subst hs
    decide +kernel
  have howned : s.OwnedBy .boot "p" "core.sql" := ⟨_, 0, rfl, howner, hname₀⟩
  obtain ⟨hkept, hloader⟩ :=
    ownership_permanent moduleless_new (fun _ => rfl) contestedCalls hs.symm .boot
  obtain ⟨hrefused, hdisjoint⟩ := hloader s.boot rfl
  refine ⟨fun later => hkept later _ _ howned, ?_, hvalues, hr, ?_⟩
  · refine (hrefused 2 (by omega)).1.2 ⟨"p", hp, "core.sql", howned, ?_⟩
    rw [hname₂]
    decide
  · refine hdisjoint 3 (by simp [hvalues]) 1 (by simp [hvalues]) ?_ "r" hr
    rw [hname₁, hname₃]
    decide

end Machine

end ClassSharing
