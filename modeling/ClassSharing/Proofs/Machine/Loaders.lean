import ClassSharing.Proofs.Machine.Frame
import ClassSharing.Proofs.Table

/-!
# The tables of the loaders

A loader has two tables: its modules by name, and the owners of its packages. Linking a module
enters it in both. A module may have the name of one that has been linked before; then it takes the
place of the other one in the first table, and in the second one for those packages that it has as
well. The packages that it does not have stay with the module that has been replaced.

So after any calls every module in the table of modules owns all its packages, and every owner of a
package is a module of this loader with this package. But the owner need not be the module that has
its name now: it is exactly if that module has the package too.

## Main definitions

* `Loader.Ascending`: the tables of a loader are in order
* `ModuleCall`, `Machine.moduleCalls`: making modules, making loaders, linking modules to loaders
* `ModuleCall.AtHome`: every module is linked to one loader only
* `Machine.Moduleless`: the start of such calls
* `Machine.Tidy`: what such calls preserve

## Main results

* `Machine.defineModule_eq_ok_iff`: when a module is linked, and what that does
* `Machine.Tidy.moduleCall`, `Machine.Tidy.moduleCalls`: the tables stay tidy
* `Machine.loader_tables_agree`: how far the two tables of a loader agree
-/

namespace ClassSharing

/-! ### The tables of a loader -/

namespace Loader

variable {l : Loader} {nameOf : ModuleId → Text} {name : Text} {packages : List Text}

theorem conflict?_eq_none_iff : l.conflict? nameOf name packages = none ↔
    ∀ p ∈ packages, ∀ owner, l.packages.get? p = some owner → nameOf owner = name := by
  induction packages with
  | nil => simp [conflict?]
  | cons p rest ih =>
    rw [conflict?, List.forall_mem_cons]
    cases hget : l.packages.get? p with
    | none => simp [ih]
    | some owner =>
      by_cases howner : nameOf owner = name
      · simp [howner, ih]
      · simp [howner]

theorem get?_modules_enter (l : Loader) (id : ModuleId) (name : Text) (packages : List Text)
    (other : Text) : (l.enter id name packages).modules.get? other
      = if other = name then some id else l.modules.get? other :=
  Table.get?_insert l.modules name other id

theorem get?_packages_enter (l : Loader) (id : ModuleId) (name : Text) (packages : List Text)
    (p : Text) : (l.enter id name packages).packages.get? p
      = if p ∈ packages then some id else l.packages.get? p := by
  have hfold : ∀ t : Table ModuleId, (packages.foldl (fun t p => t.insert p id) t).get? p
      = if p ∈ packages then some id else t.get? p := by
    induction packages with
    | nil => simp
    | cons first rest ih =>
      intro t
      rw [List.foldl_cons, ih, Table.get?_insert]
      by_cases hrest : p ∈ rest
      · simp [hrest]
      · simp [hrest]
  exact hfold l.packages

/-- The tables of a loader are in order. -/
def Ascending (l : Loader) : Prop := l.modules.Ascending ∧ l.packages.Ascending

theorem ascending_empty : empty.Ascending := ⟨Table.ascending_empty, Table.ascending_empty⟩

theorem Ascending.enter (h : l.Ascending) (id : ModuleId) (name : Text) (packages : List Text) :
    (l.enter id name packages).Ascending := by
  have hfold : ∀ t : Table ModuleId, t.Ascending →
      (packages.foldl (fun t p => t.insert p id) t).Ascending := by
    induction packages with
    | nil => exact fun t ht => ht
    | cons p rest ih => exact fun t ht => ih _ (Table.ascending_insert ht p id)
  exact ⟨Table.ascending_insert h.1 name id, hfold _ h.2⟩

end Loader

/-! ### Calls about modules -/

/-- A call about modules. -/
inductive ModuleCall where
  /-- Makes a module. -/
  | make (name : Text) (packages : List Text)
  /-- Makes the platform and the system loader. -/
  | load
  /-- Links a module to a loader. -/
  | link (kind : LoaderKind) (id : ModuleId)
deriving DecidableEq

/-- Every module is linked to one loader only, its home. -/
def ModuleCall.AtHome (home : ModuleId → LoaderKind) : ModuleCall → Prop
  | .link kind id => home id = kind
  | _ => True

instance (home : ModuleId → LoaderKind) : DecidablePred (ModuleCall.AtHome home)
  | .make _ _ => isTrue trivial
  | .load => isTrue trivial
  | .link kind id => inferInstanceAs (Decidable (home id = kind))

namespace Machine

/-- The machine after a call. A module that has not been made cannot be linked, and one that is
refused changes nothing. -/
def moduleCall (m : Machine) : ModuleCall → Machine
  | .make name packages => (m.addModule name packages).2
  | .load => m.createLoaders
  | .link kind id =>
    if id < m.modules.size then
      match m.defineModule kind id with
      | .ok m' => m'
      | .error _ => m
    else m

/-- The machine after calls. -/
def moduleCalls (m : Machine) (calls : List ModuleCall) : Machine := calls.foldl moduleCall m

/-- No module has been made, and every loader is empty. -/
structure Moduleless (m : Machine) : Prop where
  modules : m.modules = #[]
  loaders : ∀ kind l, m.loader? kind = some l → l = Loader.empty

theorem moduleless_new : Machine.new.Moduleless where
  modules := rfl
  loaders kind l hl := by
    cases kind with
    | boot => exact (Option.some.inj hl).symm
    | platform => cases hl
    | system => cases hl

/-! ### Looking at modules and loaders -/

variable {m m' : Machine} {kind other : LoaderKind} {l : Loader} {id : ModuleId}

theorem loader?_setLoader (m : Machine) (kind other : LoaderKind) (l : Loader) :
    (m.setLoader kind l).loader? other = if other = kind then some l else m.loader? other := by
  cases kind <;> cases other <;> rfl

/-- Loaders that are made are empty. -/
theorem loader?_createLoaders (h : m.createLoaders.loader? kind = some l) :
    m.loader? kind = some l ∨ l = Loader.empty := by
  cases hplatform : m.platform with
  | some old =>
    rw [createLoaders, hplatform] at h
    exact .inl h
  | none =>
    rw [createLoaders, hplatform] at h
    cases kind with
    | boot => exact .inl h
    | platform => exact .inr (Option.some.inj h).symm
    | system => exact .inr (Option.some.inj h).symm

theorem modules_createLoaders (m : Machine) : m.createLoaders.modules = m.modules := by
  rw [createLoaders]
  split <;> rfl

theorem moduleAt_createLoaders (m : Machine) (id : ModuleId) :
    m.createLoaders.moduleAt id = m.moduleAt id := by
  rw [moduleAt, moduleAt, modules_createLoaders]

theorem moduleAt_addModule (m : Machine) (name : Text) (packages : List Text) (id : ModuleId) :
    (m.addModule name packages).2.moduleAt id
      = if id = m.modules.size then Module.unlinked name packages else m.moduleAt id := by
  rw [addModule, moduleAt, moduleAt, Array.getElem?_push]
  split <;> rfl

/-- The machine with a module in the tables of a loader. -/
def linking (m : Machine) (kind : LoaderKind) (l : Loader) (id : ModuleId) : Machine :=
  { m with modules := m.modules.modify id fun x => { x with loader := some kind } }.setLoader kind
    (l.enter id (m.moduleAt id).name (m.moduleAt id).packages)

/-- **A module is linked** if no package of it has an owner of another name. -/
theorem defineModule_eq_ok_iff : m.defineModule kind id = .ok m' ↔
    ∃ l, m.loader? kind = some l ∧
      (∀ p ∈ (m.moduleAt id).packages, ∀ owner, l.packages.get? p = some owner →
        (m.moduleAt owner).name = (m.moduleAt id).name) ∧
      m' = m.linking kind l id := by
  rw [defineModule]
  cases m.loader? kind with
  | none => simp
  | some l =>
    simp only [Option.some.injEq, exists_eq_left', ← Loader.conflict?_eq_none_iff]
    cases l.conflict? (fun i => (m.moduleAt i).name) (m.moduleAt id).name
      (m.moduleAt id).packages with
    | some found => simp
    | none => simp [linking, eq_comm]

theorem loader?_linking (m : Machine) (kind other : LoaderKind) (l : Loader) (id : ModuleId) :
    (m.linking kind l id).loader? other
      = if other = kind then some (l.enter id (m.moduleAt id).name (m.moduleAt id).packages)
        else m.loader? other := by
  rw [linking, loader?_setLoader]
  cases other <;> rfl

theorem modules_linking (m : Machine) (kind : LoaderKind) (l : Loader) (id : ModuleId) :
    (m.linking kind l id).modules
      = m.modules.modify id fun x => { x with loader := some kind } := by
  cases kind <;> rfl

theorem moduleAt_linking (m : Machine) (kind : LoaderKind) (l : Loader) (id other : ModuleId) :
    (m.linking kind l id).moduleAt other
      = if other = id ∧ id < m.modules.size then { m.moduleAt other with loader := some kind }
        else m.moduleAt other := by
  rw [moduleAt, modules_linking]
  exact getD_modify m.modules id other _ default

@[simp] theorem name_moduleAt_linking (m : Machine) (kind : LoaderKind) (l : Loader)
    (id other : ModuleId) :
    ((m.linking kind l id).moduleAt other).name = (m.moduleAt other).name := by
  rw [moduleAt_linking]
  split <;> rfl

@[simp] theorem packages_moduleAt_linking (m : Machine) (kind : LoaderKind) (l : Loader)
    (id other : ModuleId) :
    ((m.linking kind l id).moduleAt other).packages = (m.moduleAt other).packages := by
  rw [moduleAt_linking]
  split <;> rfl

@[simp] theorem size_modules_linking (m : Machine) (kind : LoaderKind) (l : Loader)
    (id : ModuleId) : (m.linking kind l id).modules.size = m.modules.size := by
  rw [modules_linking, Array.size_modify]

/-! ### Tidy tables -/

/-- A module is in the list of all modules, and it is linked to a loader. -/
def LinkedTo (m : Machine) (kind : LoaderKind) (id : ModuleId) : Prop :=
  id < m.modules.size ∧ (m.moduleAt id).loader = some kind

/-- The tables of a loader are what linking modules makes of them. -/
structure TidyLoader (m : Machine) (kind : LoaderKind) (l : Loader) : Prop where
  ascending : l.Ascending
  /-- A module is in the table of modules under its own name, -/
  named : ∀ name id, l.modules.get? name = some id →
    m.LinkedTo kind id ∧ (m.moduleAt id).name = name
  /-- and it owns its packages. -/
  owned : ∀ name id, l.modules.get? name = some id →
    ∀ p ∈ (m.moduleAt id).packages, l.packages.get? p = some id
  /-- The owner of a package has it, and there is a module of the name of the owner. -/
  owners : ∀ p id, l.packages.get? p = some id →
    m.LinkedTo kind id ∧ p ∈ (m.moduleAt id).packages ∧
      ∃ current, l.modules.get? (m.moduleAt id).name = some current

/-- The tables of all loaders are tidy, and every module that is linked is linked to its home. -/
structure Tidy (home : ModuleId → LoaderKind) (m : Machine) : Prop where
  loaders : ∀ kind l, m.loader? kind = some l → m.TidyLoader kind l
  atHome : ∀ kind id, (m.moduleAt id).loader = some kind → home id = kind
  sorted : ∀ id, Text.sorted (m.moduleAt id).packages = (m.moduleAt id).packages

theorem tidyLoader_empty (m : Machine) (kind : LoaderKind) : m.TidyLoader kind Loader.empty where
  ascending := Loader.ascending_empty
  named _ _ h := by cases h
  owned _ _ h := by cases h
  owners _ _ h := by cases h

variable {home : ModuleId → LoaderKind}

theorem Moduleless.tidy (h : m.Moduleless) : m.Tidy home := by
  have hdefault : ∀ id, m.moduleAt id = default := by
    intro id
    rw [moduleAt, h.modules]
    rfl
  refine ⟨fun kind l hl => ?_, fun kind id hid => ?_, fun id => ?_⟩
  · rw [h.loaders kind l hl]
    exact tidyLoader_empty m kind
  · rw [hdefault] at hid
    cases hid
  · rw [hdefault]
    exact List.mergeSort_nil

/-- Modules that are made are in nobody's table. -/
theorem TidyLoader.of_moduleAt_eq (h : m.TidyLoader kind l)
    (hsize : m.modules.size ≤ m'.modules.size)
    (hmodule : ∀ id < m.modules.size, m'.moduleAt id = m.moduleAt id) : m'.TidyLoader kind l := by
  have hlinked : ∀ {id}, m.LinkedTo kind id →
      m'.moduleAt id = m.moduleAt id ∧ m'.LinkedTo kind id := by
    rintro id ⟨hlt, hloader⟩
    exact ⟨hmodule id hlt, Nat.lt_of_lt_of_le hlt hsize, by rw [hmodule id hlt, hloader]⟩
  refine ⟨h.ascending, fun name id hid => ?_, fun name id hid => ?_, fun p id hid => ?_⟩
  · obtain ⟨hto, hname⟩ := h.named name id hid
    obtain ⟨heq, hto'⟩ := hlinked hto
    exact ⟨hto', by rw [heq, hname]⟩
  · rw [(hlinked (h.named name id hid).1).1]
    exact h.owned name id hid
  · obtain ⟨hto, hp, hcurrent⟩ := h.owners p id hid
    obtain ⟨heq, hto'⟩ := hlinked hto
    rw [heq]
    exact ⟨hto', hp, hcurrent⟩

/-- A module becomes a module of the loader that it is linked to, and of no other one. -/
theorem LinkedTo.linking {id' : ModuleId} (h : m.LinkedTo other id')
    (hhome : id' = id → other = kind) : (m.linking kind l id).LinkedTo other id' := by
  refine ⟨by rw [size_modules_linking]; exact h.1, ?_⟩
  rw [moduleAt_linking]
  split
  · rename_i heq
    rw [hhome heq.1]
  · exact h.2

/-- The tables of another loader. -/
theorem TidyLoader.linking_other (h : m.TidyLoader other l) {l' : Loader}
    (hnot : ¬ m.LinkedTo other id) :
    (m.linking kind l' id).TidyLoader other l := by
  have hlinked : ∀ {id'}, m.LinkedTo other id' → (m.linking kind l' id).LinkedTo other id' := by
    intro id' hto
    refine hto.linking ?_
    rintro rfl
    exact absurd hto hnot
  refine ⟨h.ascending, fun name id' hid => ?_, fun name id' hid => ?_, fun p id' hid => ?_⟩
  · rw [name_moduleAt_linking]
    exact (h.named name id' hid).imp_left hlinked
  · rw [packages_moduleAt_linking]
    exact h.owned name id' hid
  · rw [name_moduleAt_linking, packages_moduleAt_linking]
    exact (h.owners p id' hid).imp_left hlinked

/-- The tables of the loader that a module is linked to. -/
theorem TidyLoader.linking (h : m.TidyLoader kind l) (hid : id < m.modules.size)
    (hfree : ∀ p ∈ (m.moduleAt id).packages, ∀ owner, l.packages.get? p = some owner →
      (m.moduleAt owner).name = (m.moduleAt id).name) :
    (m.linking kind l id).TidyLoader kind
      (l.enter id (m.moduleAt id).name (m.moduleAt id).packages) := by
  have hlinked : ∀ {id'}, m.LinkedTo kind id' → (m.linking kind l id).LinkedTo kind id' :=
    fun hto => hto.linking fun _ => rfl
  have hself : (m.linking kind l id).LinkedTo kind id := by
    refine ⟨by rw [size_modules_linking]; exact hid, ?_⟩
    rw [moduleAt_linking, if_pos ⟨rfl, hid⟩]
  refine ⟨h.ascending.enter _ _ _, fun name id' hget => ?_, fun name id' hget => ?_,
    fun p id' hget => ?_⟩
  · rw [Loader.get?_modules_enter] at hget
    rw [name_moduleAt_linking]
    split at hget
    · rename_i hname
      obtain rfl := Option.some.inj hget
      exact ⟨hself, hname.symm⟩
    · exact (h.named name id' hget).imp_left hlinked
  · rw [Loader.get?_modules_enter] at hget
    rw [packages_moduleAt_linking]
    intro p hp
    rw [Loader.get?_packages_enter]
    split at hget
    · obtain rfl := Option.some.inj hget
      rw [if_pos hp]
    · rename_i hname
      -- A package of both would be owned by a module of another name.
      have howner := h.owned name id' hget p hp
      have hnot : p ∉ (m.moduleAt id).packages := fun hmem =>
        hname ((h.named name id' hget).2.symm.trans (hfree p hmem id' howner))
      rw [if_neg hnot, howner]
  · rw [Loader.get?_packages_enter] at hget
    rw [name_moduleAt_linking, packages_moduleAt_linking, Loader.get?_modules_enter]
    split at hget
    · rename_i hp
      obtain rfl := Option.some.inj hget
      exact ⟨hself, hp, id, if_pos rfl⟩
    · obtain ⟨hto, hp, hcurrent⟩ := h.owners p id' hget
      refine ⟨hlinked hto, hp, ?_⟩
      split
      · exact ⟨id, rfl⟩
      · exact hcurrent

theorem Tidy.linking (h : m.Tidy home) (hl : m.loader? kind = some l) (hhome : home id = kind)
    (hid : id < m.modules.size)
    (hfree : ∀ p ∈ (m.moduleAt id).packages, ∀ owner, l.packages.get? p = some owner →
      (m.moduleAt owner).name = (m.moduleAt id).name) : (m.linking kind l id).Tidy home := by
  refine ⟨fun other l' hl' => ?_, fun other id' hid' => ?_, fun id' => ?_⟩
  · rw [loader?_linking] at hl'
    split at hl'
    · rename_i hother
      subst hother
      obtain rfl := Option.some.inj hl'
      exact (h.loaders _ l hl).linking hid hfree
    · rename_i hother
      refine (h.loaders other l' hl').linking_other fun hto => hother ?_
      exact (h.atHome other id hto.2).symm.trans hhome
  · rw [moduleAt_linking] at hid'
    split at hid'
    · rename_i heq
      rw [heq.1, hhome]
      exact Option.some.inj hid'
    · exact h.atHome other id' hid'
  · rw [packages_moduleAt_linking]
    exact h.sorted id'

/-- **The tables stay tidy** in a call, -/
theorem Tidy.moduleCall (h : m.Tidy home) {call : ModuleCall} (hcall : call.AtHome home) :
    (m.moduleCall call).Tidy home := by
  cases call with
  | make name packages =>
    have hmodule := moduleAt_addModule m name packages
    refine ⟨fun kind l hl => ?_, fun kind id hid => ?_, fun id => ?_⟩
    · have hloader : (m.addModule name packages).2.loader? kind = m.loader? kind := by
        cases kind <;> rfl
      refine (h.loaders kind l (hloader.symm.trans hl)).of_moduleAt_eq ?_ fun id hid => ?_
      · exact (Array.size_push _).symm ▸ Nat.le_succ _
      · exact (hmodule id).trans (if_neg (Nat.ne_of_lt hid))
    · rw [Machine.moduleCall, hmodule] at hid
      split at hid
      · cases hid
      · exact h.atHome kind id hid
    · rw [Machine.moduleCall, hmodule]
      split
      · exact Text.sorted_sorted packages
      · exact h.sorted id
  | load =>
    have hmodule := moduleAt_createLoaders m
    refine ⟨fun kind l hl => ?_, fun kind id hid => ?_, fun id => ?_⟩
    · rcases loader?_createLoaders hl with hl | rfl
      · exact (h.loaders kind l hl).of_moduleAt_eq
          (Nat.le_of_eq (congrArg Array.size (modules_createLoaders m)).symm) fun id _ => hmodule id
      · exact tidyLoader_empty _ kind
    · rw [Machine.moduleCall, hmodule] at hid
      exact h.atHome kind id hid
    · rw [Machine.moduleCall, hmodule]
      exact h.sorted id
  | link kind id =>
    rw [Machine.moduleCall]
    split
    · rename_i hid
      cases hdefine : m.defineModule kind id with
      | error failure => exact h
      | ok m' =>
        obtain ⟨l, hl, hfree, rfl⟩ := defineModule_eq_ok_iff.1 hdefine
        exact h.linking hl hcall hid hfree
    · exact h

/-- and in any calls. -/
theorem Tidy.moduleCalls (h : m.Tidy home) {calls : List ModuleCall}
    (hcalls : ∀ call ∈ calls, call.AtHome home) : (m.moduleCalls calls).Tidy home := by
  induction calls generalizing m with
  | nil => exact h
  | cons call rest ih =>
    obtain ⟨hcall, hrest⟩ := List.forall_mem_cons.1 hcalls
    exact ih (h.moduleCall hcall) hrest

/-! ### Agreement -/

/-- **The tables of a loader after any calls.** The owner of a package is a module of this loader
that has the package, and there is a module under its name. That module is the owner itself exactly
if it has the package, which fails only where a module has been replaced by one with other
packages. Every module in the table of modules is there under its own name, is a module of this
loader, and owns all its packages. -/
theorem loader_tables_agree (h : m.Moduleless) {calls : List ModuleCall}
    (hcalls : ∀ call ∈ calls, call.AtHome home)
    (hl : (m.moduleCalls calls).loader? kind = some l) :
    (∀ p id, l.packages.get? p = some id →
      p ∈ ((m.moduleCalls calls).moduleAt id).packages ∧
      ((m.moduleCalls calls).moduleAt id).loader = some kind ∧
      ∃ current, l.modules.get? ((m.moduleCalls calls).moduleAt id).name = some current ∧
        (current = id ↔ p ∈ ((m.moduleCalls calls).moduleAt current).packages)) ∧
    ∀ id ∈ l.modules.values,
      l.modules.get? ((m.moduleCalls calls).moduleAt id).name = some id ∧
      ((m.moduleCalls calls).moduleAt id).loader = some kind ∧
      ∀ p ∈ ((m.moduleCalls calls).moduleAt id).packages, l.packages.get? p = some id := by
  have htidy := (h.tidy.moduleCalls hcalls).loaders kind l hl
  constructor
  · intro p id howner
    obtain ⟨hto, hp, current, hcurrent⟩ := htidy.owners p id howner
    refine ⟨hp, hto.2, current, hcurrent, fun heq => heq ▸ hp, fun hmem => ?_⟩
    have howner' := htidy.owned _ current hcurrent p hmem
    exact Option.some.inj (howner'.symm.trans howner)
  · intro id hid
    obtain ⟨⟨name, _⟩, hentry, rfl⟩ := List.mem_map.1 hid
    have hget := (Table.mem_entries_iff htidy.ascending.1).1 hentry
    obtain ⟨hto, hname⟩ := htidy.named name _ hget
    exact ⟨hname.symm ▸ hget, hto.2, htidy.owned name _ hget⟩

/-- A module is replaced by one of its name that has another package. -/
def replacingCalls : List ModuleCall :=
  [.make "core.sql" ["p"], .link .boot 0, .make "core.sql" ["q"], .link .boot 1]

theorem loader_tables_agree_replacingCalls :
    (∀ call ∈ replacingCalls, call.AtHome fun _ => .boot) ∧
      ∃ l, (Machine.new.moduleCalls replacingCalls).loader? .boot = some l ∧
        l.packages.get? "p" = some 0 ∧
        ("p" : Text) ∈ ((Machine.new.moduleCalls replacingCalls).moduleAt 0).packages ∧
        l.packages.get? "q" = some 1 := by
  have hcalls : ∀ call ∈ replacingCalls, call.AtHome fun _ => .boot := by decide
  obtain ⟨hp, hmem, hq⟩ : (Machine.new.moduleCalls replacingCalls).boot.packages.get? "p" = some 0 ∧
      1 ∈ (Machine.new.moduleCalls replacingCalls).boot.modules.values ∧
      ("q" : Text) ∈ ((Machine.new.moduleCalls replacingCalls).moduleAt 1).packages := by
    decide +kernel
  have hboot : (Machine.new.moduleCalls replacingCalls).loader? .boot
      = some (Machine.new.moduleCalls replacingCalls).boot := rfl
  obtain ⟨howners, hmodules⟩ := loader_tables_agree moduleless_new hcalls hboot
  exact ⟨hcalls, _, hboot, hp, (howners "p" 0 hp).1, (hmodules 1 hmem).2.2 "q" hq⟩

/-- The module that has been replaced still owns its package, and the module of its name, which does
not have the package, is another one. -/
theorem stale_owner_replacingCalls :
    (Machine.new.moduleCalls replacingCalls).boot.packages.get? "p" = some 0 ∧
      ((Machine.new.moduleCalls replacingCalls).moduleAt 0).name = "core.sql" ∧
      (Machine.new.moduleCalls replacingCalls).boot.modules.get? "core.sql" = some 1 ∧
      ("p" : Text) ∉ ((Machine.new.moduleCalls replacingCalls).moduleAt 1).packages := by
  decide +kernel

end Machine

end ClassSharing
