import ClassSharing.Library.Basic
import ClassSharing.Proofs.Image.Codec
import ClassSharing.Image.Writer
import ClassSharing.Proofs.Machine.Loaders
import ClassSharing.Proofs.Session.Effect
import Mathlib.Data.List.Nodup

/-!
# Linking modules

A loader has a module of a name at most once, and a package at most one owner. So the tables of the
loaders are determined by the set of the modules that have been linked, and modules that do not get
in each other's way can be linked in any order, with the same tables at the end.

Linking the modules of a graph skips a module if its loader has one of that name. If nothing is
refused on the way, the modules that are linked at the end do not get in each other's way.

## Main definitions

* `Machine.modulesOf`, `Machine.ownersOf`: the modules of a loader, and the owners of its packages
* `Machine.Linked`: the tables of the loaders are the ones of some modules
* `ModuleSpec.Compatible`: two modules do not get in each other's way
* `Library.linkNew`: the linked modules, with another one if it is new

## Main results

* `Machine.Linked.exists_linkModule`: a module that gets in nobody's way is linked
* `Machine.Linked.tables_eq`: the same modules give the same tables
* `Machine.Linked.exists_linkModules`: archived modules are linked in any order
* `Machine.Linked.allModules_perm`: the modules of all loaders are the linked ones
* `Library.exists_of_defineEach`: what has been linked if no module of the graph was refused
-/

namespace ClassSharing

open Image Session

/-! ### Modules and their specifications -/

namespace ModuleSpec

/-- The module with its packages sorted. -/
def sorted (spec : ModuleSpec) : ModuleSpec := { spec with packages := Text.sorted spec.packages }

/-- The packages are sorted. -/
def IsSorted (spec : ModuleSpec) : Prop := Text.sorted spec.packages = spec.packages

theorem isSorted_sorted (spec : ModuleSpec) : spec.sorted.IsSorted :=
  Text.sorted_sorted spec.packages

/-- The module once it is linked. -/
def linked (spec : ModuleSpec) : Module := ⟨spec.name, spec.packages, some spec.loader⟩

/-- The record of the module. -/
def record (spec : ModuleSpec) : ModuleRecord :=
  ⟨spec.name, spec.loader.name, presentList spec.packages⟩

theorem linked_injective : Function.Injective linked := by
  rintro ⟨name, loader, packages⟩ ⟨name', loader', packages'⟩ h
  simp only [linked, Module.mk.injEq, Option.some.injEq] at h
  obtain ⟨rfl, rfl, rfl⟩ := h
  rfl

/-- Two modules have the same name on the same loader. -/
def Same (a b : ModuleSpec) : Prop := a.loader = b.loader ∧ a.name = b.name

instance (a b : ModuleSpec) : Decidable (Same a b) := inferInstanceAs (Decidable (_ ∧ _))

/-- Two modules do not get in each other's way: on one loader they have different names and no
package in common. -/
def Compatible (a b : ModuleSpec) : Prop :=
  a.loader = b.loader → a.name ≠ b.name ∧ ∀ p ∈ a.packages, p ∉ b.packages

instance : DecidableRel Compatible := fun a b =>
  inferInstanceAs (Decidable (a.loader = b.loader → a.name ≠ b.name ∧
    ∀ p ∈ a.packages, p ∉ b.packages))

theorem Compatible.symm {a b : ModuleSpec} (h : Compatible a b) : Compatible b a := by
  intro hloader
  obtain ⟨hname, hpackages⟩ := h hloader.symm
  exact ⟨hname.symm, fun p hb ha => hpackages p ha hb⟩

theorem Compatible.not_same {a b : ModuleSpec} (h : Compatible a b) : ¬ Same a b :=
  fun hsame => (h hsame.1).1 hsame.2

end ModuleSpec

namespace Machine

/-! ### What has been linked -/

/-- The modules of a loader by name, if it has been created. -/
def modulesOf (m : Machine) (kind : LoaderKind) : Option (Table Module) :=
  (m.loader? kind).map fun l => l.modules.map m.moduleAt

/-- The packages of a loader with the names of the modules that own them. -/
def ownersOf (m : Machine) (kind : LoaderKind) : Option (Table Text) :=
  (m.loader? kind).map fun l => l.packages.map fun id => (m.moduleAt id).name

/-- A table leads to the modules of a loader: to a module from every key that it has. -/
structure Leads (m : Machine) (t : Table ModuleId) (specs : List ModuleSpec) (kind : LoaderKind)
    (has : ModuleSpec → Text → Prop) : Prop where
  ascending : t.Ascending
  bounded : ∀ key id, t.get? key = some id → id < m.modules.size
  leads : ∀ key mod, (t.get? key).map m.moduleAt = some mod ↔
    ∃ spec ∈ specs, spec.loader = kind ∧ has spec key ∧ spec.linked = mod

/-- All loaders have been created, and their tables are the ones of some modules. -/
structure Linked (m : Machine) (specs : List ModuleSpec) : Prop where
  created : ∀ kind, ∃ l, m.loader? kind = some l
  modules : ∀ kind l, m.loader? kind = some l →
    m.Leads l.modules specs kind fun spec name => spec.name = name
  owners : ∀ kind l, m.loader? kind = some l →
    m.Leads l.packages specs kind fun spec p => p ∈ spec.packages

/-- Two machines that differ in nothing but their modules and loaders. -/
structure Relinked (m m' : Machine) : Prop where
  classes : m'.classes = m.classes
  names : m'.names = m.names
  objects : m'.objects = m.objects

theorem Relinked.refl (m : Machine) : m.Relinked m := ⟨rfl, rfl, rfl⟩

theorem Relinked.trans {m m' m'' : Machine} (h : m.Relinked m') (h' : m'.Relinked m'') :
    m.Relinked m'' :=
  ⟨h'.classes.trans h.classes, h'.names.trans h.names, h'.objects.trans h.objects⟩

section Linked

variable {m m' : Machine} {specs specs' : List ModuleSpec} {kind : LoaderKind} {l : Loader}
  {spec : ModuleSpec}

theorem Leads.map_eq {t t' : Table ModuleId} {has : ModuleSpec → Text → Prop} {α : Type}
    (h : m.Leads t specs kind has) (h' : m'.Leads t' specs' kind has)
    (hmem : ∀ spec, spec ∈ specs ↔ spec ∈ specs') (f : Module → α) :
    t.map (fun id => f (m.moduleAt id)) = t'.map fun id => f (m'.moduleAt id) := by
  refine Table.eq_of_get?_eq (h.ascending.map _) (h'.ascending.map _) fun key => ?_
  have hmodule : (t.get? key).map m.moduleAt = (t'.get? key).map m'.moduleAt := by
    refine Option.ext fun mod => ?_
    rw [h.leads, h'.leads]
    simp only [hmem]
  have hmap := congrArg (Option.map f) hmodule
  rw [Option.map_map, Option.map_map] at hmap
  rw [Table.get?_map, Table.get?_map]
  exact hmap

/-- **The same modules give the same tables**, in whatever order they have been linked. -/
theorem Linked.tables_eq (h : Linked m specs) (h' : Linked m' specs')
    (hmem : ∀ spec, spec ∈ specs ↔ spec ∈ specs') (kind : LoaderKind) :
    m.modulesOf kind = m'.modulesOf kind ∧ m.ownersOf kind = m'.ownersOf kind := by
  obtain ⟨l, hl⟩ := h.created kind
  obtain ⟨l', hl'⟩ := h'.created kind
  rw [modulesOf, modulesOf, ownersOf, ownersOf, hl, hl']
  constructor
  · exact congrArg some ((h.modules kind l hl).map_eq (h'.modules kind l' hl') hmem id)
  · exact congrArg some ((h.owners kind l hl).map_eq (h'.owners kind l' hl') hmem Module.name)

/-- What has been linked depends on the modules and the loaders alone. -/
theorem Linked.of_linkage_eq (h : Linked m specs) (hlinkage : m'.linkage = m.linkage) :
    Linked m' specs := by
  have hmodules : m'.modules = m.modules := congrArg Prod.fst hlinkage
  have hmoduleAt : m'.moduleAt = m.moduleAt := funext (moduleAt_of_linkage_eq hlinkage)
  have hleads : ∀ {t kind has}, m.Leads t specs kind has → m'.Leads t specs kind has := by
    intro t kind has h
    refine ⟨h.ascending, fun key id hid => ?_, fun key mod => ?_⟩
    · rw [hmodules]
      exact h.bounded key id hid
    · rw [hmoduleAt]
      exact h.leads key mod
  refine ⟨fun kind => ?_, fun kind l hl => ?_, fun kind l hl => ?_⟩
  · rw [loader?_of_linkage_eq hlinkage]
    exact h.created kind
  · rw [loader?_of_linkage_eq hlinkage] at hl
    exact hleads (h.modules kind l hl)
  · rw [loader?_of_linkage_eq hlinkage] at hl
    exact hleads (h.owners kind l hl)

/-- Nothing has been linked to loaders without modules. -/
theorem linked_nil (h : ∀ kind, m.loader? kind = some Loader.empty) : Linked m [] := by
  have hleads : ∀ {kind has}, m.Leads Table.empty [] kind has := by
    intro kind has
    refine ⟨Table.ascending_empty, fun key id hid => ?_, fun key mod => ?_⟩
    · cases hid
    · have hnone : Table.empty.get? key = (none : Option ModuleId) := rfl
      simp [hnone]
  refine ⟨fun kind => ⟨_, h kind⟩, fun kind l hl => ?_, fun kind l hl => ?_⟩
  · rw [h kind] at hl
    obtain rfl := Option.some.inj hl
    exact hleads
  · rw [h kind] at hl
    obtain rfl := Option.some.inj hl
    exact hleads

/-- A loader has a module of a name if one has been linked. -/
theorem Linked.contains_iff (h : Linked m specs) (hl : m.loader? spec.loader = some l) :
    l.modules.contains spec.name = true ↔ ∃ other ∈ specs, other.Same spec := by
  have hleads := (h.modules _ l hl).leads spec.name
  rw [Table.contains, Option.isSome_iff_exists]
  constructor
  · rintro ⟨id, hid⟩
    obtain ⟨other, hmem, hloader, hname, -⟩ :=
      (hleads (m.moduleAt id)).1 (by rw [hid]; rfl)
    exact ⟨other, hmem, hloader, hname⟩
  · rintro ⟨other, hmem, hloader, hname⟩
    obtain ⟨id, hid, -⟩ :=
      Option.map_eq_some_iff.1 ((hleads other.linked).2 ⟨other, hmem, hloader, hname, rfl⟩)
    exact ⟨id, hid⟩

/-! ### Linking one module -/

/-- The machine with a module put in the tables of a loader. -/
def entered (m : Machine) (kind : LoaderKind) (l : Loader) (mod : Module) : Machine :=
  { m with modules := m.modules.push mod }.setLoader kind
    (l.enter m.modules.size mod.name mod.packages)

theorem modify_push {α : Type} (xs : Array α) (x : α) (f : α → α) :
    (xs.push x).modify xs.size f = xs.push (f x) := by
  refine Array.ext_getElem? fun i => ?_
  rw [Array.getElem?_modify, Array.getElem?_push, Array.getElem?_push]
  by_cases hi : i = xs.size
  · simp [hi]
  · simp [hi, Ne.symm hi]

theorem relinked_entered (m : Machine) (kind : LoaderKind) (l : Loader) (mod : Module) :
    m.Relinked (m.entered kind l mod) := by
  cases kind <;> exact ⟨rfl, rfl, rfl⟩

theorem loader?_entered (m : Machine) (kind other : LoaderKind) (l : Loader) (mod : Module) :
    (m.entered kind l mod).loader? other
      = if other = kind then some (l.enter m.modules.size mod.name mod.packages)
        else m.loader? other := by
  rw [entered, loader?_setLoader]
  cases other <;> rfl

theorem modules_entered (m : Machine) (kind : LoaderKind) (l : Loader) (mod : Module) :
    (m.entered kind l mod).modules = m.modules.push mod := by
  cases kind <;> rfl

theorem moduleAt_push_of_lt {mod : Module} (hmodules : m'.modules = m.modules.push mod)
    {id : ModuleId} (hid : id < m.modules.size) : m'.moduleAt id = m.moduleAt id := by
  rw [moduleAt, moduleAt, hmodules, Array.getElem?_push_lt hid, Array.getElem?_eq_getElem hid]

theorem moduleAt_push {mod : Module} (hmodules : m'.modules = m.modules.push mod) :
    m'.moduleAt m.modules.size = mod := by
  rw [moduleAt, hmodules, Array.getElem?_push_size]
  rfl

/-- A module is linked if none of its packages has an owner of another name. -/
theorem linkModule_eq (name : Text) (packages : List Text) (hl : m.loader? kind = some l)
    (hbounded : ∀ p id, l.packages.get? p = some id → id < m.modules.size) :
    (∃ p ∈ Text.sorted packages, ∃ id, l.packages.get? p = some id ∧ (m.moduleAt id).name ≠ name ∧
        ∃ fault, linkModule m kind name packages = .error (.fault fault)) ∨
      (∀ p ∈ Text.sorted packages, ∀ id, l.packages.get? p = some id →
        (m.moduleAt id).name = name) ∧
      linkModule m kind name packages
        = .ok (m.entered kind l ⟨name, Text.sorted packages, some kind⟩) := by
  have hmade : ∀ id, id < m.modules.size →
      (m.addModule name packages).2.moduleAt id = m.moduleAt id :=
    fun id hid => moduleAt_push_of_lt rfl hid
  have hnew : (m.addModule name packages).2.moduleAt m.modules.size
      = Module.unlinked name packages := moduleAt_push rfl
  have hloader : (m.addModule name packages).2.loader? kind = some l := by
    rw [← hl]
    cases kind <;> rfl
  have hdefine : linkModule m kind name packages
      = (m.addModule name packages).2.defineModule kind m.modules.size := rfl
  rw [hdefine, defineModule, hloader, hnew]
  cases hconflict : l.conflict? (fun i => ((m.addModule name packages).2.moduleAt i).name) name
      (Text.sorted packages) with
  | none =>
    refine .inr ⟨fun p hp id hid => ?_, ?_⟩
    · rw [← hmade id (hbounded p id hid)]
      exact Loader.conflict?_eq_none_iff.1 hconflict p hp id hid
    · simp only [Module.unlinked, hconflict]
      rw [entered]
      simp only [addModule, modify_push]
      rfl
  | some found =>
    refine .inl ?_
    have hsome : l.conflict? (fun i => ((m.addModule name packages).2.moduleAt i).name) name
        (Text.sorted packages) ≠ none := by
      rw [hconflict]
      exact Option.some_ne_none found
    rw [Ne, Loader.conflict?_eq_none_iff] at hsome
    push Not at hsome
    obtain ⟨p, hp, id, hid, hother⟩ := hsome
    refine ⟨p, hp, id, hid, ?_, ?_⟩
    · rw [← hmade id (hbounded p id hid)]
      exact hother
    · simp only [Module.unlinked, hconflict]
      exact ⟨_, rfl⟩

/-- A table of the loader of a module that has been entered under keys that were free. -/
theorem Leads.enter {t t' : Table ModuleId} {has : ModuleSpec → Text → Prop}
    [DecidablePred (has spec)] (h : m.Leads t specs spec.loader has)
    (hmodules : m'.modules = m.modules.push spec.linked) (hascending : t'.Ascending)
    (hget : ∀ key, t'.get? key = if has spec key then some m.modules.size else t.get? key)
    (hfree : ∀ other ∈ specs, other.loader = spec.loader →
      ∀ key, has other key → ¬ has spec key) :
    m'.Leads t' (specs ++ [spec]) spec.loader has := by
  refine ⟨hascending, fun key id hid => ?_, fun key mod => ?_⟩
  · rw [hget] at hid
    rw [hmodules, Array.size_push]
    split at hid
    · rw [← Option.some.inj hid]
      exact Nat.lt_succ_self _
    · exact Nat.lt_succ_of_lt (h.bounded key id hid)
  · rw [hget]
    by_cases hkey : has spec key
    · rw [if_pos hkey, Option.map_some, moduleAt_push hmodules, Option.some.injEq]
      constructor
      · rintro rfl
        exact ⟨spec, List.mem_append_right _ List.mem_cons_self, rfl, hkey, rfl⟩
      · rintro ⟨other, hother, hloader, hhas, rfl⟩
        rcases List.mem_append.1 hother with hother | hother
        · exact absurd hkey (hfree other hother hloader key hhas)
        · rw [List.mem_singleton.1 hother]
    · have hold : (t.get? key).map m'.moduleAt = (t.get? key).map m.moduleAt := by
        cases hid : t.get? key with
        | none => rfl
        | some id => exact congrArg some (moduleAt_push_of_lt hmodules (h.bounded key id hid))
      rw [if_neg hkey, hold, h.leads]
      simp [hkey, or_and_right, exists_or]

/-- A table of another loader. -/
theorem Leads.push {t : Table ModuleId} {has : ModuleSpec → Text → Prop}
    (h : m.Leads t specs kind has) (hmodules : m'.modules = m.modules.push spec.linked)
    (hkind : spec.loader ≠ kind) : m'.Leads t (specs ++ [spec]) kind has := by
  refine ⟨h.ascending, fun key id hid => ?_, fun key mod => ?_⟩
  · rw [hmodules, Array.size_push]
    exact Nat.lt_succ_of_lt (h.bounded key id hid)
  · have hold : (t.get? key).map m'.moduleAt = (t.get? key).map m.moduleAt := by
      cases hid : t.get? key with
      | none => rfl
      | some id => exact congrArg some (moduleAt_push_of_lt hmodules (h.bounded key id hid))
    rw [hold, h.leads]
    simp [hkind, or_and_right, exists_or]

/-- The tables after a module has been entered that gets in nobody's way. -/
theorem Linked.entered (h : Linked m specs) (hl : m.loader? spec.loader = some l)
    (hcompatible : ∀ other ∈ specs, other.Compatible spec) :
    Linked (m.entered spec.loader l spec.linked) (specs ++ [spec]) := by
  have hmodules := modules_entered m spec.loader l spec.linked
  have hascending : (l.enter m.modules.size spec.linked.name spec.linked.packages).Ascending :=
    Loader.Ascending.enter ⟨(h.modules _ l hl).ascending, (h.owners _ l hl).ascending⟩ _ _ _
  refine ⟨fun kind => ?_, fun kind l' hl' => ?_, fun kind l' hl' => ?_⟩
  · rw [loader?_entered]
    split
    · exact ⟨_, rfl⟩
    · exact h.created kind
  · rw [loader?_entered] at hl'
    by_cases hkind : kind = spec.loader
    · subst hkind
      rw [if_pos rfl] at hl'
      obtain rfl := Option.some.inj hl'
      refine (h.modules _ l hl).enter hmodules hascending.1 (fun name => ?_) ?_
      · rw [Loader.get?_modules_enter]
        exact if_congr eq_comm rfl rfl
      · rintro other hother hloader _ rfl
        exact (hcompatible other hother hloader).1.symm
    · rw [if_neg hkind] at hl'
      exact (h.modules kind l' hl').push hmodules (Ne.symm hkind)
  · rw [loader?_entered] at hl'
    by_cases hkind : kind = spec.loader
    · subst hkind
      rw [if_pos rfl] at hl'
      obtain rfl := Option.some.inj hl'
      refine (h.owners _ l hl).enter hmodules hascending.2 (Loader.get?_packages_enter l _ _ _) ?_
      intro other hother hloader
      exact (hcompatible other hother hloader).2
    · rw [if_neg hkind] at hl'
      exact (h.owners kind l' hl').push hmodules (Ne.symm hkind)

/-- **A module that gets in nobody's way is linked.** -/
theorem Linked.exists_linkModule (h : Linked m specs) (hsorted : spec.IsSorted)
    (hcompatible : ∀ other ∈ specs, other.Compatible spec) :
    ∃ m', linkModule m spec.loader spec.name spec.packages = .ok m' ∧
      Linked m' (specs ++ [spec]) ∧ m.Relinked m' := by
  obtain ⟨l, hl⟩ := h.created spec.loader
  have howners := h.owners spec.loader l hl
  rcases linkModule_eq spec.name spec.packages hl howners.bounded with
    ⟨p, hp, id, hid, -⟩ | ⟨-, hlinked⟩
  · obtain ⟨other, hother, hloader, howns, -⟩ :=
      (howners.leads p (m.moduleAt id)).1 (by rw [hid]; rfl)
    rw [hsorted] at hp
    exact absurd hp ((hcompatible other hother hloader).2 p howns)
  · rw [hsorted] at hlinked
    exact ⟨_, hlinked, h.entered hl hcompatible, relinked_entered m spec.loader l spec.linked⟩

/-- A module that has been linked under a new name gets in nobody's way. -/
theorem Linked.compatible_of_linkModule (h : Linked m specs) (hsorted : spec.IsSorted)
    (hnew : ∀ other ∈ specs, ¬ other.Same spec)
    (hlinked : linkModule m spec.loader spec.name spec.packages = .ok m') :
    ∀ other ∈ specs, other.Compatible spec := by
  obtain ⟨l, hl⟩ := h.created spec.loader
  have howners := h.owners spec.loader l hl
  intro other hother hloader
  have hname : other.name ≠ spec.name := fun hname => hnew other hother ⟨hloader, hname⟩
  refine ⟨hname, fun p hp hspec => ?_⟩
  rcases linkModule_eq spec.name spec.packages hl howners.bounded with
    ⟨-, -, -, -, -, fault, hfault⟩ | ⟨hfree, -⟩
  · rw [hlinked] at hfault
    cases hfault
  · obtain ⟨id, hid, hmod⟩ :=
      Option.map_eq_some_iff.1 ((howners.leads p other.linked).2 ⟨other, hother, hloader, hp, rfl⟩)
    have howner := hfree p (by rw [hsorted]; exact hspec) id hid
    rw [hmod] at howner
    exact hname howner

/-! ### Archived modules -/

/-- **Archived modules that do not get in each other's way are linked**, in any order. -/
theorem Linked.exists_linkModules {rest : List ModuleSpec} (h : Linked m specs)
    (hsorted : ∀ spec ∈ rest, spec.IsSorted)
    (hcompatible : (specs ++ rest).Pairwise ModuleSpec.Compatible) :
    ∃ m', linkModules .platform .system m (rest.map ModuleSpec.record) = ([], m') ∧
      Linked m' (specs ++ rest) ∧ m.Relinked m' := by
  induction rest generalizing m specs with
  | nil => exact ⟨m, rfl, by rw [List.append_nil]; exact h, .refl m⟩
  | cons spec rest ih =>
    obtain ⟨hspec, hrest⟩ := List.forall_mem_cons.1 hsorted
    have hfirst : ∀ other ∈ specs, other.Compatible spec := fun other hother =>
      (List.pairwise_append.1 hcompatible).2.2 other hother spec List.mem_cons_self
    obtain ⟨m₁, hlink, hlinked, hrelinked⟩ := h.exists_linkModule hspec hfirst
    rw [← List.singleton_append, ← List.append_assoc] at hcompatible ⊢
    obtain ⟨m₂, hothers, hlinked₂, hrelinked₂⟩ := ih hlinked hrest hcompatible
    refine ⟨m₂, ?_, hlinked₂, hrelinked.trans hrelinked₂⟩
    have hloader : moduleLoader .platform .system spec.record = .ok spec.loader := by
      have hname : spec.record.loader = spec.loader.name := rfl
      rw [moduleLoader, hname, LoaderKind.ofName_name]
      cases spec.loader <;> rfl
    have hpackages : spec.record.packages.getD [] = spec.packages := getD_presentList _
    have hlink' : linkModule m spec.loader spec.record.name spec.packages = .ok m₁ := hlink
    rw [List.map_append, List.map_singleton, List.singleton_append, linkModules, hloader,
      hpackages]
    simp only [hlink']
    exact hothers

/-- The modules in the table of a loader. -/
def linkedTo (m : Machine) (kind : LoaderKind) : List Module :=
  ((m.loader? kind).map fun l => l.modules.values.map m.moduleAt).getD []

theorem map_allModules (m : Machine) :
    m.allModules.map m.moduleAt = LoaderKind.all.flatMap m.linkedTo := by
  rw [allModules, List.map_flatMap]
  congr 1
  funext kind
  rw [linkedTo]
  cases m.loader? kind <;> rfl

theorem Linked.mem_linkedTo (h : Linked m specs) {mod : Module} :
    mod ∈ m.linkedTo kind ↔ ∃ spec ∈ specs, spec.loader = kind ∧ spec.linked = mod := by
  obtain ⟨l, hl⟩ := h.created kind
  have hmodules := h.modules kind l hl
  rw [linkedTo, hl]
  simp only [Option.map_some, Option.getD_some, Table.values, List.map_map, List.mem_map,
    Function.comp_apply, Prod.exists, Table.mem_entries_iff hmodules.ascending]
  constructor
  · rintro ⟨name, id, hid, hmod⟩
    obtain ⟨spec, hspec, hloader, -, hlinked⟩ :=
      (hmodules.leads name mod).1 (by rw [hid, Option.map_some, hmod])
    exact ⟨spec, hspec, hloader, hlinked⟩
  · rintro ⟨spec, hspec, hloader, hlinked⟩
    obtain ⟨id, hid, hmod⟩ := Option.map_eq_some_iff.1
      ((hmodules.leads spec.name mod).2 ⟨spec, hspec, hloader, rfl, hlinked⟩)
    exact ⟨spec.name, id, hid, hmod⟩

theorem Linked.nodup_linkedTo (h : Linked m specs) (kind : LoaderKind) :
    (m.linkedTo kind).Nodup := by
  obtain ⟨l, hl⟩ := h.created kind
  have hmodules := h.modules kind l hl
  have hnames : (l.modules.values.map m.moduleAt).map Module.name
      = l.modules.entries.map Prod.fst := by
    rw [Table.values, List.map_map, List.map_map]
    refine List.map_congr_left fun entry hentry => ?_
    have hid := (Table.mem_entries_iff hmodules.ascending).1 hentry
    obtain ⟨spec, -, -, hname, hlinked⟩ :=
      (hmodules.leads entry.1 (m.moduleAt entry.2)).1 (by rw [hid]; rfl)
    rw [Function.comp_apply, Function.comp_apply, ← hlinked, ← hname]
    rfl
  rw [linkedTo, hl]
  refine List.Nodup.of_map Module.name ?_
  rw [Option.map_some, Option.getD_some, hnames]
  exact List.pairwise_map.2 (hmodules.ascending.imp Text.ne_of_precedes)

/-- **The modules of all loaders are the linked ones.** -/
theorem Linked.allModules_perm (h : Linked m specs)
    (hcompatible : specs.Pairwise ModuleSpec.Compatible) :
    (m.allModules.map m.moduleAt).Perm (specs.map ModuleSpec.linked) := by
  have hspecs : (specs.map ModuleSpec.linked).Nodup := by
    refine List.Nodup.map ModuleSpec.linked_injective ?_
    exact hcompatible.imp fun hab heq => hab.not_same ⟨by rw [heq], by rw [heq]⟩
  rw [map_allModules]
  refine (List.perm_ext_iff_of_nodup ?_ hspecs).2 fun mod => ?_
  · refine List.nodup_flatMap.2 ⟨fun kind _ => h.nodup_linkedTo kind, ?_⟩
    refine (by decide : LoaderKind.all.Pairwise (· ≠ ·)).imp ?_
    intro kind kind' hne mod hkind hkind'
    obtain ⟨spec, -, rfl, rfl⟩ := h.mem_linkedTo.1 hkind
    obtain ⟨spec', -, rfl, hlinked⟩ := h.mem_linkedTo.1 hkind'
    exact hne (congrArg ModuleSpec.loader (ModuleSpec.linked_injective hlinked)).symm
  · rw [List.mem_flatMap, List.mem_map]
    constructor
    · rintro ⟨kind, -, hkind⟩
      obtain ⟨spec, hspec, -, hlinked⟩ := h.mem_linkedTo.1 hkind
      exact ⟨spec, hspec, hlinked⟩
    · rintro ⟨spec, hspec, hlinked⟩
      refine ⟨spec.loader, by cases spec.loader <;> decide, ?_⟩
      exact h.mem_linkedTo.2 ⟨spec, hspec, rfl, hlinked⟩

/-- The records of the linked modules are the ones that an archive holds. -/
theorem Linked.records_perm (h : Linked m specs)
    (hcompatible : specs.Pairwise ModuleSpec.Compatible) :
    ((m.allModules.map m.moduleAt).filterMap Writer.moduleRecord?).Perm
      (specs.map ModuleSpec.record) := by
  have hrecords : (specs.map ModuleSpec.linked).filterMap Writer.moduleRecord?
      = specs.map ModuleSpec.record := by
    rw [List.filterMap_map, ← List.filterMap_eq_map]
    rfl
  rw [← hrecords]
  exact (h.allModules_perm hcompatible).filterMap Writer.moduleRecord?

end Linked

end Machine

/-! ### The modules of a graph -/

namespace Library

/-- The modules that have been linked, and another one if none of its name is on its loader. -/
def linkNew (specs : List ModuleSpec) (spec : ModuleSpec) : List ModuleSpec :=
  if ∃ other ∈ specs, other.Same spec then specs else specs ++ [spec]

section Graph

variable {s s' : Session} {specs rest : List ModuleSpec} {spec : ModuleSpec}

theorem prefix_foldl_linkNew (specs rest : List ModuleSpec) :
    specs <+: rest.foldl linkNew specs := by
  induction rest generalizing specs with
  | nil => exact List.prefix_rfl
  | cons spec rest ih =>
    refine List.IsPrefix.trans ?_ (ih (linkNew specs spec))
    rw [linkNew]
    split
    · exact List.prefix_rfl
    · exact List.prefix_append specs [spec]

/-- No other module is linked. -/
theorem mem_of_mem_foldl_linkNew (specs rest : List ModuleSpec) :
    ∀ spec ∈ rest.foldl linkNew specs, spec ∈ specs ∨ spec ∈ rest := by
  induction rest generalizing specs with
  | nil => exact fun _ h => .inl h
  | cons first rest ih =>
    intro spec hspec
    rcases ih (linkNew specs first) spec hspec with hspec | hspec
    · rw [linkNew] at hspec
      split at hspec
      · exact .inl hspec
      · exact (List.mem_append.1 hspec).imp_right fun hfirst => by
          rw [List.mem_singleton.1 hfirst]
          exact List.mem_cons_self
    · exact .inr (List.mem_cons_of_mem _ hspec)

/-- Every module is represented at the end. -/
theorem exists_mem_foldl_linkNew (specs rest : List ModuleSpec) :
    ∀ spec ∈ rest, ∃ other ∈ rest.foldl linkNew specs, other.Same spec := by
  induction rest generalizing specs with
  | nil => simp
  | cons first rest ih =>
    refine List.forall_mem_cons.2 ⟨?_, ih _⟩
    by_cases hold : ∃ other ∈ specs, other.Same first
    · obtain ⟨other, hother, hsame⟩ := hold
      exact ⟨other, (prefix_foldl_linkNew specs (first :: rest)).subset hother, hsame⟩
    · refine ⟨first, (prefix_foldl_linkNew _ rest).subset ?_, rfl, rfl⟩
      show first ∈ linkNew specs first
      rw [linkNew, if_neg hold]
      exact List.mem_append_right _ List.mem_cons_self

theorem defineModule_eq {l : Loader} (hl : s.machine.loader? spec.loader = some l) :
    defineModule (some .platform) (some .system) spec s
      = if l.modules.contains spec.name then (.ok (), s)
        else match linkModule s.machine spec.loader spec.name spec.packages with
          | .ok m => (.ok (), s.withMachine m)
          | .error e => (.error e, s) := by
  obtain ⟨name, loader, packages⟩ := spec
  have hbranch : (if l.modules.contains name then return
      else do Run.setMachine (← Run.ofFailure (linkModule s.machine loader name packages)) :
        Run Unit) s
      = if l.modules.contains name then (.ok (), s)
        else match linkModule s.machine loader name packages with
          | .ok m => (.ok (), s.withMachine m)
          | .error e => (.error e, s) := by
    split
    · rfl
    · cases linkModule s.machine loader name packages <;> rfl
  rw [defineModule, exceptBind_apply (machine_apply s)]
  cases loader <;> simp only [Option.bind_some, hl, Option.map_some] <;> exact hbranch

/-- A module whose loader has one of its name is skipped. -/
theorem defineModule_of_mem (h : s.machine.Linked specs)
    (hmem : ∃ other ∈ specs, other.Same spec) :
    defineModule (some .platform) (some .system) spec s = (.ok (), s) := by
  obtain ⟨l, hl⟩ := h.created spec.loader
  rw [defineModule_eq hl, if_pos ((h.contains_iff hl).2 hmem)]

/-- What has been linked if a module was not refused. -/
theorem exists_of_defineModule (h : s.machine.Linked specs) (hsorted : spec.IsSorted)
    (hcompatible : specs.Pairwise ModuleSpec.Compatible)
    (hdefine : defineModule (some .platform) (some .system) spec s = (.ok (), s')) :
    ∃ m', s' = s.withMachine m' ∧ m'.Linked (linkNew specs spec) ∧
      (linkNew specs spec).Pairwise ModuleSpec.Compatible ∧ s.machine.Relinked m' := by
  obtain ⟨l, hl⟩ := h.created spec.loader
  by_cases hold : ∃ other ∈ specs, other.Same spec
  · rw [defineModule_of_mem h hold] at hdefine
    obtain ⟨-, rfl⟩ := Prod.mk.inj hdefine
    rw [linkNew, if_pos hold]
    exact ⟨s.machine, rfl, h, hcompatible, .refl _⟩
  · have hnew : ∀ other ∈ specs, ¬ other.Same spec := fun other hother hsame =>
      hold ⟨other, hother, hsame⟩
    rw [defineModule_eq hl, if_neg fun hcontains => hold ((h.contains_iff hl).1 hcontains)]
      at hdefine
    rw [linkNew, if_neg hold]
    cases hlink : linkModule s.machine spec.loader spec.name spec.packages with
    | error e =>
      rw [hlink] at hdefine
      cases hdefine
    | ok m =>
      rw [hlink] at hdefine
      obtain ⟨-, rfl⟩ := Prod.mk.inj hdefine
      have hway := h.compatible_of_linkModule hsorted hnew hlink
      obtain ⟨m', hlink', hlinked, hrelinked⟩ := h.exists_linkModule hsorted hway
      rw [hlink] at hlink'
      obtain rfl := Except.ok.inj hlink'
      refine ⟨m, rfl, hlinked, ?_, hrelinked⟩
      refine List.pairwise_append.2 ⟨hcompatible, List.pairwise_singleton _ _, ?_⟩
      intro other hother spec' hspec'
      rw [List.mem_singleton.1 hspec']
      exact hway other hother

/-- **What has been linked if no module of the graph was refused**: of several modules of one name
on one loader the first, and none that gets in the way of another one. -/
theorem exists_of_defineEach (h : s.machine.Linked specs) (hsorted : ∀ spec ∈ rest, spec.IsSorted)
    (hcompatible : specs.Pairwise ModuleSpec.Compatible)
    (hdefine : defineEach (some .platform) (some .system) rest s = (.ok (), s')) :
    ∃ m', s' = s.withMachine m' ∧ m'.Linked (rest.foldl linkNew specs) ∧
      (rest.foldl linkNew specs).Pairwise ModuleSpec.Compatible ∧ s.machine.Relinked m' := by
  induction rest generalizing s specs with
  | nil =>
    obtain ⟨-, rfl⟩ := Prod.mk.inj hdefine
    exact ⟨s.machine, rfl, h, hcompatible, .refl _⟩
  | cons spec rest ih =>
    obtain ⟨hspec, hrest⟩ := List.forall_mem_cons.1 hsorted
    obtain ⟨⟨⟩, s₁, hfirst, hothers⟩ := exists_of_exceptBind_eq_ok hdefine
    obtain ⟨m₁, rfl, hlinked, hcompatible₁, hrelinked⟩ :=
      exists_of_defineModule h hspec hcompatible hfirst
    obtain ⟨m₂, rfl, hlinked₂, hcompatible₂, hrelinked₂⟩ := ih hlinked hrest hcompatible₁ hothers
    exact ⟨m₂, rfl, hlinked₂, hcompatible₂, hrelinked.trans hrelinked₂⟩

/-- **Modules of a graph are linked** if those that come first do not get in each other's way. -/
theorem exists_defineEach (h : s.machine.Linked specs) (hsorted : ∀ spec ∈ rest, spec.IsSorted)
    (hcompatible : (rest.foldl linkNew specs).Pairwise ModuleSpec.Compatible) :
    ∃ m', defineEach (some .platform) (some .system) rest s = (.ok (), s.withMachine m') ∧
      m'.Linked (rest.foldl linkNew specs) ∧ s.machine.Relinked m' := by
  induction rest generalizing s specs with
  | nil => exact ⟨s.machine, rfl, h, .refl _⟩
  | cons spec rest ih =>
    obtain ⟨hspec, hrest⟩ := List.forall_mem_cons.1 hsorted
    rw [List.foldl_cons] at hcompatible ⊢
    by_cases hold : ∃ other ∈ specs, other.Same spec
    · rw [linkNew, if_pos hold] at hcompatible ⊢
      obtain ⟨m', hothers, hlinked, hrelinked⟩ := ih h hrest hcompatible
      refine ⟨m', ?_, hlinked, hrelinked⟩
      rw [defineEach, exceptBind_apply (defineModule_of_mem h hold)]
      exact hothers
    · rw [linkNew, if_neg hold] at hcompatible ⊢
      have hway := hcompatible.sublist (prefix_foldl_linkNew (specs ++ [spec]) rest).sublist
      obtain ⟨l, hl⟩ := h.created spec.loader
      obtain ⟨m₁, hlink, hlinked₁, hrelinked₁⟩ := h.exists_linkModule hspec fun other hother =>
        (List.pairwise_append.1 hway).2.2 other hother spec List.mem_cons_self
      have hdefine : defineModule (some .platform) (some .system) spec s
          = (.ok (), s.withMachine m₁) := by
        rw [defineModule_eq hl, if_neg fun hcontains => hold ((h.contains_iff hl).1 hcontains),
          hlink]
      obtain ⟨m', hothers, hlinked, hrelinked⟩ := ih (s := s.withMachine m₁) hlinked₁ hrest
        hcompatible
      refine ⟨m', ?_, hlinked, hrelinked₁.trans hrelinked⟩
      rw [defineEach, exceptBind_apply hdefine]
      exact hothers

/-- Where every module of the graph is represented, nothing happens. -/
theorem defineEach_of_mem (h : s.machine.Linked specs)
    (hmem : ∀ spec ∈ rest, ∃ other ∈ specs, other.Same spec) :
    defineEach (some .platform) (some .system) rest s = (.ok (), s) := by
  induction rest with
  | nil => rfl
  | cons spec rest ih =>
    obtain ⟨hspec, hrest⟩ := List.forall_mem_cons.1 hmem
    rw [defineEach, exceptBind_apply (defineModule_of_mem h hspec)]
    exact ih hrest

end Graph

end Library

end ClassSharing
