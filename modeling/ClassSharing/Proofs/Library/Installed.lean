import ClassSharing.Library.Basic
import ClassSharing.Proofs.Session.Request

/-!
# The installed library

Installing the library on a new machine defines eight classes, always the same ones at the same
places. Only the initializer of one of them depends on the source of seeds. Code never changes the
shape of a class, so whatever can be told from the shapes is true of every machine that the
installed one evolves into.

## Main definitions

* `Library.installed`: the machine with the library installed
* `Library.installedWith`: the machine with the library installed, with any source of seeds

## Main results

* `Library.install_eq_installedWith`: what installing the library does
* `Library.classId_of_classNameOf`: the classes of the library are known by their names
-/

namespace ClassSharing

namespace Library

/-! ### Installation -/

/-- The classes of the library in the order of their definition. -/
def specs : List ClassSpec :=
  [{ name := "Integer", space := langSpace, superclass := some Machine.objectClass
     instanceVariables := ["value"] },
    { name := "IntegerCache", space := langSpace, superclass := some Machine.objectClass
      statics := ["low", "high", "cache", "archivedCache"], initializer := .integerCache 2 },
    { name := "SetN", space := utilSpace, superclass := some Machine.objectClass
      instanceVariables := ["table", "size"] },
    { name := "ImmutableCollections", space := utilSpace, superclass := some Machine.objectClass
      statics := ["salt", "reverse", "emptyList", "emptySet", "archivedObjects"]
      initializer := .collections 4 (.gate 0) },
    { name := "ModuleDescriptor", space := moduleSpace, superclass := some Machine.objectClass
      instanceVariables := ["name", "loader", "packages"] },
    { name := "ModuleGraph", space := moduleSpace, superclass := some Machine.objectClass
      statics := ["descriptors", "archivedGraph"], initializer := .moduleGraph 6 4 5 },
    { name := "Locale", space := utilSpace, superclass := some Machine.objectClass
      instanceVariables := ["language", "region"] },
    { name := "LocaleCache", space := utilSpace, superclass := some Machine.objectClass
      statics := ["root", "english", "us", "archivedLocales"], initializer := .localeCache 8 }]

/-- The machine with a class defined on the boot loader. -/
def withClass (m : Machine) (spec : ClassSpec) : Machine :=
  (m.addClass (m.makeClass spec (some .boot))).2

/-- The machine with the first classes of the library. -/
def definedUpTo (n : Nat) : Machine := (specs.take n).foldl withClass Machine.new

/-- The machine with the library installed. -/
def installed : Machine := specs.foldl withClass Machine.new

/-- The places of its classes. -/
def standard : Library := ⟨2, 3, 4, 5, 6, 7, 8, 9⟩

theorem wellNamed_installed : installed.WellNamed := by
  have hfold : ∀ (specs : List ClassSpec) (m : Machine), m.WellNamed →
      (specs.foldl withClass m).WellNamed := by
    intro specs
    induction specs with
    | nil => exact fun _ hm => hm
    | cons spec rest ih => exact fun m hm => ih _ (Machine.wellNamed_addClass hm _)
  exact hfold specs Machine.new Machine.wellNamed_new

/-- A class of the library is the only one with its name. -/
theorem eq_of_className {c k : ClassId} (hk : k < installed.classes.size)
    (h : installed.className c = installed.className k) : c = k := by
  by_cases hc : c < installed.classes.size
  · have honly : ∀ k < installed.classes.size, ∀ c < installed.classes.size,
        installed.className c = installed.className k → c = k := by
      decide
    exact honly k hk c hc h
  · have hdefault : installed.className c = (default : Class).fullName := by
      rw [Machine.className, Machine.classAt_of_size_le (Nat.not_lt.1 hc)]
    have hnamed : ∀ k < installed.classes.size,
        (default : Class).fullName ≠ installed.className k := by
      decide
    rw [hdefault] at h
    exact absurd h (hnamed k hk)

/-- An object that has the class name of an object of the library has its class. -/
theorem classId_of_classNameOf {m m' : Machine} {o o' : ObjectId} {k : ClassId}
    (hm : installed.Evolves m) (hm' : installed.Evolves m') (hk : k < installed.classes.size)
    (hclass : (m.objectAt o).classId = some k) (h : m'.classNameOf o' = m.classNameOf o) :
    (m'.objectAt o').classId = some k := by
  rw [Machine.classNameOf, Machine.classNameOf, hclass] at h
  cases hother : (m'.objectAt o').classId with
  | none =>
    have hnamed : ∀ k < installed.classes.size, ("?" : Text) ≠ installed.className k := by
      decide
    rw [hother] at h
    exact absurd (h.trans (hm.className k)) (hnamed k hk)
  | some c =>
    rw [hother] at h
    rw [eq_of_className hk ((hm'.className c).symm.trans (h.trans (hm.className k)))]

theorem defineClass_bind {α : Type} {s : Session} {space name : Text}
    {instanceVariables statics : List Text} {initializer : Initializer} {f : ClassId → Run α}
    {m : Machine} (hm : s.machine = m) (h : m.lookup (Class.qualify space name) = none) :
    (defineClass space name instanceVariables statics initializer >>= f) s
      = f m.classes.size (s.withMachine (withClass m
        { name := name, space := space, superclass := some Machine.objectClass
          instanceVariables := instanceVariables, statics := statics
          initializer := initializer })) := by
  subst hm
  refine Session.exceptBind_apply ?_
  rw [defineClass, Session.exceptBind_apply (Session.machine_apply s), Machine.defineClass]
  simp only [ClassSpec.fullName, h]
  rfl

/-! ### Another source of seeds -/

/-- A class of the library with a source of seeds, if it needs one. -/
def reseed (seeds : SeedSource) (spec : ClassSpec) : ClassSpec :=
  match spec.initializer with
  | .collections set _ => { spec with initializer := .collections set seeds }
  | _ => spec

/-- The machine with the first classes of the library, with a source of seeds. -/
def definedWith (seeds : SeedSource) (n : Nat) : Machine :=
  ((specs.take n).map (reseed seeds)).foldl withClass Machine.new

/-- The machine with the library installed, with a source of seeds. -/
def installedWith (seeds : SeedSource) : Machine :=
  (specs.map (reseed seeds)).foldl withClass Machine.new

/-- The classes of two machines have different initializers at most. -/
structure Reseeded (m m' : Machine) : Prop where
  names : m'.names = m.names
  size : m'.classes.size = m.classes.size
  classes : ∀ k, ∃ initializer, m'.classAt k = { m.classAt k with initializer := initializer }

section Reseeding

variable {m m' : Machine} {seeds : SeedSource}

/-- What does not depend on initializers. -/
theorem Reseeded.eq {α : Type} (h : Reseeded m m') (f : Class → α)
    (hf : ∀ k initializer, f { k with initializer := initializer } = f k) (k : ClassId) :
    f (m'.classAt k) = f (m.classAt k) := by
  obtain ⟨initializer, hclass⟩ := h.classes k
  rw [hclass, hf]

theorem Reseeded.withClass (h : Reseeded m m') (seeds : SeedSource) (spec : ClassSpec) :
    Reseeded (withClass m spec) (withClass m' (reseed seeds spec)) := by
  have hspec : ∃ initializer, reseed seeds spec = { spec with initializer := initializer } := by
    rw [reseed]
    split
    · exact ⟨_, rfl⟩
    · exact ⟨_, rfl⟩
  obtain ⟨initializer, hspec⟩ := hspec
  have hslots : m'.inheritedSlots spec.superclass = m.inheritedSlots spec.superclass := by
    cases spec.superclass with
    | none => rfl
    | some c => exact h.eq Class.slotCount (fun _ _ => rfl) c
  have hclass : m'.makeClass (reseed seeds spec) (some .boot)
      = { m.makeClass spec (some .boot) with initializer := initializer } := by
    rw [hspec, Machine.makeClass, Machine.makeClass, hslots]
  rw [Library.withClass, Library.withClass, hclass]
  refine ⟨?_, ?_, fun k => ?_⟩
  · show m'.names.insert _ m'.classes.size = m.names.insert _ m.classes.size
    rw [h.names, h.size]
    rfl
  · show (m'.classes.push _).size = (m.classes.push _).size
    rw [Array.size_push, Array.size_push, h.size]
  · rw [Machine.classAt_addClass, Machine.classAt_addClass, h.size]
    split
    · exact ⟨initializer, rfl⟩
    · exact h.classes k

/-- **Only initializers depend on the source of seeds.** -/
theorem reseeded_foldl (seeds : SeedSource) (classes : List ClassSpec) (h : Reseeded m m') :
    Reseeded (classes.foldl withClass m) ((classes.map (reseed seeds)).foldl withClass m') := by
  induction classes generalizing m m' with
  | nil => exact h
  | cons spec rest ih => exact ih (h.withClass seeds spec)

theorem reseeded_new : Reseeded Machine.new Machine.new := ⟨rfl, rfl, fun _ => ⟨_, rfl⟩⟩

theorem reseeded_installedWith (seeds : SeedSource) : Reseeded installed (installedWith seeds) :=
  reseeded_foldl seeds specs reseeded_new

/-- **What installing the library does**, whatever the source of seeds is. -/
theorem install_eq_installedWith (seeds : SeedSource) {s : Session} (h : s.machine = Machine.new) :
    install seeds s
      = (.ok standard, { s with lastSeed := none, machine := installedWith seeds }) := by
  have hlookup : ∀ n name, (definedUpTo n).lookup name = none →
      (definedWith seeds n).lookup name = none := by
    intro n name hnone
    have hnames := (reseeded_foldl seeds (specs.take n) reseeded_new).names
    rw [Machine.lookup, definedWith, hnames]
    exact hnone
  rw [install, Session.exceptBind_apply (Session.exceptModify_apply _ s)]
  refine Eq.trans (defineClass_bind (m := definedWith seeds 0) h (hlookup 0 _ (by decide))) ?_
  refine Eq.trans (defineClass_bind (m := definedWith seeds 1) rfl (hlookup 1 _ (by decide))) ?_
  refine Eq.trans (defineClass_bind (m := definedWith seeds 2) rfl (hlookup 2 _ (by decide))) ?_
  refine Eq.trans (defineClass_bind (m := definedWith seeds 3) rfl (hlookup 3 _ (by decide))) ?_
  refine Eq.trans (defineClass_bind (m := definedWith seeds 4) rfl (hlookup 4 _ (by decide))) ?_
  refine Eq.trans (defineClass_bind (m := definedWith seeds 5) rfl (hlookup 5 _ (by decide))) ?_
  refine Eq.trans (defineClass_bind (m := definedWith seeds 6) rfl (hlookup 6 _ (by decide))) ?_
  exact defineClass_bind (m := definedWith seeds 7) rfl (hlookup 7 _ (by decide))

/-- **What installing the library does** in a process, which gets its seeds from its gate. -/
theorem install_eq {s : Session} (h : s.machine = Machine.new) :
    install (.gate 0) s
      = (.ok standard, { s with lastSeed := none, machine := installed }) :=
  install_eq_installedWith (.gate 0) h

end Reseeding

end Library

end ClassSharing
