import ClassSharing.Machine.Basic
import Mathlib.Tactic.Common

/-!
# What running code leaves alone

Code that runs on the machine makes objects, assigns slots, elements and statics, and moves classes
from one state to the next. It defines no class. So the table of names stays as it is, and of every
class everything but its state and the values of its statics does. Most code is *calm*: it does not
move classes either.

## Main definitions

* `Machine.WellNamed`: every registered class is registered under its full name
* `Machine.Registered`: every class is registered
* `Machine.WellFormed`: every class that the machine leads to exists
* `Class.shape`: what of a class never changes
* `Machine.Evolves`: what all code on the machine satisfies
* `Machine.Rooted`: the root class is the one of a new machine
* `Machine.Calm`: what code satisfies that moves no class to another state
* `Machine.linkage`: the modules and the loaders, which most code leaves alone

## Main results

* `Machine.registered_new`, `Machine.Registered.defineClass`: classes that are defined on a loader
  are registered
* `Machine.wellFormed_new`, `Machine.WellFormed.addClass`, `Machine.Evolves.wellFormed`: every
  machine is well formed
* `Machine.evolves_setState`, `Machine.calm_setStatics`, `Machine.Calm.of_classes_eq`: the three
  ways in which code evolves the machine
-/

namespace ClassSharing

/-- Looking at an array one of whose members has been changed. -/
theorem getD_modify {α : Type} (xs : Array α) (i j : Nat) (f : α → α) (blank : α) :
    (xs.modify i f)[j]?.getD blank
      = if j = i ∧ i < xs.size then f (xs[j]?.getD blank) else xs[j]?.getD blank := by
  rw [Array.getElem?_modify]
  by_cases hij : i = j
  · subst hij
    by_cases hlt : i < xs.size
    · rw [if_pos rfl, if_pos ⟨rfl, hlt⟩, Array.getElem?_eq_getElem hlt]
      rfl
    · rw [if_pos rfl, if_neg fun h => hlt h.2, Array.getElem?_eq_none (Nat.not_lt.1 hlt)]
      rfl
  · rw [if_neg hij, if_neg fun h => hij h.1.symm]

namespace Machine

/-! ### Looking at changed classes -/

theorem classAt_updateClass (m : Machine) (c d : ClassId) (f : Class → Class) :
    (m.updateClass c f).classAt d
      = if d = c ∧ c < m.classes.size then f (m.classAt d) else m.classAt d :=
  getD_modify m.classes c d f default

theorem classAt_addClass (m : Machine) (k : Class) (d : ClassId) :
    (m.addClass k).2.classAt d = if d = m.classes.size then k else m.classAt d := by
  rw [addClass, classAt, classAt, Array.getElem?_push]
  split
  · rfl
  · rfl

theorem lookup_addClass (m : Machine) (k : Class) (name : Text) :
    (m.addClass k).2.lookup name
      = if name = k.fullName then some m.classes.size else m.lookup name :=
  Table.get?_insert m.names k.fullName name m.classes.size

/-! ### Names -/

/-- Every registered class exists and is registered under its full name. -/
def WellNamed (m : Machine) : Prop :=
  ∀ name c, m.lookup name = some c → c < m.classes.size ∧ m.className c = name

theorem wellNamed_blank : blank.WellNamed := by
  intro name c h
  cases h

theorem wellNamed_addClass {m : Machine} (h : m.WellNamed) (k : Class) :
    (m.addClass k).2.WellNamed := by
  intro name c hc
  have hsize : (m.addClass k).2.classes.size = m.classes.size + 1 := Array.size_push _
  rw [lookup_addClass] at hc
  rw [className, classAt_addClass, hsize]
  split at hc
  · rename_i hname
    obtain rfl := Option.some.inj hc
    rw [if_pos rfl]
    exact ⟨Nat.lt_succ_self _, hname.symm⟩
  · obtain ⟨hlt, hname⟩ := h name c hc
    rw [if_neg (Nat.ne_of_lt hlt)]
    exact ⟨Nat.lt_succ_of_lt hlt, hname⟩

/-- **A new machine is well named.** -/
theorem wellNamed_new : Machine.new.WellNamed :=
  wellNamed_addClass (wellNamed_addClass wellNamed_blank _) _

theorem wellNamed_registerClass {m : Machine} (h : m.WellNamed) (spec : ClassSpec) :
    (m.registerClass spec).2.WellNamed :=
  wellNamed_addClass h _

theorem wellNamed_defineClass {m m' : Machine} {spec : ClassSpec} {loader : LoaderKind}
    {c : ClassId} (h : m.WellNamed) (hdefine : m.defineClass spec loader = .ok (c, m')) :
    m'.WellNamed := by
  rw [defineClass] at hdefine
  split at hdefine
  · cases hdefine
  · obtain ⟨-, rfl⟩ := Prod.mk.inj (Except.ok.inj hdefine)
    exact wellNamed_addClass h _

/-- Every class is registered, so that no two classes have the same full name. -/
def Registered (m : Machine) : Prop :=
  ∀ c, c < m.classes.size → m.lookup (m.className c) = some c

theorem registered_blank : blank.Registered := by
  intro c hc
  cases hc

/-- Adding a class under a name that is not taken. -/
theorem Registered.addClass {m : Machine} (h : m.Registered) {k : Class}
    (hfree : m.lookup k.fullName = none) : (m.addClass k).2.Registered := by
  intro c hc
  have hsize : (m.addClass k).2.classes.size = m.classes.size + 1 := Array.size_push _
  rw [lookup_addClass, className, classAt_addClass]
  by_cases hnew : c = m.classes.size
  · rw [if_pos hnew, if_pos rfl, hnew]
  · have hold : m.lookup (m.className c) = some c := h c (by omega)
    have hname : m.className c ≠ k.fullName := by
      intro heq
      rw [heq, hfree] at hold
      cases hold
    rw [if_neg hnew]
    exact (if_neg hname).trans hold

/-- **All classes of a new machine are registered**, -/
theorem registered_new : Machine.new.Registered :=
  (registered_blank.addClass rfl).addClass (by decide)

/-- and so are all classes that are defined on a loader. -/
theorem Registered.defineClass {m m' : Machine} (h : m.Registered) {spec : ClassSpec}
    {loader : LoaderKind} {c : ClassId} (hdefine : m.defineClass spec loader = .ok (c, m')) :
    m'.Registered := by
  rw [Machine.defineClass] at hdefine
  split at hdefine
  · cases hdefine
  · rename_i hfree
    obtain ⟨-, rfl⟩ := Prod.mk.inj (Except.ok.inj hdefine)
    exact h.addClass hfree

/-! ### Classes that exist -/

/-- Every class that can be reached from the tables of the machine exists: through a name, as a
superclass, or as the class that a library initializer requests. -/
structure WellFormed (m : Machine) : Prop where
  named : m.WellNamed
  superclass : ∀ c parent, (m.classAt c).superclass = some parent → parent < m.classes.size
  collections : ∀ c descriptor set collections,
    (m.classAt c).initializer = .moduleGraph descriptor set collections →
      collections < m.classes.size

theorem wellFormed_blank : blank.WellFormed where
  named := wellNamed_blank
  superclass _ _ h := by cases h
  collections _ _ _ _ h := by cases h

/-- Adding a class that refers to existing classes only. -/
theorem WellFormed.addClass {m : Machine} (h : m.WellFormed) {k : Class}
    (hsuper : ∀ parent, k.superclass = some parent → parent < m.classes.size)
    (hcollections : ∀ descriptor set collections,
      k.initializer = .moduleGraph descriptor set collections → collections < m.classes.size) :
    (m.addClass k).2.WellFormed := by
  have hsize : (m.addClass k).2.classes.size = m.classes.size + 1 := Array.size_push _
  refine ⟨wellNamed_addClass h.named k, fun c parent hc => ?_, fun c d s collections hc => ?_⟩
  · rw [classAt_addClass] at hc
    rw [hsize]
    split at hc
    · exact Nat.lt_succ_of_lt (hsuper parent hc)
    · exact Nat.lt_succ_of_lt (h.superclass c parent hc)
  · rw [classAt_addClass] at hc
    rw [hsize]
    split at hc
    · exact Nat.lt_succ_of_lt (hcollections d s collections hc)
    · exact Nat.lt_succ_of_lt (h.collections c d s collections hc)

/-- **A new machine is well formed.** -/
theorem wellFormed_new : Machine.new.WellFormed := by
  refine WellFormed.addClass (WellFormed.addClass wellFormed_blank ?_ ?_) ?_ ?_
  · intro parent h
    cases h
  · intro _ _ _ h
    cases h
  · intro parent h
    obtain rfl := Option.some.inj h
    decide
  · intro _ _ _ h
    cases h

end Machine

/-! ### Shapes -/

/-- What of a class never changes: everything but its state and the values of its statics. -/
def Class.shape (k : Class) : Class :=
  { k with statics := ⟨k.statics.names.map (·, .nil)⟩, state := .uninitialized }

section Shape

variable {k k' : Class}

/-- Whatever can be told from the shape is the same for classes of the same shape. -/
theorem Class.eq_of_shape {α : Type} (p : Class → α) (hp : ∀ k, p k.shape = p k)
    (h : k'.shape = k.shape) : p k' = p k := by
  rw [← hp k', h, hp k]

theorem Class.names_eq_of_shape (h : k'.shape = k.shape) :
    k'.statics.names = k.statics.names := by
  refine Class.eq_of_shape (fun k => k.statics.names) (fun k => ?_) h
  simp [shape, Statics.names, Function.comp_def]

end Shape

namespace Machine

/-! ### Evolution -/

/-- What all code on the machine satisfies. -/
structure Evolves (m m' : Machine) : Prop where
  names : m'.names = m.names
  size : m'.classes.size = m.classes.size
  shapes : ∀ c, (m'.classAt c).shape = (m.classAt c).shape

section Evolution

variable {m m' m'' : Machine}

theorem Evolves.refl (m : Machine) : m.Evolves m := ⟨rfl, rfl, fun _ => rfl⟩

theorem Evolves.trans (h : m.Evolves m') (h' : m'.Evolves m'') : m.Evolves m'' where
  names := h'.names.trans h.names
  size := h'.size.trans h.size
  shapes c := (h'.shapes c).trans (h.shapes c)

theorem Evolves.symm (h : m.Evolves m') : m'.Evolves m :=
  ⟨h.names.symm, h.size.symm, fun c => (h.shapes c).symm⟩

theorem Evolves.lookup (h : m.Evolves m') (name : Text) : m'.lookup name = m.lookup name := by
  rw [Machine.lookup, Machine.lookup, h.names]

theorem Evolves.className (h : m.Evolves m') (c : ClassId) : m'.className c = m.className c :=
  Class.eq_of_shape Class.fullName (fun _ => rfl) (h.shapes c)

theorem Evolves.slotCount (h : m.Evolves m') (c : ClassId) :
    (m'.classAt c).slotCount = (m.classAt c).slotCount :=
  Class.eq_of_shape Class.slotCount (fun _ => rfl) (h.shapes c)

theorem Evolves.superclass (h : m.Evolves m') (c : ClassId) :
    (m'.classAt c).superclass = (m.classAt c).superclass :=
  Class.eq_of_shape Class.superclass (fun _ => rfl) (h.shapes c)

theorem Evolves.loader (h : m.Evolves m') (c : ClassId) :
    (m'.classAt c).loader = (m.classAt c).loader :=
  Class.eq_of_shape Class.loader (fun _ => rfl) (h.shapes c)

theorem Evolves.instanceVariables (h : m.Evolves m') (c : ClassId) :
    (m'.classAt c).instanceVariables = (m.classAt c).instanceVariables :=
  Class.eq_of_shape Class.instanceVariables (fun _ => rfl) (h.shapes c)

theorem Evolves.initializer (h : m.Evolves m') (c : ClassId) :
    (m'.classAt c).initializer = (m.classAt c).initializer :=
  Class.eq_of_shape Class.initializer (fun _ => rfl) (h.shapes c)

theorem Evolves.lineage (h : m.Evolves m') (c : ClassId) : m'.lineage c = m.lineage c := by
  induction c using Nat.strongRecOn with
  | ind c ih =>
    rw [Machine.lineage, Machine.lineage, h.superclass]
    cases (m.classAt c).superclass with
    | none => rfl
    | some parent =>
      by_cases hparent : parent < c
      · simp only [if_pos hparent, ih parent hparent]
      · simp only [if_neg hparent]

/-- The slots of instance variables stay where they are. -/
theorem Evolves.slotIndex? (h : m.Evolves m') (c : ClassId) (name : Text) :
    m'.slotIndex? c name = m.slotIndex? c name := by
  have hinherited : ∀ parent, m'.inheritedSlots parent = m.inheritedSlots parent := fun parent => by
    cases parent with
    | none => rfl
    | some parent => exact h.slotCount parent
  rw [Machine.slotIndex?, Machine.slotIndex?, h.lineage]
  congr 1
  funext k
  rw [ownSlot?, ownSlot?, h.instanceVariables, h.superclass, hinherited]

theorem Evolves.has (h : m.Evolves m') (c : ClassId) (name : Text) :
    (m'.classAt c).statics.has name = (m.classAt c).statics.has name := by
  rw [Statics.has, Statics.has, Class.names_eq_of_shape (h.shapes c)]

/-- **Code keeps a machine well named.** -/
theorem Evolves.wellNamed (h : m.Evolves m') (hm : m.WellNamed) : m'.WellNamed := by
  intro name c hc
  rw [h.lookup] at hc
  rw [h.className, h.size]
  exact hm name c hc

theorem Evolves.registered (h : m.Evolves m') (hm : m.Registered) : m'.Registered := by
  intro c hc
  rw [h.size] at hc
  rw [h.className, h.lookup]
  exact hm c hc

theorem Evolves.wellFormed (h : m.Evolves m') (hm : m.WellFormed) : m'.WellFormed where
  named := h.wellNamed hm.named
  superclass c parent hc := by
    rw [h.superclass] at hc
    rw [h.size]
    exact hm.superclass c parent hc
  collections c d s collections hc := by
    rw [h.initializer] at hc
    rw [h.size]
    exact hm.collections c d s collections hc

/-- Code that assigns statics. -/
theorem evolves_setStatics {c : ClassId} {s : Statics} (h : s.names = (m.classAt c).statics.names) :
    m.Evolves (m.setStatics c s) where
  names := rfl
  size := Array.size_modify
  shapes d := by
    rw [setStatics, classAt_updateClass]
    split
    · rename_i hd
      rw [hd.1, Class.shape, Class.shape]
      simp only [h]
    · rfl

/-- Code that moves a class to another state. -/
theorem evolves_setState (m : Machine) (c : ClassId) (state : InitState) :
    m.Evolves (m.setState c state) where
  names := rfl
  size := Array.size_modify
  shapes d := by
    rw [setState, classAt_updateClass]
    split <;> rfl

/-! ### Where instance variables are looked up -/

theorem slotIndex?_of_root {c : ClassId} (h : (m.classAt c).superclass = none) (name : Text) :
    m.slotIndex? c name = m.ownSlot? c name := by
  rw [Machine.slotIndex?, Machine.lineage, h, List.findSome?_singleton]

/-- A class that does not declare a name leaves it to its superclass. -/
theorem slotIndex?_of_derived {c parent : ClassId} (h : (m.classAt c).superclass = some parent)
    (hlt : parent < c) (name : Text) :
    m.slotIndex? c name = (m.ownSlot? c name).or (m.slotIndex? parent name) := by
  rw [Machine.slotIndex?, Machine.slotIndex?, Machine.lineage, h]
  simp only [if_pos hlt, List.findSome?_cons]
  cases m.ownSlot? c name <;> rfl

/-! ### The root class -/

/-- The root class is the one of a new machine, which inherits nothing and has no slots. -/
structure Rooted (m : Machine) : Prop where
  lt_size : objectClass < m.classes.size
  shape : (m.classAt objectClass).shape = (new.classAt objectClass).shape

theorem rooted_new : Machine.new.Rooted := ⟨by decide, rfl⟩

theorem Rooted.addClass (h : m.Rooted) (k : Class) : (m.addClass k).2.Rooted where
  lt_size := by
    have hsize : (m.addClass k).2.classes.size = m.classes.size + 1 := Array.size_push _
    rw [hsize]
    exact Nat.lt_succ_of_lt h.lt_size
  shape := by
    rw [classAt_addClass, if_neg (Nat.ne_of_lt h.lt_size)]
    exact h.shape

theorem Evolves.rooted (h : m.Evolves m') (hm : m.Rooted) : m'.Rooted :=
  ⟨h.size ▸ hm.lt_size, (h.shapes _).trans hm.shape⟩

/-- **The instance variables of a class below the root** have the slots of their places in the
declaration. -/
theorem Rooted.slotIndex? (h : m.Rooted) {c : ClassId} (hpos : objectClass < c)
    (hsuper : (m.classAt c).superclass = some objectClass) (name : Text) :
    m.slotIndex? c name = (m.classAt c).instanceVariables.idxOf? name := by
  have hparent : (m.classAt objectClass).superclass = none :=
    Class.eq_of_shape Class.superclass (fun _ => rfl) h.shape
  have hvariables : (m.classAt objectClass).instanceVariables = [] :=
    Class.eq_of_shape Class.instanceVariables (fun _ => rfl) h.shape
  have hinherited : m.inheritedSlots (some objectClass) = 0 :=
    Class.eq_of_shape Class.slotCount (fun _ => rfl) h.shape
  have hroot : m.slotIndex? objectClass name = none := by
    rw [slotIndex?_of_root hparent, ownSlot?, hvariables]
    rfl
  rw [slotIndex?_of_derived hsuper hpos, hroot, Option.or_none, ownSlot?, hsuper, hinherited]
  simp only [Nat.zero_add, Option.map_id']

/-! ### Calm code -/

/-- What code satisfies that moves no class to another state. -/
structure Calm (m m' : Machine) : Prop where
  evolves : m.Evolves m'
  states : ∀ c, m'.stateOf c = m.stateOf c

theorem Calm.refl (m : Machine) : m.Calm m := ⟨.refl m, fun _ => rfl⟩

theorem Calm.trans (h : m.Calm m') (h' : m'.Calm m'') : m.Calm m'' where
  evolves := h.evolves.trans h'.evolves
  states c := (h'.states c).trans (h.states c)

/-- Code that touches only the heap and the loaders. -/
theorem Calm.of_classes_eq (hclasses : m'.classes = m.classes) (hnames : m'.names = m.names) :
    m.Calm m' := by
  have hclassAt : ∀ c, m'.classAt c = m.classAt c := fun c => by rw [classAt, classAt, hclasses]
  refine ⟨⟨hnames, by rw [hclasses], fun c => by rw [hclassAt]⟩, fun c => ?_⟩
  rw [stateOf, stateOf, hclassAt]

theorem calm_setStatics {c : ClassId} {s : Statics} (h : s.names = (m.classAt c).statics.names) :
    m.Calm (m.setStatics c s) where
  evolves := evolves_setStatics h
  states d := by
    rw [stateOf, stateOf, setStatics, classAt_updateClass]
    split <;> rfl

/-! ### Modules and loaders -/

/-- The modules of a machine and its loaders. -/
def linkage (m : Machine) : Array Module × Loader × Option Loader × Option Loader :=
  (m.modules, m.boot, m.platform, m.system)

theorem moduleAt_of_linkage_eq (h : m'.linkage = m.linkage) (id : ModuleId) :
    m'.moduleAt id = m.moduleAt id := by
  have hmodules : m'.modules = m.modules := congrArg Prod.fst h
  rw [moduleAt, moduleAt, hmodules]

theorem loader?_of_linkage_eq (h : m'.linkage = m.linkage) (kind : LoaderKind) :
    m'.loader? kind = m.loader? kind := by
  simp only [linkage, Prod.mk.injEq] at h
  obtain ⟨-, hboot, hplatform, hsystem⟩ := h
  cases kind with
  | boot => exact congrArg some hboot
  | platform => exact hplatform
  | system => exact hsystem

theorem allModules_of_linkage_eq (h : m'.linkage = m.linkage) : m'.allModules = m.allModules := by
  simp only [allModules, loader?_of_linkage_eq h]

end Evolution

end Machine

/-- Writing several fields declares nothing. -/
theorem Statics.names_writeAll (s : Statics) (values : List (Text × Value)) :
    (s.writeAll values).names = s.names := by
  induction values generalizing s with
  | nil => rfl
  | cons kv rest ih => exact (ih _).trans (names_write s kv.1 kv.2)

theorem Machine.objects_setAllStatics {m m' : Machine} {c : ClassId}
    {values : List (Text × Value)} (h : m.setAllStatics c values = .ok m') :
    m'.objects = m.objects := by
  rw [setAllStatics] at h
  split at h
  · obtain rfl := Except.ok.inj h
    rfl
  · cases h

end ClassSharing
