import ClassSharing.Proofs.Library.Installed
import ClassSharing.Proofs.Library.SetTable
import ClassSharing.Proofs.Machine.Heap

/-!
# The objects of the library

Every object that the library makes goes to the end of the heap, and is complete when it is there.
So what an operation of the library makes is a list of objects, and the object it answers lies at a
known place among them.

## Main definitions

* `Library.Fits`: the classes of the library have the fields of their declarations
* `Library.arrayOf`, `Library.instanceOf`: arrays, and objects with values in their slots
* `Library.SetClass`: a class of sets, wherever it is

## Main results

* `Library.make_of_idxOf?`, `Library.makeArray_eq`: single objects
* `Library.mapM_eq`: an object for every member of a list
* `Library.newSet_of_setClass`, `Library.newSet_eq`: sets
-/

namespace ClassSharing

namespace Library

open Session

/-! ### Slots -/

/-- The classes of the objects that have slots. -/
def slotted : List ClassId := [2, 4, 6, 8]

/-- The classes of the library have the instance variables and the static fields of their
declarations: an instance variable has the slot of its place. -/
structure Fits (m : Machine) : Prop where
  array : (m.classAt Machine.arrayClass).slotCount = 0
  slotCount : ∀ c ∈ slotted,
    (m.classAt c).slotCount = (installed.classAt c).instanceVariables.length
  slotIndex? : ∀ c ∈ slotted, ∀ name,
    m.slotIndex? c name = (installed.classAt c).instanceVariables.idxOf? name
  has : ∀ c name, (m.classAt c).statics.has name = (installed.classAt c).statics.has name

theorem Fits.of_evolves {m m' : Machine} (h : Fits m) (hm : m.Evolves m') : Fits m' where
  array := (hm.slotCount _).trans h.array
  slotCount c hc := (hm.slotCount c).trans (h.slotCount c hc)
  slotIndex? c hc name := (hm.slotIndex? c name).trans (h.slotIndex? c hc name)
  has c name := (hm.has c name).trans (h.has c name)

theorem fits_installed : Fits installed where
  array := by decide
  slotCount := by decide
  slotIndex? c hc name := by
    have hrooted : installed.Rooted := ⟨by decide, rfl⟩
    have hsuper : ∀ c ∈ slotted, (installed.classAt c).superclass = some Machine.objectClass ∧
        Machine.objectClass < c := by decide
    rw [hrooted.slotIndex? (hsuper c hc).2 (hsuper c hc).1]
  has _ _ := rfl

theorem fits_of_evolves {m : Machine} (h : installed.Evolves m) : Fits m :=
  fits_installed.of_evolves h

/-! ### Single objects -/

/-- An array. -/
def arrayOf (values : List Value) : Object := ⟨some Machine.arrayClass, [], some values⟩

/-- An object with values in its slots. -/
def instanceOf (c : ClassId) (values : List Value) : Object := ⟨some c, values, none⟩

/-- The value of an instance variable is at the place of its declaration. -/
theorem getField_eq {m : Machine} (h : Fits m) {o : ObjectId} {c : ClassId}
    {values : List Value} (hc : c ∈ slotted) (ho : m.objectAt o = instanceOf c values) {name : Text}
    {i : Nat} {v : Value} (hplace : (installed.classAt c).instanceVariables.idxOf? name = some i)
    (hv : values[i]? = some v) : m.getField o name = .ok v := by
  rw [Machine.getField, Machine.fieldIndex, ho]
  simp only [instanceOf, h.slotIndex? c hc, hplace, hv]

section Objects

variable {s : Session}

theorem makeArray_eq (h : Fits s.machine) (values : List Value) :
    makeArray values s
      = (.ok s.machine.objects.size,
        s.withMachine (s.machine.withObjects [arrayOf values])) := by
  rw [makeArray, onMachine_apply, Machine.newArray, Machine.instantiateWith, Machine.freshObject,
    h.array]
  simp [Machine.allocate, Machine.withObjects, arrayOf]

theorem writeSlot_withObjects (m : Machine) (c : ClassId) (values : List Value) (i : Nat)
    (v : Value) :
    (m.withObjects [instanceOf c values]).writeSlot m.objects.size i v
      = m.withObjects [instanceOf c (values.set i v)] :=
  m.updateObject_withObjects [] (instanceOf c values) [] _

/-- Assigns one slot of the object that is being made. -/
theorem setField_withObjects {m : Machine} {c : ClassId} {values : List Value} {i : Nat}
    {name : Text} (hslot : m.slotIndex? c name = some i) (hi : i < values.length) (v : Value) :
    (m.withObjects [instanceOf c values]).setField m.objects.size name v
      = .ok (m.withObjects [instanceOf c (values.set i v)]) := by
  have hobject : (m.withObjects [instanceOf c values]).objectAt m.objects.size
      = instanceOf c values :=
    @Machine.objectAt_append m _ [instanceOf c values] rfl 0
  have hindex : (m.withObjects [instanceOf c values]).fieldIndex m.objects.size name = .ok i := by
    rw [Machine.fieldIndex, hobject]
    simp only [instanceOf, (Machine.evolves_withObjects m _).slotIndex?, hslot]
  rw [Machine.setField, hindex, hobject]
  refine (if_pos hi).trans ?_
  rw [writeSlot_withObjects]

/-- The loop that fills the slots of a new object, one after another. -/
theorem forIn_setField {m : Machine} {c : ClassId} {filled : List Value}
    {fields : List (Text × Value)}
    (hslots : ∀ i field, fields[i]? = some field →
      m.slotIndex? c field.1 = some (filled.length + i)) :
    (ForIn.forIn fields PUnit.unit fun (field : Text × Value) (_ : PUnit) => do
        match (← Run.machine).setField m.objects.size field.1 field.2 with
        | .ok m => Run.setMachine m
        | .error (.fault fault) => Run.panic (.unexpected fault)
        | .error (.panic p) => Run.panic p
        pure (ForInStep.yield PUnit.unit) : Run PUnit)
      (s.withMachine (m.withObjects
        [instanceOf c (filled ++ List.replicate fields.length .nil)]))
      = (.ok PUnit.unit,
        s.withMachine (m.withObjects [instanceOf c (filled ++ fields.map Prod.snd)])) := by
  induction fields generalizing filled with
  | nil => rfl
  | cons field rest ih =>
    have hlt :
        filled.length + 0 < (filled ++ List.replicate (rest.length + 1) Value.nil).length := by
      simp
    have hset := setField_withObjects (hslots 0 field rfl) hlt field.2
    have hvalues : (filled ++ List.replicate (rest.length + 1) Value.nil).set (filled.length + 0)
        field.2 = (filled ++ [field.2]) ++ List.replicate rest.length .nil := by
      simp [List.replicate_succ]
    rw [hvalues] at hset
    have hlater : ∀ i other, rest[i]? = some other →
        m.slotIndex? c other.1 = some ((filled ++ [field.2]).length + i) := by
      intro i other hother
      rw [hslots (i + 1) other hother, List.length_append, List.length_singleton]
      congr 1
      omega
    have hrest := ih hlater
    rw [List.forIn_cons]
    refine Eq.trans (exceptBind_apply (?_ : _ = (Except.ok (ForInStep.yield PUnit.unit),
      s.withMachine (m.withObjects
        [instanceOf c ((filled ++ [field.2]) ++ List.replicate rest.length .nil)])))) ?_
    · rw [exceptBind_apply (machine_apply _)]
      simp only [List.length_cons, withMachine, hset]
      rfl
    · refine hrest.trans ?_
      rw [List.map_cons, List.append_assoc, List.singleton_append]

/-- **A new object of a class with values for all of its instance variables**, which have the
slots of their places. -/
theorem make_of_idxOf? {c : ClassId} {fields : List (Text × Value)}
    (hcount : (s.machine.classAt c).slotCount = fields.length)
    (hslots : ∀ name, s.machine.slotIndex? c name = (fields.map Prod.fst).idxOf? name)
    (hdistinct : (fields.map Prod.fst).Nodup) :
    make c fields s
      = (.ok s.machine.objects.size,
        s.withMachine (s.machine.withObjects [instanceOf c (fields.map Prod.snd)])) := by
  have hplaces : ∀ i field, fields[i]? = some field →
      s.machine.slotIndex? c field.1 = some (([] : List Value).length + i) := by
    intro i field hfield
    obtain ⟨hi, rfl⟩ := List.getElem?_eq_some_iff.1 hfield
    have hi' : i < (fields.map Prod.fst).length := by rw [List.length_map]; exact hi
    have hget : (fields.map Prod.fst)[i] = fields[i].1 := List.getElem_map ..
    rw [hslots, ← hget, List.length_nil, Nat.zero_add, List.idxOf?_eq_some_iff]
    exact ⟨hi', rfl, fun j hj heq => Nat.ne_of_lt hj (hdistinct.getElem_inj_iff.1 heq)⟩
  have hfresh : s.machine.instantiate c
      = (s.machine.objects.size, s.machine.withObjects
        [instanceOf c ([] ++ List.replicate fields.length .nil)]) := by
    rw [Machine.instantiate, Machine.freshObject, hcount]
    simp [Machine.allocate, Machine.withObjects, instanceOf]
  rw [make, exceptBind_apply (onMachine_apply _ s), hfresh]
  exact exceptBind_apply (forIn_setField hplaces)

theorem make_eq (h : Fits s.machine) {c : ClassId} (hc : c ∈ slotted)
    (fields : List (Text × Value))
    (hfields : (installed.classAt c).instanceVariables = fields.map Prod.fst) :
    make c fields s
      = (.ok s.machine.objects.size,
        s.withMachine (s.machine.withObjects [instanceOf c (fields.map Prod.snd)])) := by
  have hdistinct : ∀ c ∈ slotted, (installed.classAt c).instanceVariables.Nodup := by decide
  refine make_of_idxOf? ?_ (fun name => ?_) (hfields ▸ hdistinct c hc)
  · rw [h.slotCount c hc, hfields, List.length_map]
  · rw [h.slotIndex? c hc, hfields]

/-! ### Several objects -/

/-- **An object for every member of a list.** They lie one after another. -/
theorem mapM_eq {α : Type} {xs : List α} {f : α → Run Value} {object : α → Object}
    (hf : ∀ x s, Fits s.machine → f x s = (.ok (.obj s.machine.objects.size),
      s.withMachine (s.machine.withObjects [object x])))
    (h : Fits s.machine) :
    xs.mapM f s
      = (.ok ((List.range' s.machine.objects.size xs.length).map Value.obj),
        s.withMachine (s.machine.withObjects (xs.map object))) := by
  induction xs generalizing s with
  | nil =>
    rw [List.mapM_nil]
    simp [Machine.withObjects, withMachine]
    rfl
  | cons x rest ih =>
    have hnext : Fits (s.machine.withObjects [object x]) :=
      h.of_evolves (Machine.evolves_withObjects s.machine _)
    have hrest := ih (s := s.withMachine (s.machine.withObjects [object x])) hnext
    rw [List.mapM_cons, exceptBind_apply (hf x s h), exceptBind_apply hrest]
    rw [machine_withMachine, withMachine_withMachine, Machine.withObjects_withObjects,
      Machine.size_withObjects]
    rfl

/-! ### Sets -/

/-- The instances of a class have a slot for a table and one for a size. -/
structure SetClass (m : Machine) (set : ClassId) : Prop where
  slotCount : (m.classAt set).slotCount = 2
  slotIndex? : ∀ name, m.slotIndex? set name = ["table", "size"].idxOf? name

theorem SetClass.of_evolves {m m' : Machine} {set : ClassId} (h : SetClass m set)
    (hm : m.Evolves m') : SetClass m' set :=
  ⟨(hm.slotCount set).trans h.slotCount,
    fun name => (hm.slotIndex? set name).trans (h.slotIndex? name)⟩

/-- The class of sets of the installed library. -/
theorem Fits.setClass {m : Machine} (h : Fits m) : SetClass m 4 :=
  ⟨h.slotCount 4 (by decide), h.slotIndex? 4 (by decide)⟩

/-- **A new set** is a table and an object that holds it. -/
theorem newSet_of_setClass {set : ClassId} (h : SetClass s.machine set)
    {elements table : List Value}
    (htable : SetTable.ofElements s.machine.describe elements = .ok table) :
    newSet set elements s
      = (.ok (s.machine.objects.size + 1), s.withMachine (s.machine.withObjects
        [⟨some Machine.arrayClass, (s.machine.freshObject Machine.arrayClass).slots, some table⟩,
          instanceOf set [.obj s.machine.objects.size, .int (Int64.ofNat elements.length)]])) := by
  let array : Object :=
    ⟨some Machine.arrayClass, (s.machine.freshObject Machine.arrayClass).slots, some table⟩
  have harray : makeArray table s
      = (.ok s.machine.objects.size, s.withMachine (s.machine.withObjects [array])) := by
    rw [makeArray, onMachine_apply, Machine.newArray, Machine.instantiateWith]
    simp [Machine.allocate, Machine.withObjects, Machine.freshObject, array]
  have hnext : SetClass (s.machine.withObjects [array]) set :=
    h.of_evolves (Machine.evolves_withObjects s.machine _)
  have hmake : make set [("table", .obj s.machine.objects.size),
      ("size", .int (Int64.ofNat elements.length))]
      (s.withMachine (s.machine.withObjects [array])) = _ :=
    make_of_idxOf? hnext.slotCount hnext.slotIndex? (by decide : [("table" : Text), "size"].Nodup)
  rw [newSet, exceptBind_apply (machine_apply s), htable, exceptBind_apply (ofFault_apply table s),
    exceptBind_apply harray, hmake]
  rw [machine_withMachine, withMachine_withMachine, Machine.withObjects_withObjects,
    Machine.size_withObjects]
  rfl

theorem newSet_eq (h : Fits s.machine) {elements table : List Value}
    (htable : ∀ describe, SetTable.ofElements describe elements = .ok table) :
    newSet 4 elements s
      = (.ok (s.machine.objects.size + 1), s.withMachine (s.machine.withObjects
        [arrayOf table,
          instanceOf 4 [.obj s.machine.objects.size, .int (Int64.ofNat elements.length)]])) := by
  rw [newSet_of_setClass h.setClass (htable _), Machine.freshObject, h.array]
  rfl

end Objects

end Library

end ClassSharing
