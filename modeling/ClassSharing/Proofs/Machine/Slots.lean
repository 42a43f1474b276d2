import ClassSharing.Proofs.Machine.Pieces

/-!
# The slots of instance variables

An object has one slot for every declaration in the chain of its class: first those of the root, and
behind them those of each class on the way down. A name may be declared again, in one class or in a
derived one, and then each of its declarations has a slot. The name stands for one of them only, the
first declaration in the most derived class that has one.

That different names never stand for the same slot rests on one fact: a slot has the name of its
declaration, and a name stands for a slot of that name. The bounds follow from it as well, since the
names of the slots are counted by the classes when they are made.

## What is deliberately absent

There are no conditions on names, and a class may be replaced in the table of names, which its
derived classes and its instances do not notice. Slots are not assigned by number here: a slot that
a name stands for can be changed that way as well, without the name.

## Main definitions

* `Machine.Chain`: a class and its superclasses, up to one that has none
* `Machine.slotNames`: the names of the slots, and `Machine.DeclaredAt`: the slot of a name
* `Machine.LaidOut`: classes count the slots of their chain, and objects have as many
* `ObjectCall`, `Machine.objectCalls`: making classes and instances, assigning instance variables
* `Machine.assignments`: what such calls have assigned to one object

## Main results

* `Machine.LaidOut.slotIndex?_eq_some_iff`, `Machine.DeclaredAt.getElem?_slotNames`: the slot that a
  name stands for, and its name
* `Machine.LaidOut.getField_writeSlot`: what an assignment changes
* `Machine.ObjectStep.laidOut`, `Machine.ObjectStep.fieldValue`: one call, and
  `Machine.LaidOut.objectCalls` for a run
* `Machine.wellNamed_objectCalls`: the table of names over all calls
* `Machine.slots_never_clash`: the slots of instance variables over all calls
-/

namespace ClassSharing

/-- The first place of a member splits the list. -/
theorem idxOf?_eq_some_iff_append {α : Type} [DecidableEq α] {l : List α} {a : α} {i : Nat} :
    l.idxOf? a = some i ↔
      ∃ before after, l = before ++ a :: after ∧ a ∉ before ∧ i = before.length := by
  rw [List.idxOf?_eq_some_iff]
  constructor
  · rintro ⟨hi, rfl, hfirst⟩
    refine ⟨l.take i, l.drop (i + 1), ?_, fun hmem => ?_, ?_⟩
    · rw [← List.drop_eq_getElem_cons hi, List.take_append_drop]
    · obtain ⟨j, hj, heq⟩ := List.mem_iff_getElem.1 hmem
      rw [List.length_take] at hj
      rw [List.getElem_take] at heq
      exact hfirst j (by omega) heq
    · rw [List.length_take, Nat.min_eq_left (Nat.le_of_lt hi)]
  · rintro ⟨before, after, rfl, hnot, rfl⟩
    refine ⟨by simp, by simp, fun j hj heq => hnot ?_⟩
    rw [List.getElem_append_left hj] at heq
    exact heq ▸ List.getElem_mem hj

namespace Machine

variable {m m' : Machine} {c k parent : ClassId} {chain above : List ClassId} {o : ObjectId}
  {name : Text} {i : Nat}

/-! ### The chain of a class -/

/-- A class, its superclass, and so on up to a class without one. -/
inductive Chain (m : Machine) : ClassId → List ClassId → Prop where
  | root {c : ClassId} (h : (m.classAt c).superclass = none) : Chain m c [c]
  | derived {c parent : ClassId} {above : List ClassId}
      (h : (m.classAt c).superclass = some parent) (habove : Chain m parent above) :
      Chain m c (c :: above)

/-- The names of the slots of a chain of classes, most derived first: the slots of the last class of
the chain come first. -/
def slotNames (m : Machine) : List ClassId → List Text
  | [] => []
  | c :: above => m.slotNames above ++ (m.classAt c).instanceVariables

/-- The slot of the first declaration of a name in the first class of a chain that declares it. -/
def DeclaredAt (m : Machine) (chain : List ClassId) (name : Text) (i : Nat) : Prop :=
  ∃ derived k above before after, chain = derived ++ k :: above ∧
    (∀ d ∈ derived, name ∉ (m.classAt d).instanceVariables) ∧
    (m.classAt k).instanceVariables = before ++ name :: after ∧ name ∉ before ∧
    i = (m.slotNames above).length + before.length

theorem slotNames_append (m : Machine) (chain above : List ClassId) :
    m.slotNames (chain ++ above) = m.slotNames above ++ m.slotNames chain := by
  induction chain with
  | nil => simp [slotNames]
  | cons c rest ih => rw [List.cons_append, slotNames, slotNames, ih, List.append_assoc]

/-- **A name stands for a slot of that name.** -/
theorem DeclaredAt.getElem?_slotNames (h : m.DeclaredAt chain name i) :
    (m.slotNames chain)[i]? = some name := by
  obtain ⟨derived, k, above, before, after, rfl, -, hk, -, rfl⟩ := h
  rw [slotNames_append, slotNames, hk]
  simp

/-- The rest of a chain from one of its classes on is the chain of that class. -/
theorem Chain.of_append {derived : List ClassId} (h : m.Chain c chain)
    (hchain : chain = derived ++ k :: above) : m.Chain k (k :: above) := by
  induction h generalizing derived with
  | root hroot =>
    cases derived with
    | nil =>
      obtain ⟨rfl, rfl⟩ := List.cons.inj hchain
      exact .root hroot
    | cons d rest => simp at hchain
  | derived hparent habove ih =>
    cases derived with
    | nil =>
      obtain ⟨rfl, rfl⟩ := List.cons.inj hchain
      exact .derived hparent habove
    | cons d rest => exact ih (List.cons.inj hchain).2

/-! ### Classes and objects that are laid out -/

/-- Every class counts the slots of its chain, and every object has the slots of its class. -/
structure LaidOut (m : Machine) : Prop where
  older : ∀ c parent, (m.classAt c).superclass = some parent → parent < c
  counted : ∀ c, (m.classAt c).slotCount
    = m.inheritedSlots (m.classAt c).superclass + (m.classAt c).instanceVariables.length
  fitted : ∀ o < m.objects.size, ∃ c < m.classes.size, (m.objectAt o).classId = some c ∧
    (m.objectAt o).slots.length = (m.classAt c).slotCount

theorem laidOut_blank : blank.LaidOut where
  older _ _ h := by cases h
  counted _ := rfl
  fitted _ h := by cases h

theorem LaidOut.chain_lineage (h : m.LaidOut) (c : ClassId) : m.Chain c (m.lineage c) := by
  induction c using Nat.strongRecOn with
  | ind c ih =>
    rw [lineage]
    cases hsuper : (m.classAt c).superclass with
    | none => exact .root hsuper
    | some parent =>
      have hlt : parent < c := h.older c parent hsuper
      simp only [if_pos hlt]
      exact .derived hsuper (ih parent hlt)

theorem Chain.length_slotNames (hchain : m.Chain c chain) (h : m.LaidOut) :
    (m.slotNames chain).length = (m.classAt c).slotCount := by
  induction hchain with
  | root hroot => rw [h.counted, hroot, inheritedSlots, slotNames, List.length_append]; rfl
  | derived hparent _ ih =>
    rw [h.counted, hparent, inheritedSlots, slotNames, List.length_append, ih]

/-- What a class inherits are the slots of the chain above it. -/
theorem Chain.inheritedSlots (hchain : m.Chain k (k :: above)) (h : m.LaidOut) :
    m.inheritedSlots (m.classAt k).superclass = (m.slotNames above).length := by
  cases hchain with
  | root hroot => rw [hroot]; rfl
  | derived hparent habove => rw [hparent, habove.length_slotNames h]; rfl

theorem ownSlot?_eq_some_iff : m.ownSlot? k name = some i ↔
    ∃ before after, (m.classAt k).instanceVariables = before ++ name :: after ∧ name ∉ before ∧
      i = m.inheritedSlots (m.classAt k).superclass + before.length := by
  rw [ownSlot?, Option.map_eq_some_iff]
  constructor
  · rintro ⟨j, hj, rfl⟩
    obtain ⟨before, after, hk, hnot, rfl⟩ := idxOf?_eq_some_iff_append.1 hj
    exact ⟨before, after, hk, hnot, rfl⟩
  · rintro ⟨before, after, hk, hnot, rfl⟩
    exact ⟨_, idxOf?_eq_some_iff_append.2 ⟨before, after, hk, hnot, rfl⟩, rfl⟩

theorem ownSlot?_eq_none_iff :
    m.ownSlot? k name = none ↔ name ∉ (m.classAt k).instanceVariables := by
  rw [ownSlot?, Option.map_eq_none_iff, List.idxOf?_eq_none_iff]

/-- **The slot that a name stands for** is that of the first declaration in the most derived class
that declares it. -/
theorem LaidOut.slotIndex?_eq_some_iff (h : m.LaidOut) :
    m.slotIndex? c name = some i ↔ m.DeclaredAt (m.lineage c) name i := by
  rw [slotIndex?, List.findSome?_eq_some_iff]
  constructor
  · rintro ⟨derived, k, above, hchain, hk, hderived⟩
    obtain ⟨before, after, hvariables, hnot, rfl⟩ := ownSlot?_eq_some_iff.1 hk
    have habove : m.Chain k (k :: above) := (h.chain_lineage c).of_append hchain
    exact ⟨derived, k, above, before, after, hchain,
      fun d hd => ownSlot?_eq_none_iff.1 (hderived d hd), hvariables, hnot,
      by rw [habove.inheritedSlots h]⟩
  · rintro ⟨derived, k, above, before, after, hchain, hderived, hvariables, hnot, rfl⟩
    have habove : m.Chain k (k :: above) := (h.chain_lineage c).of_append hchain
    exact ⟨derived, k, above, hchain,
      ownSlot?_eq_some_iff.2 ⟨before, after, hvariables, hnot, by rw [habove.inheritedSlots h]⟩,
      fun d hd => ownSlot?_eq_none_iff.2 (hderived d hd)⟩

theorem slotIndex?_eq_none_iff : m.slotIndex? c name = none ↔
    ∀ k ∈ m.lineage c, name ∉ (m.classAt k).instanceVariables := by
  simp only [slotIndex?, List.findSome?_eq_none_iff, ownSlot?_eq_none_iff]

theorem LaidOut.slotIndex?_lt (h : m.LaidOut) (hi : m.slotIndex? c name = some i) :
    i < (m.classAt c).slotCount := by
  have hname := (h.slotIndex?_eq_some_iff.1 hi).getElem?_slotNames
  rw [← (h.chain_lineage c).length_slotNames h]
  exact (List.getElem?_eq_some_iff.1 hname).1

/-- **Different names stand for different slots.** -/
theorem LaidOut.eq_of_slotIndex? (h : m.LaidOut) {other : Text}
    (hi : m.slotIndex? c name = some i) (hother : m.slotIndex? c other = some i) :
    name = other := by
  have hname := (h.slotIndex?_eq_some_iff.1 hi).getElem?_slotNames
  have hsame := (h.slotIndex?_eq_some_iff.1 hother).getElem?_slotNames
  exact Option.some.inj (hname.symm.trans hsame)

/-! ### Reading and assigning instance variables -/

/-- The fault of a name that no class of the chain declares. -/
def undeclared (m : Machine) (c : ClassId) (name : Text) : Failure :=
  .fault (.of (.noInstanceVariable (m.className c) name))

/-- What reading an instance variable answers, nil if it is refused. -/
def fieldValue (m : Machine) (o : ObjectId) (name : Text) : Value :=
  (m.getField o name).toOption.getD .nil

theorem fieldIndex_of_none (hclass : (m.objectAt o).classId = some c)
    (hnone : m.slotIndex? c name = none) :
    m.fieldIndex o name = .error (m.undeclared c name) := by
  rw [fieldIndex, hclass]
  simp only [hnone]
  rfl

theorem fieldIndex_of_some (hclass : (m.objectAt o).classId = some c)
    (hi : m.slotIndex? c name = some i) : m.fieldIndex o name = .ok i := by
  rw [fieldIndex, hclass]
  simp only [hi]

theorem exists_of_fieldIndex_eq_ok (h : m.fieldIndex o name = .ok i) :
    ∃ c, (m.objectAt o).classId = some c ∧ m.slotIndex? c name = some i := by
  rw [fieldIndex] at h
  split at h
  · cases h
  · rename_i c hclass
    split at h
    · rename_i j hj
      exact ⟨c, hclass, hj.trans (congrArg some (Except.ok.inj h))⟩
    · cases h

theorem Evolves.fieldIndex (h : m.Evolves m')
    (hclass : (m'.objectAt o).classId = (m.objectAt o).classId) :
    m'.fieldIndex o name = m.fieldIndex o name := by
  rw [Machine.fieldIndex, Machine.fieldIndex, hclass]
  simp only [h.slotIndex?, h.className]

theorem Evolves.getField (h : m.Evolves m') (hobject : m'.objectAt o = m.objectAt o) :
    m'.getField o name = m.getField o name := by
  rw [Machine.getField, Machine.getField, h.fieldIndex (congrArg Object.classId hobject), hobject]

/-- An object that holds nothing but nil. -/
theorem fieldValue_of_forall_nil (h : ∀ v ∈ (m.objectAt o).slots, v = .nil) (name : Text) :
    m.fieldValue o name = .nil := by
  rw [fieldValue, getField]
  cases m.fieldIndex o name with
  | error failure => rfl
  | ok i =>
    cases hslot : (m.objectAt o).slots[i]? with
    | none => simp only [hslot]; rfl
    | some v =>
      simp only [hslot]
      exact h v (List.mem_of_getElem? hslot)

/-- An object that has not been made. -/
theorem fieldValue_of_size_le (h : m.objects.size ≤ o) (name : Text) :
    m.fieldValue o name = .nil := by
  refine fieldValue_of_forall_nil (fun v hv => ?_) name
  rw [objectAt_of_size_le h] at hv
  cases hv

theorem LaidOut.lt_length_slots (h : m.LaidOut) (hclass : (m.objectAt o).classId = some c)
    (hi : m.slotIndex? c name = some i) : i < (m.objectAt o).slots.length := by
  obtain ⟨d, -, hd, hlength⟩ := h.fitted o (lt_size_of_class hclass)
  obtain rfl := Option.some.inj (hclass.symm.trans hd)
  rw [hlength]
  exact h.slotIndex?_lt hi

/-- **A name that is declared can be read**, -/
theorem LaidOut.getField_eq (h : m.LaidOut) (hclass : (m.objectAt o).classId = some c)
    (hi : m.slotIndex? c name = some i) : m.getField o name = .ok (m.fieldValue o name) := by
  obtain ⟨v, hv⟩ : ∃ v, (m.objectAt o).slots[i]? = some v :=
    ⟨_, List.getElem?_eq_getElem (h.lt_length_slots hclass hi)⟩
  have hread : m.getField o name = .ok v := by
    rw [getField, fieldIndex_of_some hclass hi]
    simp only [hv]
  rw [fieldValue, hread]
  rfl

/-- and it can be assigned. -/
theorem LaidOut.setField_eq (h : m.LaidOut) (hclass : (m.objectAt o).classId = some c)
    (hi : m.slotIndex? c name = some i) (v : Value) :
    m.setField o name v = .ok (m.writeSlot o i v) := by
  rw [setField, fieldIndex_of_some hclass hi]
  exact if_pos (h.lt_length_slots hclass hi)

theorem objectAt_writeSlot (m : Machine) (o other : ObjectId) (i : Nat) (v : Value) :
    (m.writeSlot o i v).objectAt other
      = if other = o ∧ o < m.objects.size then
          { m.objectAt other with slots := (m.objectAt other).slots.set i v }
        else m.objectAt other :=
  getD_modify m.objects o other _ Object.blank

/-- **An assignment changes one instance variable of one object.** -/
theorem LaidOut.getField_writeSlot (h : m.LaidOut) (hclass : (m.objectAt o).classId = some c)
    (hi : m.slotIndex? c name = some i) (v : Value) (other : ObjectId) (otherName : Text) :
    (m.writeSlot o i v).getField other otherName
      = if other = o ∧ otherName = name then .ok v else m.getField other otherName := by
  have hevolves : m.Evolves (m.writeSlot o i v) := (Piece.slot o i v).calm.evolves
  have hobject := m.objectAt_writeSlot o other i v
  by_cases hother : other = o
  · subst hother
    rw [if_pos ⟨rfl, lt_size_of_class hclass⟩] at hobject
    have hindex : (m.writeSlot other i v).fieldIndex other otherName
        = m.fieldIndex other otherName :=
      hevolves.fieldIndex (by rw [hobject])
    rw [getField, getField, hindex, hobject]
    by_cases hname : otherName = name
    · subst hname
      rw [fieldIndex_of_some hclass hi, if_pos ⟨rfl, rfl⟩]
      simp [h.lt_length_slots hclass hi]
    · rw [if_neg fun heq => hname heq.2]
      cases hj : m.fieldIndex other otherName with
      | error failure => rfl
      | ok j =>
        -- Different names stand for different slots.
        have hne : i ≠ j := by
          rintro rfl
          obtain ⟨d, hd, hsame⟩ := exists_of_fieldIndex_eq_ok hj
          obtain rfl := Option.some.inj (hclass.symm.trans hd)
          exact hname (h.eq_of_slotIndex? hsame hi)
        simp only [List.getElem?_set_ne hne, List.length_set]
  · rw [if_neg fun heq => hother heq.1] at hobject ⊢
    exact hevolves.getField hobject

/-! ### Calls -/

/-- A call about classes and their instances. -/
inductive ObjectCall where
  /-- Makes a class and registers it, also under a name that is taken. -/
  | register (spec : ClassSpec)
  /-- Defines a class on a loader. -/
  | define (spec : ClassSpec) (loader : LoaderKind)
  /-- Makes an instance of a class. -/
  | make (c : ClassId)
  /-- Makes an instance with elements. -/
  | makeIndexed (c : ClassId) (size : Int)
  /-- Assigns an instance variable. -/
  | assign (o : ObjectId) (name : Text) (v : Value)

/-- The superclass of a class that is to be made has been made, if there is one. -/
def Offers (m : Machine) (spec : ClassSpec) : Prop :=
  ∀ parent ∈ spec.superclass, parent < m.classes.size

instance (m : Machine) (spec : ClassSpec) : Decidable (m.Offers spec) :=
  inferInstanceAs (Decidable (∀ parent ∈ spec.superclass, parent < m.classes.size))

/-- The machine after a call. A class that has not been made has no derived classes and no
instances, and a call that is refused changes nothing. -/
def objectCall (m : Machine) : ObjectCall → Machine
  | .register spec => if m.Offers spec then (m.registerClass spec).2 else m
  | .define spec loader =>
    if m.Offers spec then
      match m.defineClass spec loader with
      | .ok (_, m') => m'
      | .error _ => m
    else m
  | .make c => if c < m.classes.size then (m.instantiate c).2 else m
  | .makeIndexed c size =>
    if c < m.classes.size then
      match m.instantiateIndexed c size with
      | .ok (_, m') => m'
      | .error _ => m
    else m
  | .assign o name v =>
    match m.setField o name v with
    | .ok m' => m'
    | .error _ => m

/-- The machine after calls. -/
def objectCalls (m : Machine) (calls : List ObjectCall) : Machine := calls.foldl objectCall m

/-- What a call assigns to an object, which is nothing if it is refused. -/
def assignment (m : Machine) (o : ObjectId) : ObjectCall → List (Text × Value)
  | .assign target name v =>
    match m.setField target name v with
    | .ok _ => if target = o then [(name, v)] else []
    | .error _ => []
  | _ => []

/-- What calls assign to an object, in order. -/
def assignments (m : Machine) (o : ObjectId) : List ObjectCall → List (Text × Value)
  | [] => []
  | call :: rest => m.assignment o call ++ (m.objectCall call).assignments o rest

/-- What becomes of a machine in a call, and what the call assigns to each object. -/
inductive ObjectStep (m : Machine) : (ObjectId → List (Text × Value)) → Machine → Prop where
  | same : ObjectStep m (fun _ => []) m
  | added {k : Class} (hsuper : ∀ parent ∈ k.superclass, parent < m.classes.size)
      (hcount : k.slotCount = m.inheritedSlots k.superclass + k.instanceVariables.length) :
      ObjectStep m (fun _ => []) (m.addClass k).2
  | placed {c : ClassId} {x : Object} (hc : c < m.classes.size) (hclass : x.classId = some c)
      (hslots : x.slots = List.replicate (m.classAt c).slotCount .nil) :
      ObjectStep m (fun _ => []) (m.allocate x).2
  | assigned {o : ObjectId} {c : ClassId} {name : Text} {i : Nat} (v : Value)
      (hclass : (m.objectAt o).classId = some c) (hi : m.slotIndex? c name = some i) :
      ObjectStep m (fun other => if o = other then [(name, v)] else []) (m.writeSlot o i v)

theorem objectStep_objectCall (m : Machine) (call : ObjectCall) :
    m.ObjectStep (m.assignment · call) (m.objectCall call) := by
  have hadded : ∀ {spec : ClassSpec} (loader : Option LoaderKind), m.Offers spec →
      m.ObjectStep (fun _ => []) (m.addClass (m.makeClass spec loader)).2 :=
    fun loader hoffers => .added hoffers rfl
  cases call with
  | register spec =>
    rw [objectCall]
    split
    · rename_i hoffers
      exact hadded none hoffers
    · exact .same
  | define spec loader =>
    rw [objectCall, defineClass]
    split
    · rename_i hoffers
      cases m.lookup spec.fullName with
      | some old => exact .same
      | none => exact hadded (some loader) hoffers
    · exact .same
  | make c =>
    rw [objectCall]
    split
    · rename_i hc
      exact .placed hc rfl rfl
    · exact .same
  | makeIndexed c size =>
    rw [objectCall]
    split
    · rename_i hc
      cases hmade : m.instantiateIndexed c size with
      | error p => exact .same
      | ok made =>
        obtain rfl := eq_of_instantiateIndexed_eq_ok hmade
        exact .placed hc rfl rfl
    · exact .same
  | assign o name v =>
    cases hset : m.setField o name v with
    | error failure =>
      simp only [objectCall, assignment, hset]
      exact .same
    | ok m' =>
      simp only [objectCall, assignment, hset]
      obtain ⟨i, hi, rfl⟩ := exists_of_setField_eq_ok hset
      obtain ⟨c, hclass, hslot⟩ := exists_of_fieldIndex_eq_ok hi
      exact .assigned v hclass hslot

/-! ### What calls preserve -/

/-- Superclasses have been made, since a class that has not been made has none. -/
theorem LaidOut.superclass_lt (h : m.LaidOut) (hparent : (m.classAt c).superclass = some parent) :
    parent < m.classes.size := by
  have hlt : parent < c := h.older c parent hparent
  by_contra hge
  have hc : m.classes.size ≤ c := Nat.le_trans (Nat.not_lt.1 hge) (Nat.le_of_lt hlt)
  rw [classAt_of_size_le hc] at hparent
  cases hparent

section AddedClass

variable (k : Class)

theorem classAt_addClass_of_lt (hc : c < m.classes.size) :
    (m.addClass k).2.classAt c = m.classAt c :=
  (classAt_addClass m k c).trans (if_neg (Nat.ne_of_lt hc))

theorem inheritedSlots_addClass {superclass : Option ClassId}
    (h : ∀ parent ∈ superclass, parent < m.classes.size) :
    (m.addClass k).2.inheritedSlots superclass = m.inheritedSlots superclass := by
  cases superclass with
  | none => rfl
  | some parent => exact congrArg Class.slotCount (classAt_addClass_of_lt k (h parent rfl))

theorem LaidOut.addClass (h : m.LaidOut) {k : Class}
    (hsuper : ∀ parent ∈ k.superclass, parent < m.classes.size)
    (hcount : k.slotCount = m.inheritedSlots k.superclass + k.instanceVariables.length) :
    (m.addClass k).2.LaidOut := by
  have hsize : (m.addClass k).2.classes.size = m.classes.size + 1 := Array.size_push _
  refine ⟨fun c parent hparent => ?_, fun c => ?_, fun o ho => ?_⟩
  · rw [classAt_addClass] at hparent
    split at hparent
    · rename_i hc
      exact hc ▸ hsuper parent hparent
    · exact h.older c parent hparent
  · rw [classAt_addClass]
    split
    · rw [inheritedSlots_addClass k hsuper, hcount]
    · rw [inheritedSlots_addClass k fun parent hparent => h.superclass_lt hparent]
      exact h.counted c
  · obtain ⟨c, hc, hclass, hlength⟩ := h.fitted o ho
    refine ⟨c, hsize ▸ Nat.lt_succ_of_lt hc, hclass, ?_⟩
    rw [classAt_addClass_of_lt k hc]
    exact hlength

/-- A new class leaves the slots of the others where they are. -/
theorem LaidOut.slotIndex?_addClass (h : m.LaidOut) (hc : c < m.classes.size) :
    (m.addClass k).2.slotIndex? c name = m.slotIndex? c name := by
  induction c using Nat.strongRecOn with
  | ind c ih =>
    have hclass : (m.addClass k).2.classAt c = m.classAt c := classAt_addClass_of_lt k hc
    have hown : (m.addClass k).2.ownSlot? c name = m.ownSlot? c name := by
      rw [ownSlot?, ownSlot?, hclass,
        inheritedSlots_addClass k fun parent hparent => h.superclass_lt hparent]
    cases hsuper : (m.classAt c).superclass with
    | none => rw [slotIndex?_of_root (hclass ▸ hsuper), slotIndex?_of_root hsuper, hown]
    | some parent =>
      have hlt : parent < c := h.older c parent hsuper
      rw [slotIndex?_of_derived (hclass ▸ hsuper) hlt, slotIndex?_of_derived hsuper hlt, hown,
        ih parent hlt (h.superclass_lt hsuper)]

theorem LaidOut.getField_addClass (h : m.LaidOut) (o : ObjectId) (name : Text) :
    (m.addClass k).2.getField o name = m.getField o name := by
  have hindex : (m.addClass k).2.fieldIndex o name = m.fieldIndex o name := by
    have hobject : (m.addClass k).2.objectAt o = m.objectAt o := rfl
    rw [fieldIndex, fieldIndex, hobject]
    cases hclass : (m.objectAt o).classId with
    | none => rfl
    | some c =>
      obtain ⟨d, hd, hclassId, -⟩ := h.fitted o (lt_size_of_class hclass)
      obtain rfl := Option.some.inj (hclass.symm.trans hclassId)
      simp only [h.slotIndex?_addClass k hd, className, classAt_addClass_of_lt k hd]
  rw [getField, getField, hindex]
  rfl

end AddedClass

theorem objectAt_allocate (m : Machine) (x : Object) (o : ObjectId) :
    (m.allocate x).2.objectAt o = if o = m.objects.size then x else m.objectAt o := by
  rw [allocate, objectAt, objectAt, Array.getElem?_push]
  split <;> rfl

/-- **What calls preserve** is preserved by one call, -/
theorem ObjectStep.laidOut {written : ObjectId → List (Text × Value)}
    (hstep : m.ObjectStep written m') (h : m.LaidOut) : m'.LaidOut := by
  cases hstep with
  | same => exact h
  | added hsuper hcount => exact h.addClass hsuper hcount
  | @placed c x hc hclass hslots =>
    have hsize : (m.allocate x).2.objects.size = m.objects.size + 1 := Array.size_push _
    refine ⟨h.older, h.counted, fun o ho => ?_⟩
    rw [hsize] at ho
    rw [objectAt_allocate]
    split
    · exact ⟨c, hc, hclass, by rw [hslots, List.length_replicate]; rfl⟩
    · rename_i hold
      exact h.fitted o (Nat.lt_of_le_of_ne (Nat.le_of_lt_succ ho) hold)
  | @assigned o c name i v hclass hi =>
    refine ⟨h.older, h.counted, fun other hother => ?_⟩
    rw [writeSlot, updateObject, Array.size_modify] at hother
    obtain ⟨d, hd, hdclass, hlength⟩ := h.fitted other hother
    refine ⟨d, hd, ?_⟩
    rw [objectAt_writeSlot]
    split
    · exact ⟨hdclass, List.length_set.trans hlength⟩
    · exact ⟨hdclass, hlength⟩

/-- and it changes the instance variables that it assigns. -/
theorem ObjectStep.fieldValue {written : ObjectId → List (Text × Value)}
    (hstep : m.ObjectStep written m') (h : m.LaidOut) (o : ObjectId) (name : Text) :
    m'.fieldValue o name = (Statics.lastIn name (written o)).getD (m.fieldValue o name) := by
  cases hstep with
  | same => rfl
  | @added k hsuper hcount =>
    rw [Machine.fieldValue, h.getField_addClass k]
    rfl
  | @placed c x hc hclass hslots =>
    by_cases hnew : o = m.objects.size
    · rw [fieldValue_of_size_le (Nat.le_of_eq hnew.symm)]
      refine fieldValue_of_forall_nil (fun v hv => ?_) name
      rw [objectAt_allocate, if_pos hnew, hslots] at hv
      exact List.eq_of_mem_replicate hv
    · have hobject := (objectAt_allocate m x o).trans (if_neg hnew)
      rw [Machine.fieldValue, (piece_allocate m _).calm.evolves.getField hobject]
      rfl
  | @assigned target c other i v hclass hi =>
    rw [Machine.fieldValue, h.getField_writeSlot hclass hi, Machine.fieldValue]
    by_cases htarget : o = target
    · subst htarget
      by_cases hname : name = other
      · simp [hname, Statics.lastIn, Except.toOption]
      · simp [hname, Ne.symm hname, Statics.lastIn]
    · simp [htarget, Ne.symm htarget, Statics.lastIn]

/-- Both hold for any calls. -/
theorem LaidOut.objectCalls (h : m.LaidOut) (calls : List ObjectCall) :
    (m.objectCalls calls).LaidOut ∧ ∀ o name, (m.objectCalls calls).fieldValue o name
      = (Statics.lastIn name (m.assignments o calls)).getD (m.fieldValue o name) := by
  induction calls generalizing m with
  | nil => exact ⟨h, fun _ _ => rfl⟩
  | cons call rest ih =>
    have hstep := m.objectStep_objectCall call
    obtain ⟨hrest, hvalue⟩ := ih (hstep.laidOut h)
    refine ⟨hrest, fun o name => (hvalue o name).trans ?_⟩
    rw [hstep.fieldValue h, assignments, Statics.lastIn_append, Option.getD_or]

/-! ### Names over all calls -/

/-- A call keeps every registered class under its full name: one that makes a class registers it
that way, and the others make none. -/
theorem WellNamed.objectCall (h : m.WellNamed) (call : ObjectCall) :
    (m.objectCall call).WellNamed := by
  cases call with
  | register spec =>
    rw [Machine.objectCall]
    split
    · exact wellNamed_registerClass h spec
    · exact h
  | define spec loader =>
    rw [Machine.objectCall]
    split
    · cases hdefine : m.defineClass spec loader with
      | error fault => exact h
      | ok made => exact wellNamed_defineClass h hdefine
    · exact h
  | make c =>
    rw [Machine.objectCall]
    split
    · exact (piece_allocate m _).calm.evolves.wellNamed h
    · exact h
  | makeIndexed c size =>
    rw [Machine.objectCall]
    split
    · cases hmade : m.instantiateIndexed c size with
      | error p => exact h
      | ok made => exact (piece_instantiateIndexed hmade).calm.evolves.wellNamed h
    · exact h
  | assign o name v =>
    rw [Machine.objectCall]
    cases hset : m.setField o name v with
    | error failure => exact h
    | ok m' => exact (piece_setField hset).calm.evolves.wellNamed h

theorem WellNamed.objectCalls (h : m.WellNamed) (calls : List ObjectCall) :
    (m.objectCalls calls).WellNamed := by
  induction calls generalizing m with
  | nil => exact h
  | cons call rest ih => exact ih (h.objectCall call)

/-- **Machines that calls reach are well named**, which is what dumping and restoring expect of
them, although calls may take a name away from a class. -/
theorem wellNamed_objectCalls (calls : List ObjectCall) : (blank.objectCalls calls).WellNamed :=
  wellNamed_blank.objectCalls calls

/-! ### The slots over all calls -/

/-- **The slots of instance variables over all calls.** Let `s` be any machine that calls about
classes and instances reach, beginning without any class. A class has a chain. A name has no slot in
the class if no class of the chain declares it, and otherwise the slot of its first declaration in
the most derived class that does. The class has a slot for every declaration of the chain, that slot
is one of them, and no other name has the same one. Every object has such a class. Reading and
assigning a name without slot is refused. Reading another one gives the last value that has been
assigned to it in this object, nil if there is none, and assigning it succeeds and changes no other
instance variable of any object. So neither panics. -/
theorem slots_never_clash (calls : List ObjectCall) {s : Machine}
    (hs : s = blank.objectCalls calls) :
    (∀ c < s.classes.size, ∃ chain, s.Chain c chain ∧
      (∀ name, s.slotIndex? c name = none ↔
        ∀ k ∈ chain, name ∉ (s.classAt k).instanceVariables) ∧
      (∀ name i, s.slotIndex? c name = some i ↔ s.DeclaredAt chain name i) ∧
      (s.classAt c).slotCount = (s.slotNames chain).length ∧
      (∀ name i, s.slotIndex? c name = some i → i < (s.classAt c).slotCount) ∧
      ∀ name other i, s.slotIndex? c name = some i → s.slotIndex? c other = some i →
        name = other) ∧
    ∀ o < s.objects.size, ∃ c < s.classes.size, (s.objectAt o).classId = some c ∧
      (∀ name, s.slotIndex? c name = none →
        s.getField o name = .error (s.undeclared c name) ∧
        ∀ v, s.setField o name v = .error (s.undeclared c name)) ∧
      ∀ name i, s.slotIndex? c name = some i →
        s.getField o name
          = .ok ((Statics.lastIn name (blank.assignments o calls)).getD .nil) ∧
        ∀ v, ∃ s', s.setField o name v = .ok s' ∧ ∀ other otherName,
          s'.getField other otherName
            = if other = o ∧ otherName = name then .ok v else s.getField other otherName := by
  obtain ⟨h, hvalue⟩ := laidOut_blank.objectCalls calls
  rw [← hs] at h hvalue
  refine ⟨fun c _ => ⟨s.lineage c, h.chain_lineage c, fun _ => slotIndex?_eq_none_iff,
    fun _ _ => h.slotIndex?_eq_some_iff, ((h.chain_lineage c).length_slotNames h).symm,
    fun _ _ hi => h.slotIndex?_lt hi,
    fun _ _ _ hi hother => h.eq_of_slotIndex? hi hother⟩, fun o ho => ?_⟩
  obtain ⟨c, hc, hclass, -⟩ := h.fitted o ho
  refine ⟨c, hc, hclass, fun name hnone => ⟨?_, fun v => ?_⟩, fun name i hi => ⟨?_, fun v => ?_⟩⟩
  · rw [getField, fieldIndex_of_none hclass hnone]
  · rw [setField, fieldIndex_of_none hclass hnone]
  · rw [h.getField_eq hclass hi, hvalue o name, fieldValue_of_size_le (Nat.zero_le o)]
  · exact ⟨_, h.setField_eq hclass hi v, h.getField_writeSlot hclass hi v⟩

/-- A new machine is reached by two such calls. -/
example : new = blank.objectCalls
    [.define { name := "Object", superclass := none } .boot,
      .define { name := "Array", superclass := some objectClass } .boot] := rfl

/-- A class that declares a name twice, and a class derived from it, of the same full name, that
declares another one again. The third assignment is refused. -/
def shadowingCalls : List ObjectCall :=
  [.define { name := "Object", superclass := none } .boot,
    .define { name := "Point", superclass := some 0, instanceVariables := ["x", "y", "x"] } .boot,
    .register { name := "Point", superclass := some 1, instanceVariables := ["y", "color"] },
    .make 2, .assign 0 "y" (.int 1), .assign 0 "x" (.int 2), .assign 0 "depth" (.int 3),
    .assign 0 "y" (.int 4)]

theorem slots_never_clash_shadowingCalls :
    (∃ chain, (blank.objectCalls shadowingCalls).Chain 2 chain ∧
      (blank.objectCalls shadowingCalls).DeclaredAt chain "x" 0 ∧
      (blank.objectCalls shadowingCalls).DeclaredAt chain "y" 3 ∧
      ∀ k ∈ chain,
        ("depth" : Text) ∉ ((blank.objectCalls shadowingCalls).classAt k).instanceVariables) ∧
    (blank.objectCalls shadowingCalls).getField 0 "y" = .ok (.int 4) ∧
    (blank.objectCalls shadowingCalls).getField 0 "color" = .ok .nil ∧
    (∃ failure, (blank.objectCalls shadowingCalls).setField 0 "depth" .nil = .error failure) ∧
    ∃ s', (blank.objectCalls shadowingCalls).setField 0 "x" .nil = .ok s' ∧
      s'.getField 0 "x" = .ok .nil ∧ s'.getField 0 "y" = .ok (.int 4) := by
  have hassigned : blank.assignments 0 shadowingCalls
      = [(("y" : Text), Value.int 1), ("x", .int 2), ("y", .int 4)] := by decide +kernel
  generalize hs : blank.objectCalls shadowingCalls = s
  obtain ⟨hclasses, hobjects, hclass, hx, hy, hcolor, hdepth⟩ :
      2 < s.classes.size ∧ 0 < s.objects.size ∧ (s.objectAt 0).classId = some 2 ∧
      s.slotIndex? 2 "x" = some 0 ∧ s.slotIndex? 2 "y" = some 3 ∧ s.slotIndex? 2 "color" = some 4 ∧
      s.slotIndex? 2 "depth" = none := by
    subst hs
    decide +kernel
  obtain ⟨hslots, hinstances⟩ := slots_never_clash shadowingCalls hs.symm
  obtain ⟨chain, hchain, hundeclared, hdeclared, -⟩ := hslots 2 hclasses
  obtain ⟨c, -, hc, hrefused, hread⟩ := hinstances 0 hobjects
  obtain rfl := Option.some.inj (hclass.symm.trans hc)
  rw [hassigned] at hread
  obtain ⟨s', hset, hafter⟩ := (hread "x" 0 hx).2 .nil
  refine ⟨⟨chain, hchain, (hdeclared _ _).1 hx, (hdeclared _ _).1 hy, (hundeclared _).1 hdepth⟩,
    (hread "y" 3 hy).1, (hread "color" 4 hcolor).1, ⟨_, (hrefused "depth" hdepth).2 .nil⟩,
    s', hset, (hafter 0 "x").trans (if_pos ⟨rfl, rfl⟩), ?_⟩
  rw [hafter, if_neg (by decide)]
  exact (hread "y" 3 hy).1

end Machine

end ClassSharing
