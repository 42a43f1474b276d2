import ClassSharing.Proofs.Machine.Frame

/-!
# Filling a class

Most of what the library and restoration do to a machine is of one kind: new objects are put at the
end of the heap, and statics of one class are assigned. What was on the heap before stays as it is,
and so do the statics of all other classes.

## Main definitions

* `Machine.withObjects`: the machine with objects put at the end of its heap
* `Machine.assigned`: the machine with statics of a class assigned
* `Machine.Fills`: what is put on the heap, and which class is touched

## Main results

* `Machine.setStatic_eq_ok`, `Machine.setAllStatics_eq_ok`: assigning declared fields succeeds
* `Machine.static_assigned`: what the fields are afterwards
-/

namespace ClassSharing

namespace Statics

/-- Fields that are all written have the last values, which are the same for one name. -/
theorem get_writeAll (s : Statics) (names : List Text) (value : Text → Value) (name : Text) :
    (s.writeAll (names.map fun n => (n, value n))).get name
      = if name ∈ names ∧ name ∈ s.names then value name else s.get name := by
  induction names generalizing s with
  | nil => simp [writeAll]
  | cons first rest ih =>
    have hrest := ih (s.write first (value first))
    rw [names_write, get_write] at hrest
    rw [List.map_cons, writeAll, List.foldl_cons, ← writeAll, hrest]
    by_cases hname : name = first
    · subst hname
      by_cases hdeclared : name ∈ s.names
      · simp [hdeclared]
      · simp [hdeclared]
    · simp [hname]

/-- The last value that a list of bindings has for a name. -/
def lastIn (name : Text) : List (Text × Value) → Option Value
  | [] => Option.none
  | (k, v) :: rest => (lastIn name rest).or (if k = name then some v else Option.none)

/-- Reading a declared field after writing several. -/
theorem get_writeAll_eq {s : Statics} {name : Text} (hname : name ∈ s.names)
    (values : List (Text × Value)) :
    (s.writeAll values).get name = (lastIn name values).getD (s.get name) := by
  induction values generalizing s with
  | nil => rfl
  | cons first rest ih =>
    obtain ⟨k, v⟩ := first
    have hrest := ih (s := s.write k v) (by rw [names_write]; exact hname)
    rw [get_write] at hrest
    rw [writeAll, List.foldl_cons, ← writeAll, hrest, lastIn]
    by_cases hk : k = name
    · subst hk
      cases lastIn k rest with
      | none => simp [hname]
      | some last => rfl
    · cases lastIn name rest with
      | none => simp [hk, Ne.symm hk]
      | some last => rfl

theorem get_writeAll_of_not_mem {s : Statics} {name : Text} (hname : name ∉ s.names)
    (values : List (Text × Value)) : (s.writeAll values).get name = s.get name := by
  induction values generalizing s with
  | nil => rfl
  | cons first rest ih =>
    obtain ⟨k, v⟩ := first
    have hrest := ih (s := s.write k v) (by rwa [names_write])
    rw [get_write, if_neg fun h => hname h.2] at hrest
    exact hrest

/-- Of two lists of bindings the later one counts. -/
theorem lastIn_append (name : Text) (values more : List (Text × Value)) :
    lastIn name (values ++ more) = (lastIn name more).or (lastIn name values) := by
  induction values with
  | nil => simp [lastIn]
  | cons first rest ih => rw [List.cons_append, lastIn, lastIn, ih, Option.or_assoc]

theorem lastIn_eq_none {name : Text} {values : List (Text × Value)}
    (h : ∀ kv ∈ values, kv.1 ≠ name) : lastIn name values = Option.none := by
  induction values with
  | nil => rfl
  | cons first rest ih =>
    obtain ⟨hfirst, hrest⟩ := List.forall_mem_cons.1 h
    rw [lastIn, ih hrest, if_neg hfirst]
    rfl

/-- Reading any field after writing declared ones. -/
theorem get_writeAll_of_declared {s : Statics} {values : List (Text × Value)}
    (h : ∀ kv ∈ values, s.has kv.1 = true) (name : Text) :
    (s.writeAll values).get name = (lastIn name values).getD (s.get name) := by
  by_cases hname : name ∈ s.names
  · exact get_writeAll_eq hname values
  · have hnone : lastIn name values = Option.none := lastIn_eq_none fun kv hkv heq =>
      hname (heq ▸ List.contains_iff_mem.1 (h kv hkv))
    rw [get_writeAll_of_not_mem hname, hnone]
    rfl

theorem undeclared?_eq_none {s : Statics} {values : List (Text × Value)}
    (h : ∀ kv ∈ values, s.has kv.1 = true) : s.undeclared? values = Option.none := by
  rw [undeclared?, Option.map_eq_none_iff, List.find?_eq_none]
  intro kv hkv
  simp [h kv hkv]

end Statics

namespace Machine

variable {m m' m'' : Machine}

/-! ### Objects at the end of the heap -/

/-- The machine with objects put at the end of its heap. -/
def withObjects (m : Machine) (objects : List Object) : Machine :=
  { m with objects := m.objects ++ objects.toArray }

theorem objectAt_append {objects : List Object} (h : m'.objects = m.objects ++ objects.toArray)
    (i : Nat) : m'.objectAt (m.objects.size + i) = objects[i]?.getD Object.blank := by
  rw [objectAt, h, Array.getElem?_append_right (Nat.le_add_right _ _), Nat.add_sub_cancel_left,
    List.getElem?_toArray]

theorem objectAt_append_of_lt {objects : List Object}
    (h : m'.objects = m.objects ++ objects.toArray) {o : ObjectId} (ho : o < m.objects.size) :
    m'.objectAt o = m.objectAt o := by
  rw [objectAt, objectAt, h, Array.getElem?_append_left ho]

theorem getElement_eq {o : ObjectId} {i : Nat} {v : Value}
    (h : (m.objectAt o).elementList[i]? = some v) : m.getElement o i = .ok v := by
  have hsome : (m.objectAt o).elementList[(i : Int).toNat]? = some v := h
  unfold getElement
  rw [hsome]

/-- Objects have been put at the end of the heap, and the ones that were there are as they were. -/
def Grown (m m' : Machine) : Prop :=
  ∃ objects : List Object, m'.objects = m.objects ++ objects.toArray

theorem Grown.of_eq (h : m'.objects = m.objects) : m.Grown m' :=
  ⟨[], h.trans Array.append_empty.symm⟩

theorem Grown.refl (m : Machine) : m.Grown m := .of_eq rfl

theorem Grown.trans (h : m.Grown m') (h' : m'.Grown m'') : m.Grown m'' := by
  obtain ⟨first, hfirst⟩ := h
  obtain ⟨second, hsecond⟩ := h'
  exact ⟨first ++ second, by rw [hsecond, hfirst]; simp⟩

theorem Grown.objectAt (h : m.Grown m') {o : ObjectId} (ho : o < m.objects.size) :
    m'.objectAt o = m.objectAt o := by
  obtain ⟨objects, hobjects⟩ := h
  exact objectAt_append_of_lt hobjects ho

theorem Grown.size_le (h : m.Grown m') : m.objects.size ≤ m'.objects.size := by
  obtain ⟨objects, hobjects⟩ := h
  rw [hobjects, Array.size_append]
  exact Nat.le_add_right _ _

theorem withObjects_withObjects (m : Machine) (first second : List Object) :
    (m.withObjects first).withObjects second = m.withObjects (first ++ second) := by
  simp [withObjects]

theorem grown_withObjects (m : Machine) (objects : List Object) :
    m.Grown (m.withObjects objects) := ⟨objects, rfl⟩

theorem withObjects_nil (m : Machine) : m.withObjects [] = m := by simp [withObjects]

theorem size_withObjects (m : Machine) (objects : List Object) :
    (m.withObjects objects).objects.size = m.objects.size + objects.length := by
  simp [withObjects]

theorem updateObject_withObjects (m : Machine) (before : List Object) (x : Object)
    (after : List Object) (f : Object → Object) :
    (m.withObjects (before ++ x :: after)).updateObject (m.objects.size + before.length) f
      = m.withObjects (before ++ f x :: after) := by
  refine congrArg (fun objects => { m with objects := objects }) (Array.ext_getElem? fun j => ?_)
  simp only [withObjects, Array.getElem?_modify, Array.getElem?_append, List.getElem?_toArray,
    List.getElem?_append, List.getElem?_cons]
  by_cases hj : m.objects.size + before.length = j
  · have hnot : ¬ j < m.objects.size := by omega
    have hplace : j - m.objects.size = before.length := by omega
    simp only [hj, hnot, hplace, if_true, if_false, Nat.lt_irrefl, Nat.sub_self, Option.map_some]
  · rw [if_neg hj]
    by_cases hlt : j - m.objects.size < before.length
    · simp only [hlt, if_true]
    · by_cases hsize : j < m.objects.size
      · simp only [hsize, if_true]
      · have hlater : j - m.objects.size - before.length ≠ 0 := by omega
        simp only [hlater, if_false]

theorem calm_withObjects (m : Machine) (objects : List Object) : m.Calm (m.withObjects objects) :=
  .of_classes_eq rfl rfl

theorem evolves_withObjects (m : Machine) (objects : List Object) :
    m.Evolves (m.withObjects objects) :=
  (m.calm_withObjects objects).evolves

/-! ### Assigned statics -/

/-- The machine with declared statics of a class assigned. -/
def assigned (m : Machine) (c : ClassId) (values : List (Text × Value)) : Machine :=
  m.setStatics c ((m.classAt c).statics.writeAll values)

theorem calm_assigned (m : Machine) (c : ClassId) (values : List (Text × Value)) :
    m.Calm (m.assigned c values) :=
  calm_setStatics (Statics.names_writeAll _ _)

theorem evolves_assigned (m : Machine) (c : ClassId) (values : List (Text × Value)) :
    m.Evolves (m.assigned c values) :=
  (m.calm_assigned c values).evolves

theorem setAllStatics_eq_ok {c : ClassId} {values : List (Text × Value)}
    (h : ∀ kv ∈ values, (m.classAt c).statics.has kv.1 = true) :
    m.setAllStatics c values = .ok (m.assigned c values) := by
  rw [setAllStatics, Statics.setAll?, Statics.undeclared?_eq_none h]
  rfl

theorem setStatic_eq_ok {c : ClassId} {name : Text} {v : Value}
    (h : (m.classAt c).statics.has name = true) :
    m.setStatic c name v = .ok (m.assigned c [(name, v)]) := by
  rw [setStatic, Statics.set?, if_pos h]
  rfl

/-- The fields of a class that exists are what was written. -/
theorem static_assigned {c : ClassId} {values : List (Text × Value)} (hc : c < m.classes.size)
    (name : Text) :
    (m.assigned c values).static c name = ((m.classAt c).statics.writeAll values).get name := by
  rw [static, assigned, setStatics, classAt_updateClass, if_pos ⟨rfl, hc⟩]

/-- A class that does not exist declares nothing. -/
theorem lt_size_of_has {c : ClassId} {name : Text} (h : (m.classAt c).statics.has name = true) :
    c < m.classes.size := by
  by_contra hge
  rw [classAt_of_size_le (Nat.not_lt.1 hge)] at h
  cases h

theorem static_assigned_of_declared {c : ClassId} {values : List (Text × Value)}
    (h : ∀ kv ∈ values, (m.classAt c).statics.has kv.1 = true) (name : Text) :
    (m.assigned c values).static c name
      = (Statics.lastIn name values).getD (m.static c name) := by
  cases values with
  | nil =>
    rw [static, assigned, setStatics, classAt_updateClass]
    split <;> rfl
  | cons kv rest =>
    rw [static_assigned (lt_size_of_has (h kv List.mem_cons_self)),
      Statics.get_writeAll_of_declared h]
    rfl

/-! ### Filling -/

/-- Objects have been put at the end of the heap, statics of the class `c` have been assigned, and
nothing else has changed. -/
structure Fills (c : ClassId) (objects : List Object) (m m' : Machine) : Prop where
  evolves : m.Evolves m'
  objects : m'.objects = m.objects ++ objects.toArray
  statics : ∀ k, k ≠ c → (m'.classAt k).statics = (m.classAt k).statics
  states : ∀ k, m'.stateOf k = m.stateOf k
  linkage : m'.linkage = m.linkage

theorem fills_refl (m : Machine) (c : ClassId) : Fills c [] m m :=
  ⟨Evolves.refl m, Array.append_empty.symm, fun _ _ => rfl, fun _ => rfl, rfl⟩

theorem fills_withObjects (m : Machine) (c : ClassId) (objects : List Object) :
    Fills c objects m (m.withObjects objects) :=
  ⟨evolves_withObjects m objects, rfl, fun _ _ => rfl, fun _ => rfl, rfl⟩

theorem fills_assigned (m : Machine) (c : ClassId) (values : List (Text × Value)) :
    Fills c [] m (m.assigned c values) where
  evolves := evolves_assigned m c values
  objects := Array.append_empty.symm
  statics k hk := by rw [assigned, setStatics, classAt_updateClass, if_neg fun h => hk h.1]
  states k := by
    rw [stateOf, assigned, setStatics, classAt_updateClass]
    split <;> rfl
  linkage := rfl

theorem Fills.trans {c : ClassId} {first second : List Object} (h : Fills c first m m')
    (h' : Fills c second m' m'') : Fills c (first ++ second) m m'' where
  evolves := h.evolves.trans h'.evolves
  objects := by rw [h'.objects, h.objects]; simp
  statics k hk := (h'.statics k hk).trans (h.statics k hk)
  states k := (h'.states k).trans (h.states k)
  linkage := h'.linkage.trans h.linkage

theorem Fills.static {c k : ClassId} {objects : List Object} (h : Fills c objects m m')
    (hk : k ≠ c) (name : Text) : m'.static k name = m.static k name := by
  rw [Machine.static, Machine.static, h.statics k hk]

theorem Fills.size {c : ClassId} {objects : List Object} (h : Fills c objects m m') :
    m'.objects.size = m.objects.size + objects.length := by
  rw [h.objects]
  simp

theorem Fills.objectAt {c : ClassId} (h : Fills c [] m m') (o : ObjectId) :
    m'.objectAt o = m.objectAt o := by
  rw [Machine.objectAt, Machine.objectAt, h.objects]
  simp

end Machine

end ClassSharing
