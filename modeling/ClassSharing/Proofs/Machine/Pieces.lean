import ClassSharing.Proofs.Machine.Heap

/-!
# The pieces of running code

Code that moves no class does four kinds of things to a machine: it puts objects at the end of the
heap, writes a slot, writes an element, or assigns statics that are declared. What holds of each of
them holds of everything that such code does, so the code itself has to be gone through only once,
and not once for each property.

## Main definitions

* `Machine.Piece`: one thing that code does

## Main results

* `Machine.Piece.calm`: it moves no class
* `Machine.Piece.size_le`: it removes nothing from the heap
-/

namespace ClassSharing

namespace Machine

/-- One thing that running code does to a machine, other than moving a class. -/
inductive Piece (m : Machine) : Machine → Prop where
  | placed (objects : List Object) : Piece m (m.withObjects objects)
  | slot (o : ObjectId) (i : Nat) (v : Value) : Piece m (m.writeSlot o i v)
  | element (o : ObjectId) (i : Nat) (v : Value) : Piece m (m.writeElement o i v)
  | statics {c : ClassId} {s : Statics} (h : s.names = (m.classAt c).statics.names) :
      Piece m (m.setStatics c s)

variable {m m' : Machine}

theorem Piece.calm (h : m.Piece m') : m.Calm m' := by
  cases h with
  | placed objects => exact m.calm_withObjects objects
  | slot o i v => exact .of_classes_eq rfl rfl
  | element o i v => exact .of_classes_eq rfl rfl
  | statics h => exact calm_setStatics h

theorem Piece.size_le (h : m.Piece m') : m.objects.size ≤ m'.objects.size := by
  cases h with
  | placed objects =>
    rw [size_withObjects]
    exact Nat.le_add_right _ _
  | slot o i v => exact Nat.le_of_eq Array.size_modify.symm
  | element o i v => exact Nat.le_of_eq Array.size_modify.symm
  | statics h => exact Nat.le_refl _

/-! ### Operations that are one piece -/

theorem piece_allocate (m : Machine) (o : Object) : m.Piece (m.allocate o).2 := by
  have hplaced : (m.allocate o).2 = m.withObjects [o] :=
    congrArg (fun objects => { m with objects := objects }) Array.push_eq_append
  rw [hplaced]
  exact .placed [o]

theorem eq_of_instantiateIndexed_eq_ok {c : ClassId} {size : Int} {made : ObjectId × Machine}
    (h : m.instantiateIndexed c size = .ok made) :
    made = m.instantiateWith c (List.replicate size.toNat .nil) := by
  rw [instantiateIndexed] at h
  split at h
  · cases h
  · exact (Except.ok.inj h).symm

theorem piece_instantiateIndexed {c : ClassId} {size : Int} {o : ObjectId}
    (h : m.instantiateIndexed c size = .ok (o, m')) : m.Piece m' := by
  obtain ⟨-, rfl⟩ := Prod.mk.inj (eq_of_instantiateIndexed_eq_ok h)
  exact piece_allocate m _

/-- An assignment that is not refused writes the slot that the name stands for. -/
theorem exists_of_setField_eq_ok {o : ObjectId} {name : Text} {v : Value}
    (h : m.setField o name v = .ok m') :
    ∃ i, m.fieldIndex o name = .ok i ∧ m' = m.writeSlot o i v := by
  rw [setField] at h
  split at h
  · cases h
  · rename_i i hi
    split at h
    · exact ⟨i, hi, (Except.ok.inj h).symm⟩
    · cases h

theorem piece_setField {o : ObjectId} {name : Text} {v : Value}
    (h : m.setField o name v = .ok m') : m.Piece m' := by
  obtain ⟨i, -, rfl⟩ := exists_of_setField_eq_ok h
  exact .slot o i v

theorem piece_setElement {o : ObjectId} {i : Int} {v : Value}
    (h : m.setElement o i v = .ok m') : m.Piece m' := by
  rw [setElement] at h
  split at h
  · obtain rfl := Except.ok.inj h
    exact .element o _ v
  · cases h

theorem piece_setStatic {c : ClassId} {name : Text} {v : Value}
    (h : m.setStatic c name v = .ok m') : m.Piece m' := by
  rw [setStatic, Statics.set?] at h
  split at h
  · rename_i s hs
    split at hs
    · obtain rfl := Option.some.inj hs
      obtain rfl := Except.ok.inj h
      exact .statics (Statics.names_write _ _ _)
    · cases hs
  · cases h

theorem piece_setAllStatics {c : ClassId} {values : List (Text × Value)}
    (h : m.setAllStatics c values = .ok m') : m.Piece m' := by
  rw [setAllStatics, Statics.setAll?] at h
  split at h
  · rename_i s hs
    split at hs
    · cases hs
    · obtain rfl := Except.ok.inj hs
      obtain rfl := Except.ok.inj h
      exact .statics (Statics.names_writeAll _ _)
  · cases h

end Machine

end ClassSharing
