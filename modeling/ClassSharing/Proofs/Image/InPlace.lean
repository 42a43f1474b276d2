import ClassSharing.Proofs.Image.Consistent

/-!
# Building in two passes

References may point forwards, so objects can be built one by one only if blank objects are put on
the heap first and their slots and elements are assigned afterwards. Assigning is an operation that
panics outside the object. It never does here, because the first pass gives every object as many
slots and elements as the second pass assigns: both passes read the same record. So building in two
passes is building all objects at once, with the same fault for the same record.

The second pass is described by the machine as a function of the list that is being filled, so slots
and elements are one case.

## Main definitions

* `Image.fillFrom`: assigns the decoded values of a list, one after another
* `Image.Subgraph.buildInPlace`: the two passes

## Main results

* `Image.fillFrom_eq`: filling a list that is long enough does not panic
* `Image.Subgraph.buildInPlace_eq`: the two passes give what building all objects at once gives
-/

namespace ClassSharing

namespace Image

/-- A computation that may fault but does not panic, with its result seen in another way. -/
def faulting {α β : Type} (f : α → β) : Except Fault α → Except Failure β
  | .ok a => .ok (f a)
  | .error fault => .error (.fault fault)

/-! ### The passes -/

/-- Assigns the decoded values of records at the positions from `j` on. -/
def fillFrom (set : Machine → Int → Value → Except Panic Machine) (start count : Nat) :
    Machine → Nat → List ValueRecord → Except Failure Machine
  | m, _, [] => .ok m
  | m, j, v :: rest =>
    match v.toValue start count with
    | .error fault => .error (.fault fault)
    | .ok x =>
      match set m j x with
      | .error p => .error (.panic p)
      | .ok m => fillFrom set start count m (j + 1) rest

/-- The first pass: a blank object for each record, if the record fits its class. An object gets as
many elements as its record lists, so there is room for them. -/
def blankAll (allowed : Table ClassId) :
    Machine → Nat → List ObjectRecord → Except Failure Machine
  | m, _, [] => .ok m
  | m, i, r :: rest =>
    match r.fit m allowed i with
    | .error fault => .error (.fault fault)
    | .ok k =>
      let made := if r.indexed
        then m.instantiateWith k (List.replicate (r.elements.getD []).length .nil)
        else m.instantiate k
      blankAll allowed made.2 (i + 1) rest

/-- The second pass: the slots and the elements of the objects from number `i` on. -/
def fillAll (start count : Nat) : Machine → Nat → List ObjectRecord → Except Failure Machine
  | m, _, [] => .ok m
  | m, i, r :: rest => do
    let m ← fillFrom (fun m => m.setSlot (start + i)) start count m 0 (r.slots.getD [])
    let m ← fillFrom (fun m => m.setElement (start + i)) start count m 0 (r.elements.getD [])
    fillAll start count m (i + 1) rest

/-- The machine with the objects of a record, built in two passes, and the values of the fields. -/
def Subgraph.buildInPlace (r : Subgraph) (m : Machine) (allowed : Table ClassId) :
    Except Failure (Machine × List (Text × Value)) := do
  let records := r.objects.getD []
  let start := m.objects.size
  let blank ← blankAll allowed m 0 records
  let filled ← fillAll start records.length blank 0 records
  faulting (fun values => (filled, values)) ((r.fields.getD []).mapM fun f => do
    return (f.name, ← f.value.toValue start records.length))

/-! ### Filling one list -/

theorem faulting_pure {α β γ : Type} (f : β → γ) (x : Except Fault α) (g : α → β) :
    faulting f (x >>= fun a => pure (g a)) = faulting (f ∘ g) x := by
  cases x <;> rfl

section Filling

variable {start count : Nat}

/-- **Filling a list that is long enough does not panic.** The machine is a function of the list
that is being filled. -/
theorem fillFrom_eq {set : Machine → Int → Value → Except Panic Machine}
    (shape : List Value → Machine)
    (hset : ∀ (done : List Value) (x blank : Value) (rest : List Value),
      set (shape (done ++ blank :: rest)) done.length x = .ok (shape (done ++ x :: rest)))
    (done : List Value) {blanks : List Value} {vs : List ValueRecord}
    (hlength : blanks.length = vs.length) :
    fillFrom set start count (shape (done ++ blanks)) done.length vs
      = faulting (fun xs => shape (done ++ xs))
        (vs.mapM fun (v : ValueRecord) => v.toValue start count) := by
  induction vs generalizing done blanks with
  | nil =>
    rw [List.eq_nil_of_length_eq_zero hlength]
    rfl
  | cons v rest ih =>
    obtain ⟨blank, blanks, rfl⟩ := List.exists_cons_of_length_eq_add_one hlength
    rw [fillFrom, List.mapM_cons]
    cases hv : v.toValue start count with
    | error fault => rfl
    | ok x =>
      have hrest := ih (done ++ [x]) (Nat.succ.inj hlength)
      rw [List.append_assoc, List.length_append, List.length_singleton, List.singleton_append]
        at hrest
      simp only [hset, hrest, List.append_assoc, List.singleton_append]
      cases rest.mapM fun (v : ValueRecord) => v.toValue start count <;> rfl

variable (m : Machine) (before after : List Object) {blanks : List Value} {vs : List ValueRecord}

theorem objectAt_withObjects (o : Object) :
    (m.withObjects (before ++ o :: after)).objectAt (m.objects.size + before.length) = o := by
  rw [Machine.objectAt_append rfl, List.getElem?_append_right (Nat.le_refl _), Nat.sub_self]
  rfl

theorem setSlot_withObjects (k : Option ClassId) (elements : Option (List Value))
    (done : List Value) (x blank : Value) (rest : List Value) :
    (m.withObjects (before ++ ⟨k, done ++ blank :: rest, elements⟩ :: after)).setSlot
        (m.objects.size + before.length) done.length x
      = .ok (m.withObjects (before ++ ⟨k, done ++ x :: rest, elements⟩ :: after)) := by
  have hinside : (decide ((0 : Int) ≤ done.length)
      && decide ((done.length : Int).toNat < (done ++ blank :: rest).length)) = true := by
    simp
  rw [Machine.setSlot, objectAt_withObjects, if_pos hinside, Machine.writeSlot,
    Machine.updateObject_withObjects]
  simp

theorem setElement_withObjects (k : Option ClassId) (slots : List Value)
    (done : List Value) (x blank : Value) (rest : List Value) :
    (m.withObjects (before ++ ⟨k, slots, some (done ++ blank :: rest)⟩ :: after)).setElement
        (m.objects.size + before.length) done.length x
      = .ok (m.withObjects (before ++ ⟨k, slots, some (done ++ x :: rest)⟩ :: after)) := by
  have hinside : (decide ((0 : Int) ≤ done.length)
      && decide ((done.length : Int).toNat < (done ++ blank :: rest).length)) = true := by
    simp
  rw [Machine.setElement, objectAt_withObjects]
  refine (if_pos hinside).trans ?_
  rw [Machine.writeElement, Machine.updateObject_withObjects]
  simp

theorem fillSlots_eq (k : Option ClassId) (elements : Option (List Value))
    (hlength : blanks.length = vs.length) :
    fillFrom (fun m' => m'.setSlot (m.objects.size + before.length)) start count
        (m.withObjects (before ++ ⟨k, blanks, elements⟩ :: after)) 0 vs
      = faulting (fun xs => m.withObjects (before ++ ⟨k, xs, elements⟩ :: after))
        (vs.mapM fun (v : ValueRecord) => v.toValue start count) :=
  fillFrom_eq (fun xs => m.withObjects (before ++ ⟨k, xs, elements⟩ :: after))
    (setSlot_withObjects m before after k elements) [] hlength

theorem fillElements_eq (k : Option ClassId) (slots : List Value)
    (hlength : blanks.length = vs.length) :
    fillFrom (fun m' => m'.setElement (m.objects.size + before.length)) start count
        (m.withObjects (before ++ ⟨k, slots, some blanks⟩ :: after)) 0 vs
      = faulting (fun xs => m.withObjects (before ++ ⟨k, slots, some xs⟩ :: after))
        (vs.mapM fun (v : ValueRecord) => v.toValue start count) :=
  fillFrom_eq (fun xs => m.withObjects (before ++ ⟨k, slots, some xs⟩ :: after))
    (setElement_withObjects m before after k slots) [] hlength

end Filling

/-! ### Both passes -/

/-- A blank object with the slots of its class and the elements of its record. -/
def ObjectRecord.blank (m : Machine) (r : ObjectRecord) (k : ClassId) : Object :=
  ⟨some k, List.replicate (m.classAt k).slotCount .nil,
    if r.indexed then some (List.replicate (r.elements.getD []).length .nil) else none⟩

section Passes

variable {m : Machine} {allowed : Table ClassId}

theorem allocate_withObjects (done : List Object) (o : Object) :
    ((m.withObjects done).allocate o).2 = m.withObjects (done ++ [o]) := by
  simp [Machine.allocate, Machine.withObjects]

theorem fit_withObjects (r : ObjectRecord) (objects : List Object) (i : Nat) :
    r.fit (m.withObjects objects) allowed i = r.fit m allowed i := rfl

/-- **The first pass.** -/
theorem blankAll_eq (done : List Object) (i : Nat) (records : List ObjectRecord) :
    blankAll allowed (m.withObjects done) i records
      = faulting (fun fitting =>
          m.withObjects (done ++ (records.zip fitting).map fun p => p.1.blank m p.2))
        ((records.zipIdx i).mapM fun (p : ObjectRecord × Nat) => p.1.fit m allowed p.2) := by
  induction records generalizing done i with
  | nil =>
    change Except.ok (m.withObjects done) = Except.ok (m.withObjects (done ++ []))
    rw [List.append_nil]
  | cons r rest ih =>
    rw [blankAll, fit_withObjects, List.zipIdx_cons, List.mapM_cons]
    cases hfit : r.fit m allowed i with
    | error fault => rfl
    | ok k =>
      have hmade : (if r.indexed
          then (m.withObjects done).instantiateWith k
            (List.replicate (r.elements.getD []).length .nil)
          else (m.withObjects done).instantiate k).2 = m.withObjects (done ++ [r.blank m k]) := by
        rw [ObjectRecord.blank, ← allocate_withObjects]
        cases r.indexed <;> rfl
      have hrest := ih (done ++ [r.blank m k]) (i + 1)
      simp only [hmade, hrest, List.append_assoc, List.singleton_append]
      cases (rest.zipIdx (i + 1)).mapM fun (p : ObjectRecord × Nat) => p.1.fit m allowed p.2 <;> rfl

/-- The second pass over one object. -/
theorem fillObject_eq (count : Nat) {k : ClassId} {r : ObjectRecord} {i : Nat}
    (hfit : r.fit m allowed i = .ok k) (before after : List Object) :
    (fillFrom (fun m' => m'.setSlot (m.objects.size + before.length)) m.objects.size count
        (m.withObjects (before ++ r.blank m k :: after)) 0 (r.slots.getD []) >>= fun m' =>
      fillFrom (fun m' => m'.setElement (m.objects.size + before.length)) m.objects.size count
        m' 0 (r.elements.getD []))
      = faulting (fun o => m.withObjects (before ++ o :: after))
        (r.toObject k m.objects.size count) := by
  obtain ⟨-, hslots, hplain⟩ := ObjectRecord.fit_eq_ok_iff.1 hfit
  have hcount : (List.replicate (m.classAt k).slotCount Value.nil).length
      = (r.slots.getD []).length := by rw [List.length_replicate, hslots]
  rw [ObjectRecord.blank, fillSlots_eq m before after (some k) _ hcount, ObjectRecord.toObject]
  cases (r.slots.getD []).mapM fun (v : ValueRecord) => v.toValue m.objects.size count with
  | error fault => rfl
  | ok slots =>
    cases hindexed : r.indexed with
    | true =>
      refine (fillElements_eq m before after (some k) slots (List.length_replicate ..)).trans ?_
      cases (r.elements.getD []).mapM fun (v : ValueRecord) => v.toValue m.objects.size count <;>
        rfl
    | false =>
      rw [hplain hindexed]
      rfl

/-- **The second pass.** -/
theorem fillAll_eq (count : Nat) {records : List ObjectRecord} {fitting : List ClassId} {i : Nat}
    (hfitting : (records.zipIdx i).mapM (fun (p : ObjectRecord × Nat) => p.1.fit m allowed p.2)
      = .ok fitting) (done : List Object) :
    fillAll m.objects.size count
        (m.withObjects (done ++ (records.zip fitting).map fun p => p.1.blank m p.2))
        done.length records
      = faulting (fun objects => m.withObjects (done ++ objects))
        ((records.zip fitting).mapM fun (p : ObjectRecord × ClassId) =>
          p.1.toObject p.2 m.objects.size count) := by
  induction records generalizing fitting i done with
  | nil => rfl
  | cons r rest ih =>
    rw [List.zipIdx_cons, List.mapM_cons] at hfitting
    obtain ⟨k, hfit, hfitting⟩ := exceptBind_eq_ok_iff.1 hfitting
    obtain ⟨others, hothers, hfitting⟩ := exceptBind_eq_ok_iff.1 hfitting
    obtain rfl := Except.ok.inj hfitting
    have hfirst := fillObject_eq count hfit done ((rest.zip others).map fun p => p.1.blank m p.2)
    rw [List.zip_cons_cons, List.map_cons, List.mapM_cons, fillAll, ← bind_assoc, hfirst]
    cases hobject : r.toObject k m.objects.size count with
    | error fault => rfl
    | ok o =>
      have hrest := ih hothers (done ++ [o])
      rw [List.append_assoc, List.length_append, List.length_singleton, List.singleton_append]
        at hrest
      change fillAll m.objects.size count _ (done.length + 1) rest = _
      rw [hrest]
      simp only [List.append_assoc, List.singleton_append]
      cases (rest.zip others).mapM fun (p : ObjectRecord × ClassId) =>
        p.1.toObject p.2 m.objects.size count <;> rfl

/-- **Building in two passes is building all objects at once.** -/
theorem Subgraph.buildInPlace_eq (r : Subgraph) (m : Machine) (allowed : Table ClassId) :
    r.buildInPlace m allowed
      = faulting (fun made => (m.withObjects made.1, made.2)) (r.materialize m allowed) := by
  have hempty : m.withObjects [] = m := by simp [Machine.withObjects]
  have hblank := @blankAll_eq m allowed [] 0 (r.objects.getD [])
  rw [hempty] at hblank
  rw [buildInPlace, materialize, fitAll]
  simp only [hblank]
  cases hfitting : (r.objects.getD []).zipIdx.mapM
      fun (p : ObjectRecord × Nat) => p.1.fit m allowed p.2 with
  | error fault => rfl
  | ok fitting =>
    have hfill := fillAll_eq (r.objects.getD []).length hfitting []
    rw [List.nil_append] at hfill
    change (fillAll m.objects.size (r.objects.getD []).length
      (m.withObjects (((r.objects.getD []).zip fitting).map fun p => p.1.blank m p.2))
      ([] : List Object).length (r.objects.getD []) >>= fun filled => _) = _
    rw [hfill]
    change _ = faulting _ (((r.objects.getD []).zip fitting).mapM
      (fun (p : ObjectRecord × ClassId) =>
        p.1.toObject p.2 m.objects.size (r.objects.getD []).length) >>= fun objects => _)
    cases ((r.objects.getD []).zip fitting).mapM fun (p : ObjectRecord × ClassId) =>
        p.1.toObject p.2 m.objects.size (r.objects.getD []).length with
    | error fault => rfl
    | ok objects =>
      exact (faulting_pure (fun made => (m.withObjects made.1, made.2)) _
        fun values => (objects, values)).symm

end Passes

end Image

end ClassSharing
