import ClassSharing.Proofs.Machine.Graph
import ClassSharing.Proofs.Session.AllOrNothing
import ClassSharing.Proofs.Session.Calls

/-!
# Separation

Restoring a class writes slots and elements through references that a record has brought along, and
the record may be anything. Two things keep these writes away from all that was there before. A
reference is an index into the objects of the same record and is checked against their number; and
the objects of the record lie at the end of the heap, in places that nothing had before. So a
restoration changes no object, and what it restores is a region of the heap that refers only to
itself.

Nobody else gets that region. The heap never shrinks, whatever runs, and the next restoration puts
its objects behind what is there. That says nothing about which class it is for, or which machine
on the same heap, or whether it reads the same record.

What is compared is not the session before the call with the one after it: the call also has classes
initialized, and their initializers may do anything. The comparison starts where they leave off.

## Main definitions

* `Machine.Spares`: nothing has changed but the statics of one class, and the heap at its end
* `Session.triggered`: the session that the initializations leave which a call triggers
* `Session.restoredFields`: the fields that a call assigns
* `Session.Separated`: what a call to restore a class leaves alone, and what it restores

## Main results

* `Machine.Spares.reaches_iff`: graphs that existed are as they were
* `Session.reaches_filled`: the restored graph lies in its own region
* `Session.grows_callAll`: no run makes the heap smaller
* `Session.restoration_separated`: restorations touch nothing else and share nothing
-/

namespace ClassSharing

open Image

/-! ### Regions of the heap -/

/-- The value leads to no object but those from one place on up to another. -/
def Value.Inside (start stop : Nat) : Value → Prop
  | .obj o => start ≤ o ∧ o < stop
  | _ => True

namespace Machine

variable {m m' : Machine} {c : ClassId} {roots : List Value} {start stop : Nat}

/-- **A region that refers only to itself** is not left. -/
theorem Reaches.inside {o : ObjectId} (h : m.Reaches roots o)
    (hroots : ∀ v ∈ roots, v.Inside start stop)
    (hheap : ∀ o, start ≤ o → o < stop → ∀ v ∈ (m.objectAt o).contents, v.Inside start stop) :
    start ≤ o ∧ o < stop :=
  h.induct (p := fun o => start ≤ o ∧ o < stop) (fun _ ho => hroots _ ho)
    fun _ _ ho hq => hheap _ ho.1 ho.2 _ hq

/-- Nothing of a machine has changed but the values of the statics of the class `c`, and its heap at
the end. -/
structure Spares (c : ClassId) (m m' : Machine) : Prop where
  heap : m.objects.size ≤ m'.objects.size
  /-- The objects that existed have the slots and elements that they had. -/
  objects : ∀ o < m.objects.size, m'.objectAt o = m.objectAt o
  /-- Of other classes neither the definitions nor the states nor the statics have changed. -/
  classes : ∀ k ≠ c, m'.classAt k = m.classAt k
  own : m'.classAt c = { m.classAt c with statics := (m'.classAt c).statics }
  declared : (m'.classAt c).statics.names = (m.classAt c).statics.names
  classCount : m'.classes.size = m.classes.size
  names : m'.names = m.names
  linkage : m'.linkage = m.linkage

theorem Spares.refl (m : Machine) (c : ClassId) : m.Spares c m where
  heap := Nat.le_refl _
  objects _ _ := rfl
  classes _ _ := rfl
  own := rfl
  declared := rfl
  classCount := rfl
  names := rfl
  linkage := rfl

theorem spares_filled (m : Machine) (c : ClassId) (objects : List Object)
    (values : List (Text × Value)) : m.Spares c ((m.withObjects objects).assigned c values) where
  heap := Nat.le.intro (m.size_withObjects objects).symm
  objects o ho := by
    have hheap : ((m.withObjects objects).assigned c values).objects
        = m.objects ++ objects.toArray := rfl
    exact objectAt_append_of_lt hheap ho
  classes k hk := by
    rw [assigned, setStatics, classAt_updateClass, if_neg fun h => hk h.1]
    rfl
  own := by
    rw [assigned, setStatics, classAt_updateClass]
    split <;> rfl
  declared := by
    rw [assigned, setStatics, classAt_updateClass]
    split
    · exact Statics.names_writeAll _ _
    · rfl
  classCount := Array.size_modify
  names := rfl
  linkage := rfl

/-- **Graphs that existed are as they were.** -/
theorem Spares.reaches_iff (h : m.Spares c m')
    (hexist : ∀ o, m.Reaches roots o → o < m.objects.size) (o : ObjectId) :
    m'.Reaches roots o ↔ m.Reaches roots o := by
  constructor
  · intro hreach
    induction hreach with
    | root hmem => exact .root hmem
    | step _ hmem ih =>
      rw [h.objects _ (hexist _ ih)] at hmem
      exact .step ih hmem
  · intro hreach
    induction hreach with
    | root hmem => exact .root hmem
    | step ho hmem ih =>
      rw [← h.objects _ (hexist _ ho)] at hmem
      exact .step ih hmem

end Machine

/-! ### What is built for a record -/

namespace Image

section Built

variable {start count : Nat}

theorem ValueRecord.Denotes.inside {v : ValueRecord} {x : Value} (h : v.Denotes start count x) :
    x.Inside start (start + count) := by
  cases h with
  | obj _ _ hlt => exact ⟨Nat.le_add_right _ _, Nat.add_lt_add_left hlt _⟩
  | nil _ => trivial
  | int _ => trivial
  | bool _ => trivial
  | str _ => trivial

theorem ObjectRecord.Builds.inside {k : ClassId} {o : ObjectRecord} {x : Object}
    (h : o.Builds start count k x) : ∀ v ∈ x.contents, v.Inside start (start + count) := by
  refine List.forall_mem_append.2 ⟨fun v hv => ?_, fun v hv => ?_⟩
  · obtain ⟨_, -, hdenotes⟩ := exists_mem_of_forall₂ h.slots hv
    exact hdenotes.inside
  · obtain ⟨_, -, hdenotes⟩ := exists_mem_of_forall₂ h.elements hv
    exact hdenotes.inside

/-- The names of the fields that a record lists. -/
def Subgraph.fieldNames (r : Subgraph) : List Text := (r.fields.getD []).map FieldRecord.name

theorem Subgraph.lastField_eq_none_iff {r : Subgraph} {name : Text} :
    r.lastField name = none ↔ name ∉ r.fieldNames := by
  rw [lastField, List.getLast?_eq_none_iff, List.filter_eq_nil_iff, fieldNames, List.mem_map]
  simp only [decide_eq_true_eq, not_exists, not_and]

end Built

end Image

namespace Session

section Filled

variable {m : Machine} {c : ClassId} {r : Subgraph} {classes : Text → Option ClassId}
  {objects : List Object} {values : List (Text × Value)}

/-- **The restored graph lies in its own region**: the fields of the record lead to no other objects
than those that have been built for it. -/
theorem reaches_filled (hbuilt : r.Built classes m.objects.size objects values)
    (hdeclared : ∀ kv ∈ values, (m.classAt c).statics.has kv.1 = true) {o : ObjectId}
    (ho : ((m.withObjects objects).assigned c values).Reaches
      (r.fieldNames.map (((m.withObjects objects).assigned c values).static c)) o) :
    m.objects.size ≤ o ∧ o < m.objects.size + objects.length := by
  have hcount : (r.objects.getD []).length = objects.length := hbuilt.objects.length_eq
  refine ho.inside ?_ fun i hi _ => ?_
  · intro v hv
    obtain ⟨name, hname, rfl⟩ := List.mem_map.1 hv
    rw [Machine.static_assigned_of_declared (m := m.withObjects objects) hdeclared]
    have hlast := hbuilt.lastIn name
    generalize Statics.lastIn name values = x at hlast ⊢
    generalize hfield : r.lastField name = field at hlast
    cases hlast with
    | none => exact absurd hname (Subgraph.lastField_eq_none_iff.1 hfield)
    | some hdenotes => exact hcount ▸ hdenotes.inside
  · obtain ⟨j, rfl⟩ := Nat.exists_eq_add_of_le hi
    have hplace : ((m.withObjects objects).assigned c values).objectAt (m.objects.size + j)
        = objects[j]?.getD Object.blank := Machine.objectAt_append rfl j
    rw [hplace]
    cases hj : objects[j]? with
    | none => simp [Object.blank, Object.contents, Object.elementList]
    | some x =>
      obtain ⟨_, -, k, -, hbuilds⟩ :=
        exists_mem_of_forall₂ hbuilt.objects (List.mem_of_getElem? hj)
      exact hcount ▸ hbuilds.inside

end Filled

/-! ### The heap never shrinks -/

/-- Whatever has happened, no object has been removed. -/
def Grows (s s' : Session) : Prop := s.machine.objects.size ≤ s'.machine.objects.size

theorem universal_grows : Universal Grows where
  code :=
    { stable := ⟨fun _ => Nat.le_refl _, Nat.le_trans⟩
      aside := fun _ hmachine => by rw [Grows, hmachine]
      piece := fun h => h.size_le }
  note _ _ := Nat.le_refl _
  move _ _ _ := Nat.le_refl _
  outcome _ _ _ _ := Nat.le_refl _

/-- **No run makes the heap smaller.** -/
theorem grows_callAll (s : Session) (calls : List Call) : s.Grows (s.callAll calls) :=
  universal_grows.callAll s calls

/-! ### What a call does -/

/-- Whether a call gets as far as asking for the record: an archive is in use, and no outcome is
recorded for the class. -/
def eligible (s : Session) (g : GraphId) (c : ClassId) : Bool :=
  (isUsing g s).1 && (s.resultOf g c).isNone

/-- The session that the initializations leave which a call to restore a class triggers. -/
def triggered (request : Requester) (g : GraphId) (c : ClassId) (s : Session) : Session :=
  if s.eligible g c then afterRequests request g c (isUsing g s).2 else (isUsing g s).2

/-- The record that a call restores, if it succeeds. -/
def restoredRecord (request : Requester) (g : GraphId) (c : ClassId) (s : Session) :
    Option Subgraph :=
  if s.eligible g c && (restore request g c (isUsing g s).2).1.isOk then
    ((isUsing g s).2.usableRecord g c).toOption
  else none

/-- The fields that a call assigns. -/
def restoredFields (request : Requester) (g : GraphId) (c : ClassId) (s : Session) : List Text :=
  (restoredRecord request g c s).elim [] Subgraph.fieldNames

/-- The session after a call to restore a class. -/
def afterTry (request : Requester) (g : GraphId) (c : ClassId) (s : Session) : Session :=
  (tryRestore request g c s).2

/-- The restored fields lead to an object, right after the call. -/
def RestoresObject (request : Requester) (g : GraphId) (c : ClassId) (s : Session)
    (o : ObjectId) : Prop :=
  (afterTry request g c s).machine.Reaches
    ((restoredFields request g c s).map ((afterTry request g c s).machine.static c)) o

section Calls

variable {request : Requester} {g : GraphId} {c : ClassId} {s : Session}

theorem eligible_eq_true_iff :
    s.eligible g c = true ↔ (isUsing g s).1 = true ∧ s.resultOf g c = none := by
  rw [eligible, Bool.and_eq_true, Option.isNone_iff_eq_none]

/-- What holds of everything that happens in a session holds of what a call triggers. -/
theorem Universal.triggered {R : Session → Session → Prop} (hR : Universal R)
    (hstandard : request.Standard) (g : GraphId) (c : ClassId) (s : Session) :
    R s (triggered request g c s) := by
  have hstable := hR.code.stable
  have hasked := within_isUsing hR.code g s
  rw [Session.triggered]
  split
  · refine hstable.trans hasked ?_
    have hrecord := within_archivedSubgraph hR.code g ((isUsing g s).2.machine.className c)
      (isUsing g s).2
    rw [afterRequests]
    split
    · exact hrecord
    · exact hstable.trans hrecord (hR.prepareClasses (hR.standard hstandard) _ _ _)
  · exact hasked

theorem tryRestore_of_not_eligible (h : s.eligible g c = false) :
    (tryRestore request g c s).2 = (isUsing g s).2 := by
  rw [tryRestore, bind_apply]
  split
  · rename_i hinUse
    rw [bind_apply, get_apply, graphAt_isUsing, machine_isUsing]
    cases hresult : s.resultOf g c with
    | none =>
      rw [eligible, hinUse, hresult] at h
      cases h
    | some earlier =>
      rw [resultOf] at hresult
      simp only [hresult]
      rfl
  · rfl

/-- **How a call ends.** It leaves the machine as the initializations did, or it puts the objects of
its record on the heap and assigns the fields. An outcome is recorded if there has been an attempt.
-/
theorem tryRestore_cases (hstandard : request.Standard) (g : GraphId) (c : ClassId) (s : Session) :
    (s.eligible g c = false ∧ restoredRecord request g c s = none ∧
        (tryRestore request g c s).2 = triggered request g c s) ∨
      (s.eligible g c = true ∧ restoredRecord request g c s = none ∧
        tryRestore request g c s = recordOutcome g (s.machine.className c) .skipped
          (triggered request g c s)) ∨
      ∃ r objects values event, s.eligible g c = true ∧ restoredRecord request g c s = some r ∧
        r.Built (r.classFor s.machine c) (triggered request g c s).machine.objects.size objects
          values ∧
        (∀ kv ∈ values, ((triggered request g c s).machine.classAt c).statics.has kv.1 = true) ∧
        tryRestore request g c s = recordOutcome g (s.machine.className c) .restored
          (((triggered request g c s).withMachine
            (((triggered request g c s).machine.withObjects objects).assigned c values)).note
              event) := by
  have hrequest := within_standard hstandard
  cases heligible : s.eligible g c with
  | false =>
    refine .inl ⟨rfl, ?_, ?_⟩
    · rw [restoredRecord, heligible]
      rfl
    · rw [tryRestore_of_not_eligible heligible, triggered, heligible]
      rfl
  | true =>
    obtain ⟨hinUse, hfresh⟩ := eligible_eq_true_iff.1 heligible
    have htriggered : triggered request g c s = afterRequests request g c (isUsing g s).2 := by
      rw [triggered, heligible]
      rfl
    by_cases hadmits : ∃ r prepared, Admits request g c (isUsing g s).2 r prepared
    · obtain ⟨r, prepared, hadmits⟩ := hadmits
      obtain ⟨objects, values, event, hbuilt, hdeclared, hrestore⟩ :=
        exists_restore_of_admits hrequest hadmits
      have hrecord : restoredRecord request g c s = some r := by
        rw [restoredRecord, heligible, hrestore, hadmits.usableRecord]
        rfl
      rw [machine_isUsing] at hbuilt
      rw [htriggered, hadmits.afterRequests hrequest]
      refine .inr (.inr ⟨r, objects, values, event, rfl, hrecord, hbuilt, hdeclared, ?_⟩)
      refine tryRestore_eq_recordOutcome hinUse ?_ ?_ hrestore
      · rw [machine_isUsing]
      · rw [graphAt_isUsing]
        exact hfresh
    · obtain ⟨fault, hrestore⟩ := restore_of_not_admits hrequest hadmits
      have hrecord : restoredRecord request g c s = none := by
        rw [restoredRecord, heligible, hrestore]
        rfl
      rw [htriggered]
      exact .inr (.inl ⟨rfl, hrecord, tryRestore_of_fault hinUse hfresh hrestore⟩)

end Calls

/-! ### Main result -/

/-- **What a call to restore a class leaves alone, and what it restores.** -/
structure Separated (request : Requester) (g : GraphId) (c : ClassId) (s : Session) : Prop where
  /-- No object that existed has changed, no other class, no static of another class, no module and
  no loader. -/
  spares : (triggered request g c s).machine.Spares c (afterTry request g c s).machine
  /-- Of the rest of the session only the outcomes and the journal have changed. -/
  rest : ∃ graphs journal, afterTry request g c s
    = { triggered request g c s with
        machine := (afterTry request g c s).machine, graphs := graphs, journal := journal }
  /-- The fields that are not restored are what they were. -/
  others : ∀ name ∉ restoredFields request g c s,
    (afterTry request g c s).machine.static c name = (triggered request g c s).machine.static c name
  /-- Without a restored record nothing of the machine has changed. -/
  unrestored : restoredRecord request g c s = none →
    (afterTry request g c s).machine = (triggered request g c s).machine
  /-- The answer says which it is, unless an initializer has had the same class restored. -/
  answer : s.eligible g c = true → (triggered request g c s).resultOf g c = none →
    (tryRestore request g c s).1
      = if (restoredRecord request g c s).isSome then .restored else .skipped
  /-- Whatever the restored fields lead to has been allocated by this call. -/
  fresh : ∀ o, RestoresObject request g c s o →
    (triggered request g c s).machine.objects.size ≤ o ∧
      o < (afterTry request g c s).machine.objects.size

section Separation

variable {request : Requester} {g : GraphId} {c : ClassId} {s : Session}

theorem exists_recordOutcome_eq (name : Text) (outcome : Outcome) (s : Session) :
    ∃ graphs journal, (recordOutcome g name outcome s).2
      = { s with graphs := graphs, journal := journal } := by
  rcases recordOutcome_cases g name outcome s with ⟨earlier, -, heq⟩ | ⟨-, heq⟩
  · exact ⟨s.graphs, s.journal, by rw [heq]⟩
  · exact ⟨_, _, by rw [heq]; rfl⟩

/-- A call that has restored nothing. -/
theorem separated_of_unrestored (hnone : restoredRecord request g c s = none)
    (hmachine : (afterTry request g c s).machine = (triggered request g c s).machine)
    (hrest : ∃ graphs journal, afterTry request g c s
      = { triggered request g c s with graphs := graphs, journal := journal })
    (hanswer : s.eligible g c = true → (triggered request g c s).resultOf g c = none →
      (tryRestore request g c s).1 = .skipped) : Separated request g c s where
  spares := by
    rw [hmachine]
    exact .refl _ c
  rest := by
    obtain ⟨graphs, journal, hrest⟩ := hrest
    exact ⟨graphs, journal, by rw [hmachine, hrest]⟩
  others _ _ := by rw [hmachine]
  unrestored _ := hmachine
  answer := by
    rw [hnone]
    exact hanswer
  fresh o ho := by
    have hfields : restoredFields request g c s = [] := by
      rw [restoredFields, hnone]
      rfl
    rw [RestoresObject, hfields] at ho
    exact (ho.induct (p := fun _ => False) (fun _ hv => absurd hv List.not_mem_nil)
      fun _ _ hfalse _ => hfalse).elim

/-- A call that has restored a record. -/
theorem separated_of_restored {r : Subgraph} {objects : List Object}
    {values : List (Text × Value)} {classes : Text → Option ClassId}
    (hsome : restoredRecord request g c s = some r)
    (hbuilt : r.Built classes (triggered request g c s).machine.objects.size objects values)
    (hdeclared : ∀ kv ∈ values,
      ((triggered request g c s).machine.classAt c).statics.has kv.1 = true)
    (hmachine : (afterTry request g c s).machine
      = ((triggered request g c s).machine.withObjects objects).assigned c values)
    (hrest : ∃ graphs journal, afterTry request g c s
      = { triggered request g c s with
          machine := (afterTry request g c s).machine, graphs := graphs, journal := journal })
    (hanswer : (triggered request g c s).resultOf g c = none →
      (tryRestore request g c s).1 = .restored) : Separated request g c s := by
  have hfields : restoredFields request g c s = r.fieldNames := by
    rw [restoredFields, hsome]
    rfl
  have hsize : (afterTry request g c s).machine.objects.size
      = (triggered request g c s).machine.objects.size + objects.length := by
    rw [hmachine]
    exact Machine.size_withObjects _ _
  refine ⟨?_, hrest, ?_, ?_, ?_, ?_⟩
  · rw [hmachine]
    exact Machine.spares_filled _ c objects values
  · intro name hname
    rw [hfields] at hname
    have hlast := hbuilt.lastIn name
    rw [Subgraph.lastField_eq_none_iff.2 hname] at hlast
    have hstatic := Machine.static_assigned_of_declared
      (m := Machine.withObjects _ objects) hdeclared name
    rw [hmachine, hstatic]
    generalize Statics.lastIn name values = x at hlast ⊢
    cases hlast
    rfl
  · intro hnone
    rw [hsome] at hnone
    cases hnone
  · intro _ hfresh
    rw [hsome]
    exact hanswer hfresh
  · intro o ho
    rw [RestoresObject, hfields, hmachine] at ho
    rw [hsize]
    exact reaches_filled hbuilt hdeclared ho

theorem separated (hstandard : request.Standard) (g : GraphId) (c : ClassId) (s : Session) :
    Separated request g c s := by
  have hname : (triggered request g c s).machine.className c = s.machine.className c :=
    (universal_evolves.triggered hstandard g c s).machine.className c
  rcases tryRestore_cases hstandard g c s with ⟨hidle, hnone, heq⟩ | ⟨-, hnone, heq⟩ |
    ⟨r, objects, values, event, -, hsome, hbuilt, hdeclared, heq⟩
  · refine separated_of_unrestored hnone (by rw [afterTry, heq]) ⟨_, _, by rw [afterTry, heq]⟩
      fun heligible => ?_
    rw [hidle] at heligible
    cases heligible
  · refine separated_of_unrestored hnone ?_ ?_ fun _ hfresh => ?_
    · rw [afterTry, heq, machine_recordOutcome]
    · rw [afterTry, heq]
      exact exists_recordOutcome_eq _ _ _
    · rw [resultOf, hname] at hfresh
      rw [heq, recordOutcome_of_fresh hfresh]
  · refine separated_of_restored hsome hbuilt hdeclared ?_ ?_ fun hfresh => ?_
    · rw [afterTry, heq, machine_recordOutcome]
      rfl
    · obtain ⟨graphs, journal, hrest⟩ := exists_recordOutcome_eq (g := g) (s.machine.className c)
        .restored (((triggered request g c s).withMachine
          (((triggered request g c s).machine.withObjects objects).assigned c values)).note event)
      exact ⟨graphs, journal, by rw [afterTry, heq, hrest]; rfl⟩
    · rw [resultOf, hname] at hfresh
      rw [heq, recordOutcome_of_fresh (by exact hfresh)]

/-- **Restorations touch nothing else and share nothing.** Whatever the bootstrap answers to a call
that may restore a class, and whatever its initializers do on the way: compared with the session
that the initializers leave, the call changes no object, no other class and no static of one, no
module and no loader, and the fields that it restores lead only to objects that it has allocated.
Graphs that existed before are as they were, and the restored graph shares no object with them, nor
with one that is restored later: for any class, from any record, by any run of the same machine, or
by another machine whose objects come behind those on the heap. The objects may as well be built in
place, blank ones first and their slots and elements afterwards: for every record that leaves the
heap as it was, with the new objects at its end. -/
theorem restoration_separated (hstandard : request.Standard) (g : GraphId) (c : ClassId)
    (s : Session) :
    Separated request g c s ∧
    (∀ roots, (∀ o, (triggered request g c s).machine.Reaches roots o →
        o < (triggered request g c s).machine.objects.size) →
      ∀ o, ((afterTry request g c s).machine.Reaches roots o ↔
          (triggered request g c s).machine.Reaches roots o) ∧
        ¬ ((afterTry request g c s).machine.Reaches roots o ∧ RestoresObject request g c s o)) ∧
    (∀ calls, (afterTry request g c s).Grows ((afterTry request g c s).callAll calls)) ∧
    (∀ (request' : Requester) g' c' s', request'.Standard → (afterTry request g c s).Grows s' →
      ∀ o, ¬ (RestoresObject request g c s o ∧ RestoresObject request' g' c' s' o)) ∧
    ∀ (r : Subgraph) (m : Machine) (allowed : Table ClassId), r.buildInPlace m allowed
      = faulting (fun made => (m.withObjects made.1, made.2)) (r.materialize m allowed) := by
  have hseparated := separated hstandard g c s
  refine ⟨hseparated, fun roots hexist o => ?_, grows_callAll _, ?_, Subgraph.buildInPlace_eq⟩
  · have hsame := hseparated.spares.reaches_iff hexist o
    refine ⟨hsame, fun ⟨hold, hnew⟩ => ?_⟩
    exact absurd (hexist o (hsame.1 hold)) (Nat.not_lt.2 (hseparated.fresh o hnew).1)
  · rintro request' g' c' s' hstandard' hlater o ⟨hfirst, hsecond⟩
    have htriggered : s'.Grows (triggered request' g' c' s') :=
      universal_grows.triggered hstandard' g' c' s'
    have hbelow := (hseparated.fresh o hfirst).2
    have habove := ((separated hstandard' g' c' s').fresh o hsecond).1
    exact absurd hbelow (Nat.not_lt.2 (hlater.trans (htriggered.trans habove)))

end Separation

/-! ### A ring for each of two graphs -/

/-- Two graphs that ask the same bootstrap. -/
def twinSession : Session :=
  { ringSession with graphs := #[⟨0, Table.empty, false⟩, ⟨0, Table.empty, false⟩] }

/-- The second restoration of the ring has new objects. -/
theorem restoration_separated_twinSession :
    Separated request 0 2 twinSession ∧
      (tryRestore request 0 2 twinSession).1 = .restored ∧
      (tryRestore request 1 2 (afterTry request 0 2 twinSession)).1 = .restored ∧
      RestoresObject request 0 2 twinSession 0 ∧
      RestoresObject request 1 2 (afterTry request 0 2 twinSession) 2 ∧
      ∀ o, ¬ (RestoresObject request 0 2 twinSession o ∧
        RestoresObject request 1 2 (afterTry request 0 2 twinSession) o) := by
  obtain ⟨hseparated, -, hgrows, hapart, -⟩ := restoration_separated .outside 0 2 twinSession
  refine ⟨hseparated, by decide, by decide, .root ?_, .root ?_, ?_⟩
  · decide
  · decide
  · exact hapart request 1 2 _ .outside (hgrows [])

end Session

end ClassSharing
