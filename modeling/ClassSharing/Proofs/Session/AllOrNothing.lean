import ClassSharing.Proofs.Image.InPlace
import ClassSharing.Proofs.Session.Restorable

/-!
# All or nothing

A restoration reads a record that may be anything, has other classes initialized, builds objects and
assigns fields, and it can fail at every step but the last one. It fails before the objects are on
the heap, or it does all of it: a field that is not declared is found before any class is requested,
and an object that does not fit its class or a value that cannot be decoded is found before the heap
changes.

What stands between reading the record and assigning the fields is code of other classes. If that
code neither restores the class itself nor writes its fields, then the class is as it was whenever
the restoration fails.

## Main definitions

* `Session.Admits`: the record of a class is consistent, and its classes are granted
* `Session.Undisturbed`: the requested classes have left the class alone
* `Session.Restores`: what is true of a machine on which a record has been restored
* `Session.AllOrNothing`: what trying to restore a class does

## Main results

* `Session.usableRecord_eq_ok_iff`: the records that are not refused at once
* `Session.restore_of_admits`, `Session.restore_of_not_admits`: the two outcomes of a restoration
* `Session.restores_all_or_nothing`: exactly the consistent records are restored
-/

namespace ClassSharing

open Image

namespace Session

/-! ### The outcomes -/

/-- The bootstrap answers a consistent record of a class, and the classes that the record lists are
granted, which leads to the session `prepared`. -/
structure Admits (request : Requester) (g : GraphId) (c : ClassId) (s : Session) (r : Subgraph)
    (prepared : Session) : Prop where
  record : (archivedSubgraph g (s.machine.className c) s).1 = .ok (some r)
  consistent : r.Consistent s.machine c
  granted : Granted request (r.classes.getD []) (archivedSubgraph g (s.machine.className c) s).2
    prepared

/-- The session after the requests for the classes that a record lists: for all of them, or for
those up to the first that is refused. -/
def afterRequests (request : Requester) (g : GraphId) (c : ClassId) (s : Session) : Session :=
  let asked := (archivedSubgraph g (s.machine.className c) s).2
  match s.usableRecord g c with
  | .error _ => asked
  | .ok r => (prepareClasses request (Table.empty.insert (s.machine.className c) c)
      (r.classes.getD []) asked).2

/-- The initializers that have been run for a restoration of a class have not restored the class
themselves and have not written its statics. The first is so if they have not made an attempt at it
(`undisturbed_of_unattempted`). -/
structure Undisturbed (request : Requester) (g : GraphId) (c : ClassId) (s : Session) : Prop where
  fresh : ((afterRequests request g c s).graphAt g).results.get? (s.machine.className c) = none
  statics : ((afterRequests request g c s).machine.classAt c).statics
    = (s.machine.classAt c).statics

/-- A record has been restored: its objects lie at the end of the heap, each field of the class has
the last value that the record lists for it, and the other fields are what they were. -/
structure Restores (r : Subgraph) (c : ClassId) (m before m' : Machine) : Prop where
  objects : ∃ objects, m'.objects = before.objects ++ objects.toArray ∧
    List.Forall₂ (fun o x => ∃ k, r.classFor m c o.className = some k ∧
      o.Builds before.objects.size (r.objects.getD []).length k x) (r.objects.getD []) objects
  fields : ∀ name f, r.lastField name = some f →
    f.value.Denotes before.objects.size (r.objects.getD []).length (m'.static c name)
  others : ∀ name, r.lastField name = none → m'.static c name = m.static c name

section Restore

variable {request : Requester} {g : GraphId} {c : ClassId} {s prepared : Session} {r : Subgraph}

/-- Classes that have been prepared were granted one after another. -/
theorem granted_of_prepareClasses {names : List Text} {allowed allowed' : Table ClassId}
    {s' : Session} (h : prepareClasses request allowed names s = (.ok allowed', s')) :
    Granted request names s s' := by
  induction names generalizing allowed s with
  | nil =>
    obtain rfl := (Prod.mk.inj h).2
    exact .nil s
  | cons name rest ih =>
    rw [prepareClasses, exceptBind_apply (exceptGet_apply s)] at h
    cases hlookup : s.machine.lookup name with
    | none =>
      rw [hlookup] at h
      cases h
    | some k =>
      simp only [hlookup] at h
      rw [exceptBind_apply (lift_apply (request k) s)] at h
      rcases hanswer : request k s with ⟨fault | _, s₁⟩
      · rw [hanswer] at h
        cases h
      · rw [hanswer] at h
        exact .cons hlookup hanswer (ih h)

/-- The classes that are granted are the classes of the objects. -/
theorem Granted.exists_prepareClasses (hrequest : ∀ d, Within Evolves (request d))
    (h : Granted request (r.classes.getD []) (archivedSubgraph g (s.machine.className c) s).2
      prepared) :
    s.Evolves prepared ∧ ∃ allowed, prepareClasses request
        (Table.empty.insert (s.machine.className c) c) (r.classes.getD [])
        (archivedSubgraph g (s.machine.className c) s).2 = (.ok allowed, prepared) ∧
      ∀ name, allowed.get? name = r.classFor s.machine c name := by
  have hcalm := calm_archivedSubgraph g (s.machine.className c) s
  obtain ⟨allowed, hprepare, hallowed⟩ :=
    Session.exists_prepareClasses hrequest h (Table.empty.insert (s.machine.className c) c)
  refine ⟨hcalm.evolves.trans (h.evolves hrequest), allowed, hprepare, fun name => ?_⟩
  rw [hallowed, machine_archivedSubgraph, Subgraph.classFor, Table.get?_insert, Table.get?_empty]

theorem Admits.usableRecord (h : Admits request g c s r prepared) :
    s.usableRecord g c = .ok r :=
  usableRecord_eq_ok_iff.2 ⟨h.record, h.consistent.className, h.consistent.declared⟩

theorem Admits.afterRequests (hrequest : ∀ d, Within Evolves (request d))
    (h : Admits request g c s r prepared) : afterRequests request g c s = prepared := by
  obtain ⟨-, allowed, hprepare, -⟩ := h.granted.exists_prepareClasses hrequest
  rw [Session.afterRequests, h.usableRecord]
  exact congrArg Prod.snd hprepare

/-- The objects of a record that is admitted are built, put on the heap, and assigned. -/
theorem exists_restore_of_admits (hrequest : ∀ d, Within Evolves (request d))
    (h : Admits request g c s r prepared) :
    ∃ objects values event, r.Built (r.classFor s.machine c) prepared.machine.objects.size objects
        values ∧
      (∀ kv ∈ values, (prepared.machine.classAt c).statics.has kv.1 = true) ∧
      restore request g c s = (.ok (), (prepared.withMachine
        ((prepared.machine.withObjects objects).assigned c values)).note event) := by
  obtain ⟨hevolves, allowed, hprepare, hclasses⟩ := h.granted.exists_prepareClasses hrequest
  have hfits : ∀ o ∈ r.objects.getD [],
      Subgraph.FitsClass prepared.machine (r.classFor s.machine c) o := fun o ho =>
    (Subgraph.fitsClass_congr hevolves.machine.slotCount o).2 (h.consistent.fits o ho)
  obtain ⟨⟨objects, values⟩, hbuild⟩ :=
    (Subgraph.exists_materialize_iff (m := prepared.machine) hclasses).2
      ⟨hfits, h.consistent.decodable⟩
  exact ⟨objects, values, _, Subgraph.built_of_materialize hclasses hbuild,
    declared_of_materialize h.usableRecord hevolves hbuild,
    restore_of_built h.usableRecord hprepare hevolves hbuild⟩

/-- **A record that is admitted is restored.** -/
theorem restore_of_admits (hrequest : ∀ d, Within Evolves (request d))
    (h : Admits request g c s r prepared)
    (hstatics : (prepared.machine.classAt c).statics = (s.machine.classAt c).statics) :
    ∃ m' event, restore request g c s = (.ok (), (prepared.withMachine m').note event) ∧
      Restores r c s.machine prepared.machine m' := by
  obtain ⟨objects, values, event, hbuilt, hdeclared, hrestore⟩ :=
    exists_restore_of_admits hrequest h
  have hstatic : ∀ name,
      ((prepared.machine.withObjects objects).assigned c values).static c name
        = (Statics.lastIn name values).getD (s.machine.static c name) := fun name => by
    refine (Machine.static_assigned_of_declared (m := prepared.machine.withObjects objects)
      hdeclared name).trans ?_
    exact congrArg (fun statics : Statics => (Statics.lastIn name values).getD (statics.get name))
      hstatics
  refine ⟨_, event, hrestore, ?_, ?_, ?_⟩
  · exact ⟨objects, rfl, hbuilt.objects⟩
  · intro name f hf
    have hlast := hbuilt.lastIn name
    rw [hstatic]
    rw [hf] at hlast
    generalize Statics.lastIn name values = x at hlast
    cases hlast with
    | some hdenotes => exact hdenotes
  · intro name hnone
    have hlast := hbuilt.lastIn name
    rw [hstatic]
    rw [hnone] at hlast
    generalize Statics.lastIn name values = x at hlast
    cases hlast with
    | none => rfl

/-- **A record that is not admitted changes nothing** but what the requested classes change. -/
theorem restore_of_not_admits (hrequest : ∀ d, Within Evolves (request d))
    (h : ¬ ∃ r prepared, Admits request g c s r prepared) :
    ∃ fault, restore request g c s = (.error fault, afterRequests request g c s) := by
  cases husable : s.usableRecord g c with
  | error fault =>
    rw [afterRequests, husable]
    exact ⟨fault, restore_of_error husable⟩
  | ok r =>
    obtain ⟨hrecord, hname, hdeclared⟩ := usableRecord_eq_ok_iff.1 husable
    rw [afterRequests, husable]
    simp only
    rcases hprepare : prepareClasses request (Table.empty.insert (s.machine.className c) c)
        (r.classes.getD []) (archivedSubgraph g (s.machine.className c) s).2
      with ⟨fault | allowed, prepared⟩
    · exact ⟨fault, restore_of_refused husable hprepare⟩
    · have hgranted := granted_of_prepareClasses hprepare
      obtain ⟨hevolves, allowed', hprepare', hclasses⟩ := hgranted.exists_prepareClasses hrequest
      obtain rfl : allowed = allowed' :=
        Except.ok.inj (congrArg Prod.fst (hprepare.symm.trans hprepare'))
      cases hbuild : r.materialize prepared.machine allowed with
      | error fault => exact ⟨fault, restore_of_unbuilt husable hprepare hbuild⟩
      | ok made =>
        obtain ⟨hfits, hdecodable⟩ :=
          (Subgraph.exists_materialize_iff hclasses).1 ⟨made, hbuild⟩
        have hfits' : ∀ o ∈ r.objects.getD [],
            Subgraph.FitsClass s.machine (r.classFor s.machine c) o := fun o ho =>
          (Subgraph.fitsClass_congr hevolves.machine.slotCount o).1 (hfits o ho)
        exact absurd ⟨r, prepared, hrecord, ⟨hname, hdeclared, hfits', hdecodable⟩, hgranted⟩ h

/-! ### Trying -/

theorem tryRestore_of_fault {fault : Fault} {s' : Session} (hinUse : (isUsing g s).1 = true)
    (hfresh : s.resultOf g c = none)
    (hrestore : restore request g c (isUsing g s).2 = (.error fault, s')) :
    tryRestore request g c s = recordOutcome g (s.machine.className c) .skipped s' := by
  have hnone : ((isUsing g s).2.graphAt g).results.get? ((isUsing g s).2.machine.className c)
      = none := by
    rw [graphAt_isUsing, machine_isUsing]
    exact hfresh
  rw [tryRestore, bind_apply, if_pos hinUse, bind_apply, get_apply]
  simp only [hnone]
  rw [bind_apply, ExceptT.run, hrestore, machine_isUsing]

theorem recordOutcome_of_fresh {name : Text} (h : (s.graphAt g).results.get? name = none)
    (outcome : Outcome) :
    recordOutcome g name outcome s = (outcome, s.withOutcome g name outcome) := by
  rw [recordOutcome, h]

theorem Undisturbed.results (h : Undisturbed request g c (isUsing g s).2) :
    ((afterRequests request g c (isUsing g s).2).graphAt g).results.get? (s.machine.className c)
      = none := by
  rw [← machine_isUsing g s]
  exact h.fresh

theorem tryRestore_of_admits (hrequest : ∀ d, Within Evolves (request d))
    (hinUse : (isUsing g s).1 = true) (hfresh : s.resultOf g c = none)
    (hundisturbed : Undisturbed request g c (isUsing g s).2)
    (h : Admits request g c (isUsing g s).2 r prepared) :
    (tryRestore request g c s).1 = .restored ∧
      Restores r c s.machine prepared.machine (tryRestore request g c s).2.machine := by
  have hafter := h.afterRequests hrequest
  have hstatics := hundisturbed.statics
  have hnone := hundisturbed.results
  rw [hafter] at hstatics hnone
  obtain ⟨m', event, hrestore, hrestores⟩ := restore_of_admits hrequest h hstatics
  rw [machine_isUsing] at hrestores
  have hfresh' : ((isUsing g s).2.graphAt g).results.get? (s.machine.className c) = none := by
    rw [graphAt_isUsing]
    exact hfresh
  rw [tryRestore_eq_recordOutcome hinUse (congrArg (fun m => Machine.className m c)
    (machine_isUsing g s)) hfresh' hrestore,
    recordOutcome_of_fresh (s := (prepared.withMachine m').note event) hnone]
  exact ⟨rfl, hrestores⟩

theorem tryRestore_of_not_admits (hrequest : ∀ d, Within Evolves (request d))
    (hinUse : (isUsing g s).1 = true) (hfresh : s.resultOf g c = none)
    (hundisturbed : Undisturbed request g c (isUsing g s).2)
    (h : ¬ ∃ r prepared, Admits request g c (isUsing g s).2 r prepared) :
    (tryRestore request g c s).1 = .skipped ∧
      ((tryRestore request g c s).2.machine.classAt c).statics
        = (s.machine.classAt c).statics := by
  obtain ⟨fault, hrestore⟩ := restore_of_not_admits hrequest h
  rw [tryRestore_of_fault hinUse hfresh hrestore, recordOutcome_of_fresh hundisturbed.results]
  refine ⟨rfl, hundisturbed.statics.trans ?_⟩
  rw [machine_isUsing]

/-- **Trying to restore a class is all or nothing.** -/
structure AllOrNothing (request : Requester) (g : GraphId) (c : ClassId) (s : Session) : Prop where
  /-- The class is restored exactly if its record is admitted. -/
  restored_iff : (tryRestore request g c s).1 = .restored ↔
    ∃ r prepared, Admits request g c (isUsing g s).2 r prepared
  /-- Then the fields are what the record says, and the other fields are as before. -/
  restores : ∀ r prepared, Admits request g c (isUsing g s).2 r prepared →
    Restores r c s.machine prepared.machine (tryRestore request g c s).2.machine
  /-- Otherwise it is skipped, and all its fields are as before. -/
  skipped : (tryRestore request g c s).1 ≠ .restored →
    (tryRestore request g c s).1 = .skipped ∧
      ((tryRestore request g c s).2.machine.classAt c).statics = (s.machine.classAt c).statics
  /-- The objects of any record, however malformed, can be built by writing into blank ones, without
  a panic and with the same fault if there is one. -/
  inPlace : ∀ (r : Subgraph) (m : Machine) (allowed : Table ClassId), r.buildInPlace m allowed
    = faulting (fun made => (m.withObjects made.1, made.2)) (r.materialize m allowed)

/-- **Exactly the consistent records are restored.** An archive is in use, no outcome is recorded
for the class, and the initializers that are run on the way leave the class alone. Then, whatever
the bootstrap answers, the class is restored completely or its fields stay as they were. -/
theorem restores_all_or_nothing (hstandard : request.Standard) (hinUse : (isUsing g s).1 = true)
    (hfresh : s.resultOf g c = none) (hundisturbed : Undisturbed request g c (isUsing g s).2) :
    AllOrNothing request g c s := by
  have hrequest := within_standard hstandard
  have hskips := tryRestore_of_not_admits hrequest hinUse hfresh hundisturbed
  have hrestores : ∀ r prepared, Admits request g c (isUsing g s).2 r prepared →
      (tryRestore request g c s).1 = .restored ∧
        Restores r c s.machine prepared.machine (tryRestore request g c s).2.machine :=
    fun r prepared h => tryRestore_of_admits hrequest hinUse hfresh hundisturbed h
  have hiff : (tryRestore request g c s).1 = .restored ↔
      ∃ r prepared, Admits request g c (isUsing g s).2 r prepared := by
    refine ⟨fun hrestored => ?_, fun ⟨r, prepared, h⟩ => (hrestores r prepared h).1⟩
    by_contra hnot
    cases hrestored.symm.trans (hskips hnot).1
  exact ⟨hiff, fun r prepared h => (hrestores r prepared h).2, fun hnot => hskips (hnot ∘ hiff.2),
    Subgraph.buildInPlace_eq⟩

end Restore

/-! ### A record of a ring -/

theorem undisturbed_ringSession : Undisturbed request 0 2 (isUsing 0 ringSession).2 :=
  ⟨by decide, by decide⟩

/-- The ring is restored, with the array that holds itself behind the field. -/
theorem restores_all_or_nothing_ringSession :
    (isUsing 0 ringSession).1 = true ∧ ringSession.resultOf 0 2 = none ∧
      Undisturbed request 0 2 (isUsing 0 ringSession).2 ∧
      (tryRestore request 0 2 ringSession).1 = .restored ∧
      AllOrNothing request 0 2 ringSession := by
  have hinUse : (isUsing 0 ringSession).1 = true := by decide
  have hfresh : ringSession.resultOf 0 2 = none := by decide
  exact ⟨hinUse, hfresh, undisturbed_ringSession, by decide,
    restores_all_or_nothing .outside hinUse hfresh undisturbed_ringSession⟩

end Session

end ClassSharing
