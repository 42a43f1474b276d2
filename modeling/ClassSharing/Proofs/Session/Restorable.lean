import ClassSharing.Proofs.Image.Consistent
import ClassSharing.Proofs.Session.Lifecycle
import ClassSharing.Proofs.Session.Restore

/-!
# When a restoration succeeds

A restoration needs a record that is about the class and names only declared fields, the classes
that the record lists, and objects that can be built from it. All of this but the states of the
listed classes stays the same while code runs, and an erroneous class stays erroneous. So a
restoration that could not succeed at one time cannot succeed later: if one of two restorations of
the same class fails inside the other one, the outer one fails as well.

## Main definitions

* `Session.Restorable`: nothing stands in the way of restoring a class
* `Session.Assigns`: what a restoration does to the machine
* `Session.Tried`: what trying to restore a class does

## Main results

* `Session.Restorable.of_evolves`: what can be restored could have been restored before
* `Session.restore_cases`: a restoration succeeds if and only if nothing stands in its way
* `Session.tried_tryRestore`: trying to restore a class records how that went
* `Session.Tried.of_stages`: relations that the stages of an attempt keep to
-/

namespace ClassSharing

open Image

namespace Session

/-! ### Nothing in the way -/

/-- A class of a name is registered and is not erroneous. -/
def Available (s : Session) (name : Text) : Prop :=
  ∃ k, s.machine.lookup name = some k ∧ ∀ cause, s.machine.stateOf k ≠ .erroneous cause

/-- The table has the class itself and the listed classes, and the listed ones take precedence. -/
def Lists (m : Machine) (c : ClassId) (names : List Text) (allowed : Table ClassId) : Prop :=
  ∀ name, allowed.get? name
    = if name ∈ names then m.lookup name else (Table.empty.insert (m.className c) c).get? name

/-- The record that a graph has of a class, if it is about the class and names only declared fields.
-/
def usableRecord (s : Session) (g : GraphId) (c : ClassId) : Except Fault Subgraph :=
  (archivedSubgraph g (s.machine.className c) s).1 >>= checkRecord s.machine c

/-- Restoring the class `c` has put objects at the end of the heap and assigned the statics. Every
object is of the class itself, or of a class that is ready or being initialized. -/
structure Assigns (c : ClassId) (objects : List Object) (m m' : Machine) : Prop where
  calm : m.Calm m'
  heap : m'.objects = m.objects ++ objects.toArray
  prepared : ∀ o ∈ objects, ∃ k, o.classId = some k ∧
    (k = c ∨ m'.stateOf k = .ready ∨ m'.stateOf k = .running)

/-- **Nothing stands in the way** of restoring a class: there is a record, the classes that it lists
are available, and its objects can be built. -/
def Restorable (s : Session) (g : GraphId) (c : ClassId) : Prop :=
  ∃ r, s.usableRecord g c = .ok r ∧ (∀ name ∈ r.classes.getD [], s.Available name) ∧
    ∃ allowed, Lists s.machine c (r.classes.getD []) allowed ∧
      ∃ made, r.materialize s.machine allowed = .ok made

section Persistence

variable {s s' : Session} {g : GraphId} {c : ClassId} {r : Subgraph}

theorem Evolves.archivedSubgraph (h : s.Evolves s') (g : GraphId) (name : Text) :
    (archivedSubgraph g name s').1 = (archivedSubgraph g name s).1 := by
  rw [Session.archivedSubgraph, exceptBind_apply (exceptGet_apply s'),
    exceptBind_apply (exceptGet_apply s), h.gateOf, h.bootOf]
  cases (s.gateAt (s.graphAt g).gate).boot with
  | none => rfl
  | some b =>
    simp only [h.record b name]
    cases (s.bootAt b).subgraph name <;> rfl

/-- **Records stay as they are while code runs.** -/
theorem Evolves.usableRecord (h : s.Evolves s') (g : GraphId) (c : ClassId) :
    s'.usableRecord g c = s.usableRecord g c := by
  have hcheck : checkRecord s'.machine c = checkRecord s.machine c := by
    funext record
    unfold checkRecord
    simp only [h.machine.className, h.machine.has]
  rw [Session.usableRecord, Session.usableRecord, h.machine.className, h.archivedSubgraph, hcheck]

/-- **What can be restored could have been restored before.** -/
theorem Restorable.of_evolves (h : s.Evolves s')
    (herroneous : ∀ k cause, s.machine.stateOf k = .erroneous cause →
      s'.machine.stateOf k = .erroneous cause)
    (hs' : s'.Restorable g c) : s.Restorable g c := by
  obtain ⟨r, hrecord, hclasses, allowed, hallowed, hmade⟩ := hs'
  refine ⟨r, by rw [← h.usableRecord, hrecord], ?_, allowed, ?_, ?_⟩
  · intro name hname
    obtain ⟨k, hk, hnot⟩ := hclasses name hname
    rw [h.machine.lookup] at hk
    refine ⟨k, hk, ?_⟩
    intro cause hcause
    exact hnot cause (herroneous k cause hcause)
  · intro name
    rw [hallowed name, h.machine.lookup, h.machine.className]
  · exact r.exists_materialize (fun k => (h.machine.slotCount k).symm) (fun _ => rfl) hmade

end Persistence

/-! ### The listed classes -/

section Listed

variable {m : Machine} {n : Nat} {r : Requester} {names : List Text} {s s' : Session}

/-- Classes that are granted one after another are ready or running afterwards, because no code
moves a class that is not uninitialized. -/
theorem Granted.states (hm : m.WellFormed) (hr : Conforming m n r)
    (h : Granted r names s s') (hs : Bounded m n s) :
    s.Settles s' ∧ ∀ name ∈ names, ∃ k, s'.machine.lookup name = some k ∧
      (s'.machine.stateOf k = .ready ∨ s'.machine.stateOf k = .running) := by
  induction h with
  | nil s => exact ⟨stable_settles.refl s, by simp⟩
  | @cons name rest k s s₁ s' hlookup hgranted _ ih =>
    have hconforms := hr k ((Regime.settling hm n).lookup hs hlookup) s hs
    rw [hgranted] at hconforms
    have hfirst : s.Settles s₁ := hconforms.settles
    obtain ⟨hrest, hstates⟩ := ih (hs.dwindles hfirst.dwindles)
    have hwhole := stable_settles.trans hfirst hrest
    refine ⟨hwhole, List.forall_mem_cons.2 ⟨⟨k, ?_, ?_⟩, hstates⟩⟩
    · rw [hwhole.evolves.machine.lookup, hlookup]
    · rcases (hconforms.granted rfl).1 with hstate | hstate
      · exact .inl ((hrest.idle (c := k) (by rw [hstate]; simp)).1.trans hstate)
      · exact .inr ((hrest.idle (c := k) (by rw [hstate]; simp)).1.trans hstate)

/-- The classes that objects may have are the class itself and the listed ones. -/
theorem Lists.prepared {c k : ClassId} {allowed : Table ClassId} {name : Text}
    (h : Lists m c names allowed)
    (hready : ∀ name ∈ names, ∃ k, m.lookup name = some k ∧
      (m.stateOf k = .ready ∨ m.stateOf k = .running))
    (hget : allowed.get? name = some k) :
    k = c ∨ m.stateOf k = .ready ∨ m.stateOf k = .running := by
  rw [h name] at hget
  by_cases hname : name ∈ names
  · obtain ⟨k', hk', hstate⟩ := hready name hname
    rw [if_pos hname, hk'] at hget
    obtain rfl := Option.some.inj hget
    exact .inr hstate
  · rw [if_neg hname, Table.get?_insert, Table.get?_empty] at hget
    split at hget
    · exact .inl (Option.some.inj hget).symm
    · cases hget

theorem Granted.available (hm : m.WellFormed) (hr : Conforming m n r)
    (h : Granted r names s s') (hs : Bounded m n s) {name : Text} (hname : name ∈ names) :
    s'.Available name := by
  obtain ⟨k, hk, hstate⟩ := (h.states hm hr hs).2 name hname
  refine ⟨k, hk, ?_⟩
  rcases hstate with hstate | hstate
  · simp [hstate]
  · simp [hstate]

/-- **Preparing the listed classes** fails because one of them is not available, or all of them have
been granted. -/
theorem prepareClasses_cases (hm : m.WellFormed) (hr : Conforming m n r)
    (allowed : Table ClassId) (hs : Bounded m n s) :
    (∃ fault s', prepareClasses r allowed names s = (.error fault, s') ∧
        ∃ name ∈ names, ¬ s'.Available name) ∨
      ∃ s', Granted r names s s' := by
  induction names generalizing allowed s with
  | nil => exact .inr ⟨s, .nil s⟩
  | cons name rest ih =>
    rw [prepareClasses, exceptBind_apply (exceptGet_apply s)]
    cases hlookup : s.machine.lookup name with
    | none =>
      refine .inl ⟨_, s, rfl, name, List.mem_cons_self, ?_⟩
      rintro ⟨k, hk, -⟩
      rw [hlookup] at hk
      cases hk
    | some k =>
      have hconforms := hr k ((Regime.settling hm n).lookup hs hlookup) s hs
      simp only
      rw [exceptBind_apply (lift_apply (r k) s)]
      rcases hanswer : r k s with ⟨fault | _, s₁⟩
      · rw [hanswer] at hconforms
        refine .inl ⟨_, s₁, rfl, name, List.mem_cons_self, ?_⟩
        rintro ⟨k', hk', hnot⟩
        rw [hconforms.settles.evolves.machine.lookup, hlookup] at hk'
        obtain rfl := Option.some.inj hk'
        obtain ⟨cause, hcause⟩ := hconforms.refused fault rfl
        exact hnot cause hcause
      · rw [hanswer] at hconforms
        rcases ih (allowed.insert name k) (hs.dwindles hconforms.settles.dwindles) with
          ⟨fault, s', heq, other, hother, hnot⟩ | ⟨s', hgranted⟩
        · exact .inl ⟨fault, s', heq, other, List.mem_cons_of_mem name hother, hnot⟩
        · exact .inr ⟨s', .cons hlookup hanswer hgranted⟩

end Listed

/-! ### One restoration -/

section Steps

variable {r : Requester} {g : GraphId} {c : ClassId} {record : Subgraph} {s s₁ s₂ : Session}
  {fault : Fault} {allowed : Table ClassId}

theorem usableRecord_eq_ok_iff :
    s.usableRecord g c = .ok record ↔
      (archivedSubgraph g (s.machine.className c) s).1 = .ok (some record) ∧
        record.className = s.machine.className c ∧
        ∀ f ∈ record.fields.getD [], (s.machine.classAt c).statics.has f.name = true := by
  refine exceptBind_eq_ok_iff.trans ?_
  simp only [checkRecord_eq_ok_iff]
  constructor
  · rintro ⟨_, hrecord, rfl, hchecked⟩
    exact ⟨hrecord, hchecked⟩
  · rintro ⟨hrecord, hchecked⟩
    exact ⟨some record, hrecord, rfl, hchecked⟩

/-- A restoration without a record that can be used. -/
theorem restore_of_error (h : s.usableRecord g c = .error fault) :
    restore r g c s = (.error fault, (archivedSubgraph g (s.machine.className c) s).2) := by
  rw [restore, exceptBind_apply (exceptGet_apply s)]
  rw [usableRecord] at h
  rcases hasked : archivedSubgraph g (s.machine.className c) s with ⟨fault' | found, s₁⟩
  · rw [hasked] at h
    rw [exceptBind_apply_error hasked, Except.error.inj h]
  · rw [hasked] at h
    have hmachine := machine_archivedSubgraph g (s.machine.className c) s
    have hcheck : checkRecord s₁.machine c found = .error fault := by
      rw [hasked] at hmachine
      rw [hmachine]
      exact h
    rw [exceptBind_apply hasked, exceptBind_apply (exceptGet_apply s₁)]
    simp only [hcheck]
    rfl

theorem archivedSubgraph_of_usableRecord (h : s.usableRecord g c = .ok record) :
    ∃ found s₁, archivedSubgraph g (s.machine.className c) s = (.ok found, s₁) ∧
      checkRecord s₁.machine c found = .ok record := by
  obtain ⟨found, hfound, hcheck⟩ := exceptBind_eq_ok_iff.1 h
  refine ⟨found, _, Prod.ext hfound rfl, ?_⟩
  rw [machine_archivedSubgraph]
  exact hcheck

/-- A restoration one of whose listed classes is refused. -/
theorem restore_of_refused (h : s.usableRecord g c = .ok record)
    (hprepare : prepareClasses r (Table.empty.insert (s.machine.className c) c)
      (record.classes.getD []) (archivedSubgraph g (s.machine.className c) s).2
        = (.error fault, s₂)) :
    restore r g c s = (.error fault, s₂) := by
  obtain ⟨found, s₁, hfound, hcheck⟩ := archivedSubgraph_of_usableRecord h
  rw [hfound] at hprepare
  rw [restore, exceptBind_apply (exceptGet_apply s), exceptBind_apply hfound,
    exceptBind_apply (exceptGet_apply s₁)]
  simp only [hcheck]
  rw [exceptBind_apply_error hprepare]

/-- A restoration whose objects cannot be built. -/
theorem restore_of_unbuilt (h : s.usableRecord g c = .ok record)
    (hprepare : prepareClasses r (Table.empty.insert (s.machine.className c) c)
      (record.classes.getD []) (archivedSubgraph g (s.machine.className c) s).2 = (.ok allowed, s₂))
    (hbuild : record.materialize s₂.machine allowed = .error fault) :
    restore r g c s = (.error fault, s₂) := by
  obtain ⟨found, s₁, hfound, hcheck⟩ := archivedSubgraph_of_usableRecord h
  rw [hfound] at hprepare
  rw [restore, exceptBind_apply (exceptGet_apply s), exceptBind_apply hfound,
    exceptBind_apply (exceptGet_apply s₁)]
  simp only [hcheck]
  rw [exceptBind_apply hprepare, exceptBind_apply (exceptGet_apply s₂)]
  simp only [hbuild]
  rfl

/-- The values that are built are for declared fields. -/
theorem declared_of_materialize (h : s.usableRecord g c = .ok record) (hevolves : s.Evolves s₂)
    {objects : List Object} {values : List (Text × Value)}
    (hbuild : record.materialize s₂.machine allowed = .ok (objects, values)) :
    ∀ kv ∈ values, (s₂.machine.classAt c).statics.has kv.1 = true := by
  intro kv hkv
  obtain ⟨f, hf, hname⟩ := record.exists_field_of_materialize hbuild hkv
  rw [hevolves.machine.has, ← hname]
  exact (usableRecord_eq_ok_iff.1 h).2.2 f hf

/-- A restoration whose objects can be built assigns the statics, because all fields are declared.
-/
theorem restore_of_built (h : s.usableRecord g c = .ok record)
    (hprepare : prepareClasses r (Table.empty.insert (s.machine.className c) c)
      (record.classes.getD []) (archivedSubgraph g (s.machine.className c) s).2 = (.ok allowed, s₂))
    (hevolves : s.Evolves s₂) {objects : List Object} {values : List (Text × Value)}
    (hbuild : record.materialize s₂.machine allowed = .ok (objects, values)) :
    restore r g c s
      = (.ok (), (s₂.withMachine ((s₂.machine.withObjects objects).assigned c values)).note
        (.assigned g c
          (classStates ((s₂.machine.withObjects objects).assigned c values) objects))) := by
  obtain ⟨found, s₁, hfound, hcheck⟩ := archivedSubgraph_of_usableRecord h
  rw [hfound] at hprepare
  exact (restore_eq_commit rfl hfound hcheck hprepare hbuild).trans
    (commit_eq_ok (Machine.setAllStatics_eq_ok (declared_of_materialize h hevolves hbuild)))

end Steps

section Restoration

variable {ρ : Regime} {m : Machine} {n : Nat} {r : Requester} {g : GraphId} {c : ClassId}
  {s : Session}

/-- A restoration whose listed classes have been granted assigns the statics if the objects can be
built, and nothing stands in its way then. -/
theorem restore_of_granted (hm : m.WellFormed) (hevolves : ∀ d, Within Evolves (r d))
    (hr : Conforming m n r) {record : Subgraph} {s₂ : Session}
    (hs : Bounded m n (archivedSubgraph g (s.machine.className c) s).2)
    (hrecord : s.usableRecord g c = .ok record)
    (hgranted : Granted r (record.classes.getD []) (archivedSubgraph g (s.machine.className c) s).2
      s₂) :
    (∃ fault, restore r g c s = (.error fault, s₂) ∧ ¬ s₂.Restorable g c) ∨
      ∃ m' objects,
        restore r g c s
          = (.ok (), (s₂.withMachine m').note (.assigned g c (classStates m' objects))) ∧
        s₂.Restorable g c ∧ Assigns c objects s₂.machine m' := by
  have hcalm := calm_archivedSubgraph g (s.machine.className c) s
  have hs₂ : s.Evolves s₂ := hcalm.evolves.trans (hgranted.evolves hevolves)
  have hrecord₂ : s₂.usableRecord g c = .ok record := by rw [hs₂.usableRecord, hrecord]
  obtain ⟨allowed, hprepare, hallowed⟩ :=
    exists_prepareClasses hevolves hgranted (Table.empty.insert (s.machine.className c) c)
  have hlists : Lists s₂.machine c (record.classes.getD []) allowed := by
    intro name
    rw [hallowed, hs₂.machine.lookup, hs₂.machine.className, hcalm.evolves.machine.lookup]
  cases hbuild : record.materialize s₂.machine allowed with
  | error fault =>
    refine .inl ⟨fault, restore_of_unbuilt hrecord hprepare hbuild, ?_⟩
    rintro ⟨record', hrecord', -, allowed', hallowed', hmade⟩
    rw [hrecord₂] at hrecord'
    obtain rfl := Except.ok.inj hrecord'
    obtain ⟨made, hmade⟩ := record.exists_materialize (fun _ => rfl)
      (fun name => (hlists name).trans (hallowed' name).symm) hmade
    rw [hbuild] at hmade
    cases hmade
  | ok made =>
    obtain ⟨objects, values⟩ := made
    have hbuilt : s₂.machine.Calm ((s₂.machine.withObjects objects).assigned c values) :=
      (s₂.machine.calm_withObjects objects).trans (Machine.calm_assigned _ c values)
    refine .inr ⟨_, objects, restore_of_built hrecord hprepare hs₂ hbuild,
      ⟨record, hrecord₂, ?_, allowed, hlists, _, hbuild⟩, hbuilt, rfl, ?_⟩
    · intro name hname
      exact hgranted.available hm hr hs hname
    · intro o ho
      obtain ⟨k, name, hk, hget⟩ := record.exists_classId_of_materialize hbuild ho
      refine ⟨k, hk, ?_⟩
      rw [hbuilt.states]
      exact hlists.prepared (hgranted.states hm hr hs).2 hget

/-- **A restoration succeeds if and only if nothing stands in its way** when the listed classes have
been requested. Then it assigns the statics, and up to there only the requests change the session.
-/
theorem restore_cases (hm : m.WellFormed) (hevolves : ∀ d, Within Evolves (r d))
    (hr : Conforming m n r) (hrequest : ∀ d, ρ.Admits d → ρ.Alike (r d) (r d))
    (hs : Bounded m n s) (hρ : ρ.Holds s) :
    (∃ fault s', restore r g c s = (.error fault, s') ∧ s.Evolves s' ∧ ρ.Allows s s' ∧
        ¬ s'.Restorable g c) ∨
      ∃ s' m' objects,
        restore r g c s
          = (.ok (), (s'.withMachine m').note (.assigned g c (classStates m' objects))) ∧
        s.Evolves s' ∧ ρ.Allows s s' ∧ s'.Restorable g c ∧ Assigns c objects s'.machine m' := by
  have hcalm := calm_archivedSubgraph g (s.machine.className c) s
  have hasked := within_archivedSubgraph ρ.code g (s.machine.className c) s
  cases hrecord : s.usableRecord g c with
  | error fault =>
    refine .inl ⟨fault, _, restore_of_error hrecord, hcalm.evolves, hasked, ?_⟩
    rintro ⟨record, hrecord', -⟩
    rw [hcalm.evolves.usableRecord, hrecord] at hrecord'
    cases hrecord'
  | ok record =>
    have hs₁ := hs.dwindles hcalm.settles.dwindles
    have hallows := (Regime.alike_prepareClasses hrequest
      (Table.empty.insert (s.machine.className c) c) (record.classes.getD []) _
      (ρ.keeps hρ hasked)).allows
    have hsettles := (Regime.alike_prepareClasses (alike_settling hm hr)
      (Table.empty.insert (s.machine.className c) c) (record.classes.getD []) _ hs₁).allows
    rcases prepareClasses_cases hm hr (Table.empty.insert (s.machine.className c) c) hs₁
      with ⟨fault, s₂, hprepare, name, hname, hnot⟩ | ⟨s₂, hgranted⟩
    · rw [hprepare] at hallows hsettles
      have hs₂ : s.Evolves s₂ := hcalm.evolves.trans hsettles.evolves
      refine .inl ⟨fault, s₂, restore_of_refused hrecord hprepare, hs₂,
        ρ.stable.trans hasked hallows, ?_⟩
      rintro ⟨record', hrecord', hclasses, -⟩
      rw [hs₂.usableRecord, hrecord] at hrecord'
      obtain rfl := Except.ok.inj hrecord'
      exact hnot (hclasses name hname)
    · obtain ⟨allowed, hprepare, -⟩ :=
        exists_prepareClasses hevolves hgranted (Table.empty.insert (s.machine.className c) c)
      rw [hprepare] at hallows hsettles
      have hs₂ : s.Evolves s₂ := hcalm.evolves.trans hsettles.evolves
      have hreach := ρ.stable.trans hasked hallows
      rcases restore_of_granted hm hevolves hr hs₁ hrecord hgranted with
        ⟨fault, heq, hnot⟩ | ⟨m', objects, heq, hcan, hassigns⟩
      · exact .inl ⟨fault, s₂, heq, hs₂, hreach, hnot⟩
      · exact .inr ⟨s₂, m', objects, heq, hs₂, hreach, hcan, hassigns⟩

/-! ### Trying to restore -/

/-- The outcome that a graph has recorded for a class. -/
def resultOf (s : Session) (g : GraphId) (c : ClassId) : Option Outcome :=
  (s.graphAt g).results.get? (s.machine.className c)

/-- What trying to restore a class does, if the requests inside change the session as `R` allows. -/
inductive Tried (R : Session → Session → Prop) (g : GraphId) (c : ClassId) (s : Session) :
    Session → Prop where
  /-- No archive is in use, or there is an outcome already. -/
  | idle {s' : Session} (h : s.Calm s') : Tried R g c s s'
  | failed {s' : Session} (hfresh : s.resultOf g c = none) (h : R s s')
      (hnot : ¬ s'.Restorable g c) :
      Tried R g c s (recordOutcome g (s'.machine.className c) .skipped s').2
  | succeeded {s' : Session} {m : Machine} {objects : List Object}
      (hfresh : s.resultOf g c = none) (h : R s s') (hcan : s'.Restorable g c)
      (hassigns : Assigns c objects s'.machine m) :
      Tried R g c s (recordOutcome g (s'.machine.className c) .restored
        ((s'.withMachine m).note (.assigned g c (classStates m objects)))).2

/-- **Trying to restore a class** does nothing, or restores the class and records how that went. -/
theorem tried_tryRestore (hm : m.WellFormed) (hevolves : ∀ d, Within Evolves (r d))
    (hr : Conforming m n r) (hrequest : ∀ d, ρ.Admits d → ρ.Alike (r d) (r d))
    (hs : Bounded m n s) (hρ : ρ.Holds s)
    (g : GraphId) (c : ClassId) : Tried ρ.Allows g c s (tryRestore r g c s).2 := by
  have hcalm := calm_isUsing g s
  have hasked := within_isUsing ρ.code g s
  have hs₁ := hs.dwindles hcalm.settles.dwindles
  have hname := hcalm.evolves.machine.className c
  rw [tryRestore, bind_apply]
  split
  · rw [bind_apply, get_apply]
    simp only
    cases hresult : ((isUsing g s).2.graphAt g).results.get?
        ((isUsing g s).2.machine.className c) with
    | some earlier => exact .idle hcalm
    | none =>
      have hfresh : s.resultOf g c = none := by
        rw [graphAt_isUsing, hname] at hresult
        exact hresult
      simp only
      rw [bind_apply, ExceptT.run]
      rcases restore_cases (g := g) (c := c) hm hevolves hr hrequest hs₁ (ρ.keeps hρ hasked)
        with ⟨fault, s', heq, hs', hallows, hnot⟩ | ⟨s', m', objects, heq, hs', hallows, hcan, hm'⟩
      · rw [heq, ← hs'.machine.className]
        exact .failed hfresh (ρ.stable.trans hasked hallows) hnot
      · rw [heq, ← hs'.machine.className]
        exact .succeeded hfresh (ρ.stable.trans hasked hallows) hcan hm'
  · exact .idle hcalm

/-- **An attempt in stages**: what happens inside it, the assignment if there is one, and the
outcome. What keeps to a relation in each stage does so altogether. -/
theorem Tried.of_stages {R Q : Session → Session → Prop} {s' : Session} (h : Tried R g c s s')
    (hstable : Stable Q) (hcalm : ∀ {t t'}, t.Calm t' → Q t t')
    (hevolves : ∀ {t t'}, Q t t' → t.Evolves t') (hinside : ∀ {t t'}, R t t' → Q t t')
    (hassigned : ∀ (t : Session) (m : Machine) (objects : List Object),
      Assigns c objects t.machine m →
        Q (t.withMachine m) ((t.withMachine m).note (.assigned g c (classStates m objects))))
    (hrecorded : ∀ (t : Session) (outcome : Outcome), s.Evolves t →
      Q t (recordOutcome g (t.machine.className c) outcome t).2) : Q s s' := by
  cases h with
  | idle h => exact hcalm h
  | failed _ h _ => exact hstable.trans (hinside h) (hrecorded _ _ (hevolves (hinside h)))
  | @succeeded s₁ m objects _ h _ hassigns =>
    have hcommitted : Q s₁ (s₁.withMachine m) := hcalm (Calm.withMachine hassigns.calm)
    have hdone :=
      hstable.trans (hstable.trans (hinside h) hcommitted) (hassigned _ m objects hassigns)
    rw [← hassigns.calm.evolves.className]
    exact hstable.trans hdone (hrecorded _ .restored (hevolves hdone))

end Restoration

end Session

end ClassSharing
