import ClassSharing.Proofs.Image.Archivable
import ClassSharing.Proofs.Image.Materialize
import ClassSharing.Proofs.Session.Regime

/-!
# Restored graphs

A graph that was collected on one machine is restored on another one that accepts its record: an
archive with the record is in use, the class is there with the archived fields, the classes of the
objects are there with the right numbers of slots, and the requests for these classes are granted.
Whatever else these requests do, what is restored afterwards is the collected graph. The one thing
that they must not do is to have the class itself restored without success, and they cannot if no
initializer makes an attempt at it (`Session.accepts_of_unattempted`).

## Main definitions

* `Session.Granted`: requests for classes, one after another, are granted
* `Session.Accepts`: a session accepts the record of a graph

## Main results

* `Session.tryRestore_of_accepts`: what restoration does in a session that accepts a record
* `Session.restored_of_archivable`: a graph that can be archived is restored as it was
-/

namespace ClassSharing

open Image

open Cbor (maxLength)

/-- The ways in which classes are requested: from outside, and inside an initialization. -/
inductive Requester.Standard : Requester → Prop where
  | outside : Standard Session.request
  | inside (depth : Nat) : Standard (Session.requestWithin depth)

namespace Session

theorem Universal.standard {R : Session → Session → Prop} (hR : Universal R) {request : Requester}
    (h : request.Standard) (c : ClassId) : Within R (request c) := by
  cases h with
  | outside => exact hR.request c
  | inside depth => exact hR.requestWithin depth c

theorem within_standard {request : Requester} (h : request.Standard) (c : ClassId) :
    Within Evolves (request c) :=
  universal_evolves.standard h c

/-! ### Granted requests -/

/-- Requests for classes, one after another, are granted, and lead from one session to another. -/
inductive Granted (request : Requester) : List Text → Session → Session → Prop where
  | nil (s : Session) : Granted request [] s s
  | cons {name : Text} {rest : List Text} {k : ClassId} {s s₁ s' : Session}
      (hlookup : s.machine.lookup name = some k) (hgranted : request k s = (.ok (), s₁))
      (hrest : Granted request rest s₁ s') : Granted request (name :: rest) s s'

section Granted

variable {request : Requester} {names : List Text} {s s' : Session}

theorem evolves_of_request_eq {k : ClassId} {answer : Except Fault Unit}
    (hrequest : ∀ c, Within Evolves (request c)) (h : request k s = (answer, s')) :
    s.Evolves s' := by
  have hstep := hrequest k s
  rw [h] at hstep
  exact hstep

theorem Granted.evolves (hrequest : ∀ c, Within Evolves (request c))
    (h : Granted request names s s') : s.Evolves s' := by
  induction h with
  | nil s => exact stable_evolves.refl s
  | cons _ hgranted _ ih =>
    exact stable_evolves.trans (evolves_of_request_eq hrequest hgranted) ih

/-- The classes that are granted are the ones that objects may have afterwards. -/
theorem exists_prepareClasses (hrequest : ∀ c, Within Evolves (request c))
    (h : Granted request names s s') (allowed : Table ClassId) :
    ∃ allowed', prepareClasses request allowed names s = (.ok allowed', s') ∧
      ∀ name, allowed'.get? name
        = if name ∈ names then s.machine.lookup name else allowed.get? name := by
  induction h generalizing allowed with
  | nil s => exact ⟨allowed, rfl, fun name => by simp⟩
  | @cons name rest k s s₁ s' hlookup hgranted _ ih =>
    have hfirst : s.Evolves s₁ := evolves_of_request_eq hrequest hgranted
    obtain ⟨allowed', hprepared, hallowed⟩ := ih (allowed.insert name k)
    refine ⟨allowed', ?_, fun other => ?_⟩
    · rw [prepareClasses, exceptBind_apply (exceptGet_apply s)]
      simp only [hlookup]
      rw [exceptBind_apply (lift_apply (request k) s)]
      simp only [hgranted]
      exact hprepared
    · rw [hallowed, hfirst.machine.lookup, Table.get?_insert]
      by_cases hother : other = name
      · subst hother
        simp [hlookup]
      · simp [hother]

end Granted

/-! ### Restoration step by step -/

section Steps

variable {request : Requester} {g : GraphId} {c : ClassId} {s s₁ s₂ : Session}

/-- The records that are not refused at once. -/
theorem checkRecord_eq_ok_iff {m : Machine} {record : Option Subgraph} {r : Subgraph} :
    checkRecord m c record = .ok r ↔ record = some r ∧ r.className = m.className c ∧
      ∀ f ∈ r.fields.getD [], (m.classAt c).statics.has f.name = true := by
  have hundeclared : ∀ fields : List FieldRecord,
      (fields.find? fun f => !(m.classAt c).statics.has f.name) = none ↔
        ∀ f ∈ fields, (m.classAt c).statics.has f.name = true := fun fields => by
    simp [List.find?_eq_none]
  rw [← hundeclared]
  cases record with
  | none => exact ⟨fun h => (nomatch h), fun h => (nomatch h.1)⟩
  | some found =>
    rw [checkRecord, Option.some.injEq]
    constructor
    · intro h
      split_ifs at h with hname
      split at h
      · cases h
      · rename_i hfind
        obtain rfl := Except.ok.inj h
        exact ⟨rfl, not_not.1 hname, hfind⟩
    · rintro ⟨rfl, hname, hfind⟩
      rw [if_neg (not_not.2 hname), hfind]

theorem commit_eq_ok {objects : List Object} {values : List (Text × Value)} {m : Machine}
    (h : (s.machine.withObjects objects).setAllStatics c values = .ok m) :
    commit g c objects values s
      = (.ok (), (s.withMachine m).note (.assigned g c (classStates m objects))) := by
  rw [commit, exceptBind_apply (exceptGet_apply s)]
  rw [Machine.withObjects] at h
  simp only [h]
  rfl

/-- A restoration whose objects can be built commits them. -/
theorem restore_eq_commit {record : Option Subgraph} {r : Subgraph} {allowed : Table ClassId}
    {objects : List Object} {values : List (Text × Value)} {name : Text}
    (hname : s.machine.className c = name)
    (hrecord : archivedSubgraph g name s = (.ok record, s₁))
    (hcheck : checkRecord s₁.machine c record = .ok r)
    (hprepare : prepareClasses request (Table.empty.insert name c) (r.classes.getD []) s₁
      = (.ok allowed, s₂))
    (hbuild : r.materialize s₂.machine allowed = .ok (objects, values)) :
    restore request g c s = commit g c objects values s₂ := by
  subst hname
  rw [restore, exceptBind_apply (exceptGet_apply s), exceptBind_apply hrecord,
    exceptBind_apply (exceptGet_apply s₁)]
  simp only [hcheck]
  rw [exceptBind_apply hprepare, exceptBind_apply (exceptGet_apply s₂)]
  simp only [hbuild]

theorem tryRestore_eq_recordOutcome {name : Text} (hinUse : (isUsing g s).1 = true)
    (hname : (isUsing g s).2.machine.className c = name)
    (hfresh : ((isUsing g s).2.graphAt g).results.get? name = none)
    (hrestore : restore request g c (isUsing g s).2 = (.ok (), s₁)) :
    tryRestore request g c s = recordOutcome g name .restored s₁ := by
  subst hname
  rw [tryRestore, bind_apply, if_pos hinUse, bind_apply, get_apply]
  simp only [hfresh]
  rw [bind_apply, ExceptT.run, hrestore]

theorem recordOutcome_restored {name : Text}
    (h : ∀ outcome, (s.graphAt g).results.get? name = some outcome → outcome = .restored) :
    (recordOutcome g name .restored s).1 = .restored := by
  rw [recordOutcome]
  split
  · rename_i earlier hearlier
    exact h earlier hearlier
  · rfl

theorem machine_recordOutcome (name : Text) (outcome : Outcome) :
    (recordOutcome g name outcome s).2.machine = s.machine := by
  rw [recordOutcome]
  split <;> rfl

theorem graphAt_isUsing (g other : GraphId) (s : Session) :
    (isUsing g s).2.graphAt other = s.graphAt other := by
  rw [graphAt, graphAt, (calm_isUsing g s).graphs]

end Steps

/-! ### Records that are accepted -/

/-- A session accepts the record `r` of the graph behind some static fields of the class `c` of a
machine for its class `c'`. The requests for the other classes of the graph lead to the session
`prepared`. -/
structure Accepts (request : Requester) (g : GraphId) (s : Session) (c' : ClassId) (m : Machine)
    (c : ClassId) (names : List Text) (r : Subgraph) (prepared : Session) : Prop where
  inUse : (isUsing g s).1 = true
  record : (archivedSubgraph g (m.className c) (isUsing g s).2).1 = .ok (some r)
  fresh : (s.graphAt g).results.get? (m.className c) = none
  wellNamed : s.machine.WellNamed
  lookup : s.machine.lookup (m.className c) = some c'
  declared : ∀ name ∈ names, (s.machine.classAt c').statics.has name = true
  slots : ∀ o, m.Reaches (names.map (m.static c)) o → ∃ k,
    s.machine.lookup (m.classNameOf o) = some k ∧
      (s.machine.classAt k).slotCount = (m.objectAt o).slots.length
  granted : Granted request (r.classes.getD [])
    (archivedSubgraph g (m.className c) (isUsing g s).2).2 prepared
  /-- If one of these requests had the class itself restored, that has not failed. -/
  undisturbed : ∀ outcome, (prepared.graphAt g).results.get? (m.className c) = some outcome →
    outcome = .restored

section Accepts

variable {request : Requester} {g : GraphId} {s prepared : Session} {c c' : ClassId} {m : Machine}
  {names : List Text} {found : List ObjectId} {r : Subgraph}

theorem Accepts.className (h : Accepts request g s c' m c names r prepared) :
    s.machine.className c' = m.className c :=
  (h.wellNamed _ _ h.lookup).2

theorem Accepts.evolves (hrequest : ∀ c, Within Evolves (request c))
    (h : Accepts request g s c' m c names r prepared) : s.machine.Evolves prepared.machine := by
  have hevolves : Machine.Evolves _ prepared.machine := (h.granted.evolves hrequest).machine
  rw [machine_archivedSubgraph, machine_isUsing] at hevolves
  exact hevolves

/-- The fields that the record writes are declared. -/
theorem Accepts.declared_prepared (hrequest : ∀ c, Within Evolves (request c))
    (h : Accepts request g s c' m c names r prepared) :
    ∀ name ∈ names, (prepared.machine.classAt c').statics.has name = true := by
  intro name hname
  rw [(h.evolves hrequest).has]
  exact h.declared name hname

/-- The record passes the checks that come before any request. -/
theorem Accepts.checkRecord_eq_ok (h : Accepts request g s c' m c names r prepared)
    (hcollected : m.Collected c names found r) : checkRecord s.machine c' (some r) = .ok r := by
  refine checkRecord_eq_ok_iff.2 ⟨rfl, hcollected.className.trans h.className.symm, fun f hf => ?_⟩
  rw [hcollected.fields, getD_presentList] at hf
  obtain ⟨name, hname, rfl⟩ := List.mem_map.1 hf
  exact h.declared name hname

/-- The classes of the graph fit the objects, because requests change no class. -/
theorem Accepts.fits (hrequest : ∀ c, Within Evolves (request c))
    (h : Accepts request g s c' m c names r prepared) (hcollected : m.Collected c names found r)
    {allowed : Table ClassId} (hallowed : ∀ name, allowed.get? name
      = if name ∈ r.classes.getD [] then s.machine.lookup name
        else (Table.empty.insert (m.className c) c').get? name)
    {o : ObjectId} (ho : o ∈ found) :
    ∃ k, s.machine.lookup (m.classNameOf o) = some k ∧
      Machine.Fits m prepared.machine allowed o k := by
  have hevolves := h.evolves hrequest
  obtain ⟨k, hk, hslots⟩ := h.slots o ((hcollected.mem_found o).1 ho)
  have hget : allowed.get? (m.classNameOf o) = some k := by
    rw [hallowed]
    by_cases howner : m.classNameOf o = m.className c
    · have hnot : m.classNameOf o ∉ r.classes.getD [] := fun hmem =>
        ((hcollected.mem_classes _).1 hmem).1 howner
      rw [if_neg hnot, howner, Table.get?_insert, if_pos rfl, ← hk, howner, h.lookup]
    · rw [if_pos ((hcollected.mem_classes _).2 ⟨howner, o, ho, rfl⟩), hk]
  refine ⟨k, hk, hget, ?_, ?_⟩
  · rw [hevolves.slotCount, hslots]
  · rw [hevolves.className, (h.wellNamed _ _ hk).2]

/-- **What restoration does in a session that accepts a record.** The objects are put at the end of
the heap that the requests left, the fields are assigned, and the outcome is recorded. -/
theorem tryRestore_of_accepts (hrequest : ∀ c, Within Evolves (request c))
    (hcollected : m.Collected c names found r) (hlimit : found.length ≤ maxLength)
    (h : Accepts request g s c' m c names r prepared) :
    ∃ allowed m' event,
      m' = Machine.rebuilt m c names found allowed prepared.machine c' ∧
      (∀ o ∈ found, ∃ k, s.machine.lookup (m.classNameOf o) = some k ∧
        Machine.Fits m prepared.machine allowed o k) ∧
      Machine.SameGraph m m' (names.map (m.static c)) (names.map (m'.static c'))
        (Machine.placedAt prepared.machine.objects.size found) ∧
      tryRestore request g c' s
        = recordOutcome g (m.className c) .restored ((prepared.withMachine m').note event) := by
  have hasked : (isUsing g s).2.machine.className c' = m.className c := by
    rw [machine_isUsing, h.className]
  have hmachine : (archivedSubgraph g (m.className c) (isUsing g s).2).2.machine = s.machine := by
    rw [machine_archivedSubgraph, machine_isUsing]
  have hevolves := h.evolves hrequest
  obtain ⟨allowed, hprepare, hallowed⟩ :=
    exists_prepareClasses hrequest h.granted (Table.empty.insert (m.className c) c')
  rw [hmachine] at hallowed
  have hfits := fun o (ho : o ∈ found) => h.fits hrequest hcollected hallowed ho
  have hfit : ∀ o ∈ found, ∃ k, Machine.Fits m prepared.machine allowed o k := fun o ho => by
    obtain ⟨k, -, hk⟩ := hfits o ho
    exact ⟨k, hk⟩
  have hdeclared := h.declared_prepared hrequest
  have hbuild := Machine.materialize_of_collected hcollected hlimit hfit
  have hwritten : ∀ kv ∈ m.builtFields c prepared.machine.objects.size found names,
      ((prepared.machine.withObjects (found.map (m.built allowed prepared.machine.objects.size
        found))).classAt c').statics.has kv.1 = true := by
    intro kv hkv
    obtain ⟨name, hname, rfl⟩ := List.mem_map.1 hkv
    exact hdeclared name hname
  have hassign := Machine.setAllStatics_eq_ok hwritten
  have hcheck : checkRecord (archivedSubgraph g (m.className c) (isUsing g s).2).2.machine c'
      (some r) = .ok r := by
    rw [hmachine]
    exact h.checkRecord_eq_ok hcollected
  have hrecord : archivedSubgraph g (m.className c) (isUsing g s).2
      = (.ok (some r), (archivedSubgraph g (m.className c) (isUsing g s).2).2) :=
    Prod.ext h.record rfl
  have hrestore := (restore_eq_commit hasked hrecord hcheck hprepare hbuild).trans
    (commit_eq_ok hassign)
  have hfresh : ((isUsing g s).2.graphAt g).results.get? (m.className c) = none := by
    rw [graphAt_isUsing]
    exact h.fresh
  have hc' : c' < prepared.machine.classes.size := by
    rw [hevolves.size]
    exact (h.wellNamed _ _ h.lookup).1
  exact ⟨allowed, _, _, rfl, hfits, Machine.sameGraph_rebuilt hcollected hfit hc' hdeclared,
    tryRestore_eq_recordOutcome h.inUse hasked hfresh hrestore⟩

/-- **A graph that can be archived is restored as it was.** It has a record, decoding the stored
record succeeds, and every session that accepts what is decoded restores it, with a one-to-one
correspondence between the objects behind the fields here and there. -/
theorem restored_of_archivable (h : m.Archivable c names) (hstorable : m.GraphStorable c names) :
    ∃ collected r, m.collectSubgraph ⟨m.className c, names⟩ = .ok collected ∧
      Subgraph.decode? collected.encode = some r ∧
      ∀ (request : Requester) (g : GraphId) (s : Session) (c' : ClassId) (prepared : Session),
        request.Standard → Accepts request g s c' m c names r prepared →
          (tryRestore request g c' s).1 = .restored ∧
          ∃ f, Machine.SameGraph m (tryRestore request g c' s).2.machine (names.map (m.static c))
            (names.map ((tryRestore request g c' s).2.machine.static c')) f := by
  obtain ⟨found, r, hcollect, hcollected, hdecode⟩ := Machine.exists_stored h hstorable
  refine ⟨r, r, hcollect, hdecode, fun request g s c' prepared hstandard haccepts => ?_⟩
  obtain ⟨allowed, m', event, -, -, hsame, heq⟩ :=
    tryRestore_of_accepts (within_standard hstandard) hcollected
      (hcollected.length_le hstorable.objectCount) haccepts
  rw [heq, machine_recordOutcome]
  exact ⟨recordOutcome_restored haccepts.undisturbed, _, hsame⟩

end Accepts

/-! ### A cycle with an empty array -/

/-- A class whose static field leads to an array that holds itself, an empty array and a string. -/
def ringMachine : Machine :=
  { (Machine.new.addClass
      { name := "Ring", space := "app", superclass := some Machine.objectClass
        loader := some .boot, instanceVariables := [], slotCount := 0
        statics := ⟨[("head", .obj 1)]⟩, initializer := .none, state := .ready }).2 with
    objects := #[⟨some 1, [], some []⟩, ⟨some 1, [], some [.obj 1, .obj 0, .str "end"]⟩] }

/-- Its record. -/
def ringRecord : Subgraph :=
  { className := "app::Ring"
    fields := some [⟨"head", .ofIndex 0⟩]
    classes := some ["Array"]
    objects := some [⟨"Array", none, true, some [.ofIndex 0, .ofIndex 1, .ofText "end"]⟩,
      ⟨"Array", none, true, none⟩] }

/-- A process that has the class, has not initialized anything, and uses an archive with the record.
-/
def ringSession : Session :=
  { Session.new default [] 0 with
    machine := (Machine.new.addClass
      { name := "Ring", space := "app", superclass := some Machine.objectClass
        loader := some .boot, instanceVariables := [], slotCount := 0
        statics := ⟨[("head", .nil)]⟩, initializer := .none, state := .uninitialized }).2
    graphs := #[⟨0, Table.empty, false⟩]
    gates := #[⟨some 0, [], none⟩]
    boots := #[.synthetic { SyntheticBoot.new (.ok ⟨Status.usingFlag⟩) default with
      subgraphs := Table.empty.insert "app::Ring" (some ringRecord) }] }

theorem eq_of_reaches_ringMachine {o : ObjectId}
    (h : ringMachine.Reaches ((["head"] : List Text).map (ringMachine.static 2)) o) :
    o = 0 ∨ o = 1 := by
  refine h.induct (p := fun o => o = 0 ∨ o = 1) (fun o ho => ?_) fun o q ho hq => ?_
  · have hroot : (["head"] : List Text).map (ringMachine.static 2) = [.obj 1] := by decide
    rw [hroot] at ho
    cases List.mem_singleton.1 ho
    exact .inr rfl
  · rcases ho with rfl | rfl
    · have hcontents : (ringMachine.objectAt 0).contents = [] := by decide
      rw [hcontents] at hq
      cases hq
    · have hcontents : (ringMachine.objectAt 1).contents = [.obj 1, .obj 0, .str "end"] := by decide
      rw [hcontents] at hq
      simp only [List.mem_cons, Value.obj.injEq, reduceCtorEq, List.not_mem_nil, or_false] at hq
      exact hq.symm

theorem archivable_ringMachine : ringMachine.Archivable 2 ["head"] where
  registered := by decide
  ready := by decide
  loader := by decide
  declared := by decide
  onBoot o ho := by
    rcases eq_of_reaches_ringMachine ho with rfl | rfl
    · exact ⟨1, by decide, by decide⟩
    · exact ⟨1, by decide, by decide⟩

theorem graphStorable_ringMachine : ringMachine.GraphStorable 2 ["head"] where
  className := by decide
  fieldCount := by decide
  fields := by decide
  objectCount := by
    have hsubset : {o | ringMachine.Reaches ((["head"] : List Text).map (ringMachine.static 2)) o}
        ⊆ {0, 1} := fun o ho => eq_of_reaches_ringMachine ho
    calc _ ≤ ({0, 1} : Set ObjectId).encard := Set.encard_le_encard hsubset
      _ = (2 : Nat) := Set.encard_pair (by decide)
      _ ≤ _ := by exact_mod_cast (by decide : 2 ≤ maxLength)
  objects o ho := by
    rcases eq_of_reaches_ringMachine ho with rfl | rfl
    · exact ⟨by decide, by decide⟩
    · exact ⟨by decide, by decide⟩

/-- The session after the request for the class of arrays. -/
def ringPrepared : Session :=
  (request 1 (archivedSubgraph 0 (ringMachine.className 2) (isUsing 0 ringSession).2).2).2

theorem accepts_ringSession :
    Accepts request 0 ringSession 2 ringMachine 2 ["head"] ringRecord ringPrepared where
  inUse := by decide
  record := rfl
  fresh := by decide
  wellNamed := Machine.wellNamed_addClass Machine.wellNamed_new _
  lookup := by decide
  declared := by decide
  slots o ho := by
    rcases eq_of_reaches_ringMachine ho with rfl | rfl
    · exact ⟨1, by decide, by decide⟩
    · exact ⟨1, by decide, by decide⟩
  granted := .cons (k := 1) (by decide) (Prod.ext (by decide) rfl) (.nil ringPrepared)
  undisturbed outcome h := by
    have hnone : (ringPrepared.graphAt 0).results.get? (ringMachine.className 2) = none := by
      decide
    rw [hnone] at h
    cases h

/-- The cycle comes back as it was. -/
theorem restored_ringMachine :
    ringMachine.Archivable 2 ["head"] ∧ ringMachine.GraphStorable 2 ["head"] ∧
      (tryRestore request 0 2 ringSession).1 = .restored ∧
      ∃ f, Machine.SameGraph ringMachine (tryRestore request 0 2 ringSession).2.machine [.obj 1]
        [(tryRestore request 0 2 ringSession).2.machine.static 2 "head"] f := by
  obtain ⟨collected, r, hcollect, hdecode, hrestore⟩ :=
    restored_of_archivable archivable_ringMachine graphStorable_ringMachine
  have hrecord : ringMachine.collectSubgraph ⟨ringMachine.className 2, ["head"]⟩
      = .ok ringRecord := rfl
  obtain rfl : ringRecord = collected := Except.ok.inj (hrecord.symm.trans hcollect)
  have htrimmed : Subgraph.decode? ringRecord.encode = some ringRecord :=
    Subgraph.decode?_encode (by decide)
  obtain rfl : ringRecord = r := Option.some.inj (htrimmed.symm.trans hdecode)
  exact ⟨archivable_ringMachine, graphStorable_ringMachine,
    hrestore request 0 ringSession 2 _ .outside accepts_ringSession⟩

end Session

end ClassSharing
