import ClassSharing.Proofs.Session.AllOrNothing
import ClassSharing.Proofs.Session.Outcomes

/-!
# Restorations that are left undisturbed

Restoring a class comes out right whatever the requested classes do, as long as their initializers
leave the class itself alone. `Accepts` and `Undisturbed` ask for that where the restoration depends
on it: when the requested classes are ready, no outcome is recorded for the class, or at least no
failure. That is a condition on the session which arbitrary code has left, and it does not tell what
the code may do.

Here the condition is derived from what the code does. An outcome is recorded at the end of an
attempt to restore a class, and an attempt begins with an event that says so. So requests in which
no attempt to restore the class begins leave its outcome as it was. They may request the class, and
they may initialize and restore any other one.

## What is deliberately absent

Nothing is said about the statics of the class. An initializer can assign the statics of any class
without an event, so `undisturbed_of_unattempted` has to ask that they are what they were.

## Main definitions

* `Session.Unattempted`: no attempt to restore a class has begun
* `Session.Leaves`: a stretch of a run without such an attempt leaves the outcome of the class
* `Requester.Suffices`: requests at a depth that suffices for all classes

## Main results

* `Session.Tried.leaves_of_ne`: an attempt to restore another class
* `Session.leaves_prepareClasses`: the requests for the classes of a record
* `Session.undisturbed_of_unattempted`, `Session.accepts_of_unattempted`: where no attempt has begun
  on the way, a restoration is undisturbed and a record is accepted
-/

namespace ClassSharing

open Image

/-- The ways in which the classes of a machine are requested: from outside, and inside an
initialization, at a depth that is not used up before all classes have been begun. -/
inductive Requester.Suffices (m : Machine) : Requester → Prop where
  | outside : Suffices m Session.request
  | inside {depth : Nat} (h : m.uninitializedCount ≤ depth) :
      Suffices m (Session.requestWithin depth)

theorem Requester.Suffices.standard {m : Machine} {request : Requester}
    (h : request.Suffices m) : request.Standard := by
  cases h with
  | outside => exact .outside
  | inside => exact .inside _

namespace Session

/-! ### Stretches without an attempt -/

/-- Between two sessions, no attempt of a graph to restore a class has begun. -/
def Unattempted (g : GraphId) (c : ClassId) (s s' : Session) : Prop :=
  ∀ e ∈ s.since s', e.begins s.hook g c = false

instance (g : GraphId) (c : ClassId) (s s' : Session) : Decidable (Unattempted g c s s') :=
  inferInstanceAs (Decidable (∀ e ∈ s.since s', e.begins s.hook g c = false))

/-- A stretch of a run leaves the outcome of a class as it was, if no attempt to restore the class
begins in it. -/
structure Leaves (g : GraphId) (c : ClassId) (s s' : Session) : Prop where
  dwindles : s.Dwindles s'
  journal : s.journal <+: s'.journal
  outcome : Unattempted g c s s' → s'.resultOf g c = s.resultOf g c

section Leaves

variable {g g' : GraphId} {c d : ClassId} {s s' s'' : Session} {e : Event}

/-- An attempt that begins in one of two stages begins in both together. -/
theorem unattempted_trans (hhook : s'.hook = s.hook) (h : s.journal <+: s'.journal)
    (h' : s'.journal <+: s''.journal) :
    Unattempted g c s s'' ↔ Unattempted g c s s' ∧ Unattempted g c s' s'' := by
  rw [Unattempted, Unattempted, Unattempted, since_trans h h', List.forall_mem_append, hhook]

theorem stable_leaves (g : GraphId) (c : ClassId) : Stable (Leaves g c) where
  refl s := ⟨stable_dwindles.refl s, List.prefix_rfl, fun _ => rfl⟩
  trans h h' := by
    refine ⟨stable_dwindles.trans h.dwindles h'.dwindles, h.journal.trans h'.journal, ?_⟩
    intro hnone
    obtain ⟨hfirst, hsecond⟩ :=
      (unattempted_trans h.dwindles.evolves.hook h.journal h'.journal).1 hnone
    exact (h'.outcome hsecond).trans (h.outcome hfirst)

/-- Without an attempt, a class that had no outcome has none. -/
theorem Leaves.unrecorded (h : Leaves g c s s') (hnone : Unattempted g c s s')
    (hfresh : s.resultOf g c = none) :
    (s'.graphAt g).results.get? (s.machine.className c) = none := by
  have houtcome := h.outcome hnone
  rw [resultOf, h.dwindles.evolves.machine.className, hfresh] at houtcome
  exact houtcome

theorem Calm.leaves (h : s.Calm s') : Leaves g c s s' :=
  ⟨h.settles.dwindles, h.settles.journal, fun _ => h.resultOf_eq⟩

theorem leaves_note (s : Session) (e : Event) : Leaves g c s (s.note e) :=
  ⟨dwindles_note s e, List.prefix_append _ _, fun _ => rfl⟩

theorem leaves_move {state : InitState} (hstate : state ≠ .uninitialized) :
    Leaves g c s (s.move d state) :=
  ⟨dwindles_move s d hstate, List.prefix_append _ _, fun _ => resultOf_move s d state⟩

/-- An outcome for another class, or of another graph. -/
theorem leaves_recordOutcome_of_ne {name : Text} (h : g' ≠ g ∨ name ≠ s.machine.className c)
    (outcome : Outcome) : Leaves g c s (recordOutcome g' name outcome s).2 := by
  have hsettles := settles_recordOutcome g' name outcome s
  refine ⟨hsettles.dwindles, hsettles.journal, fun _ => ?_⟩
  rcases recordOutcome_cases g' name outcome s with ⟨earlier, -, heq⟩ | ⟨-, heq⟩
  · rw [heq]
  · rw [heq]
    exact resultOf_withOutcome_of_ne h outcome

/-- **An attempt to restore another class**, or by another graph, leaves the class to what happens
inside the attempt. -/
theorem Tried.leaves_of_ne (hne : g' ≠ g ∨ s.machine.className d ≠ s.machine.className c)
    (h : Tried (Leaves g c) g' d s s') : Leaves g c s s' := by
  refine h.of_stages (stable_leaves g c) Calm.leaves (fun h => h.dwindles.evolves) id ?_ ?_
  · intro t m objects _
    exact leaves_note _ _
  · intro t outcome ht
    exact leaves_recordOutcome_of_ne (ht.ne_or_className_ne hne) outcome

/-- Whichever class an attempt is about, what was noted before stays noted. -/
theorem Tried.dwindles_journal (h : Tried (Leaves g c) g' d s s') :
    s.Dwindles s' ∧ s.journal <+: s'.journal := by
  have hsettles : ∀ {t t' : Session}, t.Settles t' → t.Dwindles t' ∧ t.journal <+: t'.journal :=
    fun h => ⟨h.dwindles, h.journal⟩
  refine h.of_stages ⟨?_, ?_⟩ (fun h => hsettles h.settles) (fun h => h.1.evolves)
    (fun h => ⟨h.dwindles, h.journal⟩) ?_ ?_
  · intro t
    exact ⟨stable_dwindles.refl t, List.prefix_rfl⟩
  · intro t t' t'' h h'
    exact ⟨stable_dwindles.trans h.1 h'.1, h.2.trans h'.2⟩
  · intro t m objects _
    exact hsettles (settles_note rfl)
  · intro t outcome _
    exact hsettles (settles_recordOutcome g' (t.machine.className d) outcome t)

/-- **An attempt to restore the class itself** is one that has begun. -/
theorem Tried.leaves_of_eq (he : e.begins s.hook g c = true)
    (h : Tried (Leaves g c) g c (s.note e) s') : Leaves g c s s' := by
  obtain ⟨hdwindles, hjournal⟩ := h.dwindles_journal
  have hnoted : s.journal <+: (s.note e).journal := List.prefix_append _ _
  refine ⟨stable_dwindles.trans (dwindles_note s e) hdwindles, hnoted.trans hjournal, ?_⟩
  intro hnone
  have hbegun := ((unattempted_trans (evolves_note s e).hook hnoted hjournal).1 hnone).1
  have hnot := hbegun e (by simp)
  rw [he] at hnot
  cases hnot

end Leaves

/-! ### Requests -/

section Requests

variable {m : Machine} {request : Requester} {g : GraphId} {c : ClassId} {s s' : Session}
  {R : Session → Session → Prop} {names : List Text}

/-- **Runs leave the outcomes of classes that they make no attempt at.** -/
theorem kept_leaves (hregistered : m.Registered) (hc : c < m.classes.size) :
    Kept m (Leaves g c) where
  stable := stable_leaves g c
  calm := Calm.leaves
  dwindles := Leaves.dwindles
  granted s _ := leaves_note s _
  consulted s _ := leaves_note s _
  entered s _ := leaves_note s _
  moved hstate _ := leaves_move hstate
  attempted := by
    intro n s s' g' d e hs hd he htried
    by_cases hpair : g' = g ∧ d = c
    · obtain ⟨rfl, rfl⟩ := hpair
      exact htried.leaves_of_eq he
    · have hne := ne_or_className_ne hregistered hc hd hs hpair
      exact (stable_leaves g c).trans (leaves_note s e) (htried.leaves_of_ne hne)

/-- The requests for the classes of a record keep to whatever all runs keep to. -/
theorem Kept.prepareClasses_of_suffices (hR : Kept s.machine R) (hm : s.machine.WellFormed)
    (hrequest : request.Suffices s.machine) (allowed : Table ClassId) (names : List Text) :
    R s (Session.prepareClasses request allowed names s).2 := by
  cases hrequest with
  | outside =>
    have hkeeping := hR.request hm s.machine.uninitializedCount
    exact hR.prepareClasses hm hkeeping (bounded_self s) allowed names
  | @inside depth h =>
    have hkeeping := hR.requestWithin hm depth
    exact hR.prepareClasses hm hkeeping ⟨.refl s.machine, h⟩ allowed names

/-- **The requests for the classes of a record** leave those outcomes as well. -/
theorem leaves_prepareClasses (hm : s.machine.WellFormed) (hregistered : s.machine.Registered)
    (hc : c < s.machine.classes.size) (hrequest : request.Suffices s.machine)
    (allowed : Table ClassId) (names : List Text) :
    Leaves g c s (prepareClasses request allowed names s).2 :=
  (kept_leaves hregistered hc).prepareClasses_of_suffices hm hrequest allowed names

theorem leaves_of_granted (hm : s.machine.WellFormed) (hregistered : s.machine.Registered)
    (hc : c < s.machine.classes.size) (hrequest : request.Suffices s.machine)
    (hgranted : Granted request names s s') : Leaves g c s s' := by
  obtain ⟨allowed, hprepare, -⟩ :=
    exists_prepareClasses (within_standard hrequest.standard) hgranted Table.empty
  have hleaves := leaves_prepareClasses (g := g) hm hregistered hc hrequest Table.empty names
  rw [hprepare] at hleaves
  exact hleaves

/-- Asking for a record changes neither classes nor outcomes. -/
theorem leaves_of_granted_asked {name : Text} (hm : s.machine.WellFormed)
    (hregistered : s.machine.Registered) (hc : c < s.machine.classes.size)
    (hrequest : request.Suffices s.machine)
    (hgranted : Granted request names (archivedSubgraph g name (isUsing g s).2).2 s') :
    Leaves g c s s' := by
  have hasked : Leaves g c s (archivedSubgraph g name (isUsing g s).2).2 :=
    (stable_calm.trans (calm_isUsing g s) (calm_archivedSubgraph g name _)).leaves
  have hmachine : (archivedSubgraph g name (isUsing g s).2).2.machine = s.machine := by
    rw [machine_archivedSubgraph, machine_isUsing]
  rw [← hmachine] at hm hregistered hc hrequest
  exact (stable_leaves g c).trans hasked (leaves_of_granted hm hregistered hc hrequest hgranted)

/-- Whether the record is used or not, nothing else happens before its classes are ready. -/
theorem leaves_afterRequests (hm : s.machine.WellFormed) (hregistered : s.machine.Registered)
    (hc : c < s.machine.classes.size) (hrequest : request.Suffices s.machine) :
    Leaves g c s (afterRequests request g c s) := by
  have hasked : Leaves g c s (archivedSubgraph g (s.machine.className c) s).2 :=
    (calm_archivedSubgraph g (s.machine.className c) s).leaves
  rw [afterRequests]
  cases s.usableRecord g c with
  | error fault => exact hasked
  | ok r =>
    refine (stable_leaves g c).trans hasked ?_
    rw [← machine_archivedSubgraph g (s.machine.className c) s] at hm hregistered hc hrequest
    exact leaves_prepareClasses hm hregistered hc hrequest _ _

end Requests

/-! ### Restorations without attempts inside -/

section Unattempted

variable {request : Requester} {g : GraphId} {c c' : ClassId} {s prepared : Session} {m : Machine}
  {names : List Text} {r : Subgraph}

/-- **Requests leave a restoration undisturbed** if no attempt to restore the class begins in them
and its statics are what they were. -/
theorem undisturbed_of_unattempted (hm : s.machine.WellFormed) (hregistered : s.machine.Registered)
    (hc : c < s.machine.classes.size) (hrequest : request.Suffices s.machine)
    (hfresh : s.resultOf g c = none) (hnone : Unattempted g c s (afterRequests request g c s))
    (hstatics : ((afterRequests request g c s).machine.classAt c).statics
      = (s.machine.classAt c).statics) : Undisturbed request g c s := by
  have hleaves : Leaves g c s (afterRequests request g c s) :=
    leaves_afterRequests hm hregistered hc hrequest
  exact ⟨hleaves.unrecorded hnone hfresh, hstatics⟩

/-- **A session accepts a record** if no attempt to restore the class of the record begins in the
requests for its classes, because no outcome can have been recorded then. -/
theorem accepts_of_unattempted (hm : s.machine.WellFormed) (hregistered : s.machine.Registered)
    (hrequest : request.Suffices s.machine) (hinUse : (isUsing g s).1 = true)
    (hrecord : (archivedSubgraph g (m.className c) (isUsing g s).2).1 = .ok (some r))
    (hfresh : (s.graphAt g).results.get? (m.className c) = none)
    (hlookup : s.machine.lookup (m.className c) = some c')
    (hdeclared : ∀ name ∈ names, (s.machine.classAt c').statics.has name = true)
    (hslots : ∀ o, m.Reaches (names.map (m.static c)) o → ∃ k,
      s.machine.lookup (m.classNameOf o) = some k ∧
        (s.machine.classAt k).slotCount = (m.objectAt o).slots.length)
    (hgranted : Granted request (r.classes.getD [])
      (archivedSubgraph g (m.className c) (isUsing g s).2).2 prepared)
    (hnone : Unattempted g c' s prepared) : Accepts request g s c' m c names r prepared := by
  obtain ⟨hc', hname⟩ := hm.named _ _ hlookup
  refine ⟨hinUse, hrecord, hfresh, hm.named, hlookup, hdeclared, hslots, hgranted, ?_⟩
  have hleaves : Leaves g c' s prepared :=
    leaves_of_granted_asked hm hregistered hc' hrequest hgranted
  rw [← hname] at hfresh ⊢
  intro outcome houtcome
  rw [hleaves.unrecorded hnone hfresh] at houtcome
  cases houtcome

/-- The request for the class of arrays makes no attempt at the class of the ring. -/
example : Unattempted 0 2 ringSession ringPrepared := by decide

/-- The request for the class that the tangled record lists has the tangled class restored. -/
example : ¬ Unattempted 0 2 tangledSession (Session.request 3 tangledSession).2 := by decide +kernel

end Unattempted

end Session

end ClassSharing
