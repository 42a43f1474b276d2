import ClassSharing.Proofs.Session.Calls
import ClassSharing.Proofs.Session.Restorable

/-!
# What every run keeps

Requests run initializers, initializers request classes and ask for restorations, and restorations
request classes again. What such a run does to a session can still be proved piece by piece, because
the pieces are few: something happens that changes neither states nor journal, an event is noted, a
class moves, or an attempt to restore a class comes to its end.

A relation between the sessions before and after a stretch of a run that holds of these pieces, and
of one stretch after another, holds of every run. The induction is the one on the depth of requests:
a request that does not return at once moves a class out of the uninitialized state.

## Main definitions

* `Session.Kept`: a relation that the pieces of a run keep to

## Main results

* `Session.Kept.request`, `Session.Kept.askRestore`: requests and restorations keep to it
* `Session.Kept.callAll`: and so does every run
-/

namespace ClassSharing

/-- Whether an attempt of a graph to restore a class begins with an event. Only the graph that is
consulted before initializers makes attempts on its own. -/
def Event.begins (hook : Option GraphId) (g : GraphId) (c : ClassId) : Event → Bool
  | asked g' c' => g' = g ∧ c' = c
  | consulting c' => hook = some g ∧ c' = c
  | _ => false

namespace Session

/-- A relation between the sessions before and after a stretch of a run over the classes of a
machine, to which the pieces of a run keep. -/
structure Kept (m : Machine) (R : Session → Session → Prop) : Prop where
  stable : Stable R
  calm : ∀ {s s'}, s.Calm s' → R s s'
  dwindles : ∀ {s s'}, R s s' → s.Dwindles s'
  granted : ∀ s d, R s (s.note (.granted d))
  consulted : ∀ s d, R s (s.note (.consulted d))
  entered : ∀ s d, R s (s.note (.entered d))
  /-- A class moves that is not erroneous. -/
  moved : ∀ {s d state}, state ≠ .uninitialized →
    (∀ cause, s.machine.stateOf d ≠ .erroneous cause) → R s (s.move d state)
  /-- An attempt to restore a class, begun with an event that says so. -/
  attempted : ∀ {n s s' g d e}, Bounded m n s → d < m.classes.size →
    e.begins s.hook g d = true → Tried R g d (s.note e) s' → R s s'

end Session

open Session

/-- The regime of bounded sessions in which a relation is kept. -/
def Regime.keeping {m : Machine} {R : Session → Session → Prop} (hm : m.WellFormed)
    (hR : Kept m R) (n : Nat) : Regime :=
  ofRelation hm n R hR.stable hR.calm hR.dwindles

namespace Session

/-! ### Requests -/

/-- Requests settle the session and keep to a relation. -/
structure Keeping (m : Machine) (n : Nat) (R : Session → Session → Prop) (r : Requester) :
    Prop where
  evolves : ∀ d, Within Evolves (r d)
  conforms : Conforming m n r
  keeps : ∀ d < m.classes.size, ∀ s, Bounded m n s → R s (r d s).2

section Requests

variable {m : Machine} {n : Nat} {R : Session → Session → Prop} {r : Requester} {s : Session}
  {d : ClassId}

theorem Kept.attempt (hR : Kept m R) (hm : m.WellFormed) (hr : Keeping m n R r)
    (hd : d < m.classes.size) (hs : Bounded m n s) {g : GraphId} {e : Event}
    (he : e.begins s.hook g d = true) : R s (tryRestore r g d (s.note e)).2 := by
  have hbounded : Bounded m n (s.note e) := hs.dwindles (dwindles_note s e)
  refine hR.attempted hs hd he ?_
  exact tried_tryRestore (ρ := Regime.keeping hm hR n) hm hr.evolves hr.conforms
    (fun k hk t ht => ⟨rfl, hr.keeps k hk t ht⟩) hbounded hbounded g d

theorem Kept.askRestore (hR : Kept m R) (hm : m.WellFormed) (hr : Keeping m n R r)
    (hd : d < m.classes.size) (hs : Bounded m n s) (g : GraphId) :
    R s (askRestore r g d s).2 :=
  hR.attempt hm hr hd hs (e := .asked g d) (by simp [Event.begins])

/-- The requests for the classes that a record lists. -/
theorem Kept.prepareClasses (hR : Kept m R) (hm : m.WellFormed) (hr : Keeping m n R r)
    (hs : Bounded m n s) (allowed : Table ClassId) (names : List Text) :
    R s (prepareClasses r allowed names s).2 :=
  (Regime.alike_prepareClasses (ρ := Regime.keeping hm hR n)
    (fun k hk t ht => ⟨rfl, hr.keeps k hk t ht⟩) allowed names s hs).allows

theorem Kept.consultHook (hR : Kept m R) (hm : m.WellFormed) (hr : Keeping m n R r)
    (hd : d < m.classes.size) (hs : Bounded m n s) : R s (consultHook r d s).2 := by
  cases hhook : s.hook with
  | none =>
    rw [consultHook_of_none hhook]
    exact hR.stable.refl s
  | some g =>
    have hcalm := calm_isUsing g s
    rw [consultHook_of_some hhook]
    split
    · have hbounded : Bounded m n (isUsing g s).2 := hs.dwindles hcalm.settles.dwindles
      have hbegins : (Event.consulting d).begins (isUsing g s).2.hook g d = true := by
        rw [hcalm.evolves.hook, hhook]
        simp [Event.begins]
      have hattempt := hR.attempt hm hr hd hbounded hbegins
      exact hR.stable.trans (hR.stable.trans (hR.calm hcalm) hattempt) (hR.consulted _ d)
    · exact hR.calm hcalm

theorem Kept.runInitializer (hR : Kept m R) (hm : m.WellFormed) (hr : Keeping m n R r)
    (hd : d < m.classes.size) (hs : Bounded m n s) : R s (runInitializer r d s).2 := by
  have hconsult : (Regime.keeping hm hR n).Alike (Session.consultHook r d)
      (Session.consultHook r d) := by
    intro t ht
    exact ⟨rfl, hR.consultHook hm hr hd ht⟩
  refine (Regime.alike_runInitializer hconsult ?_ ?_ ?_ s hs).allows
  · intro t
    exact hR.entered t d
  · intro k hk t ht
    exact ⟨rfl, hr.keeps k hk t ht⟩
  · intro g k hk t ht
    exact ⟨rfl, hR.askRestore hm hr hk ht g⟩

/-- **One request keeps to the relation, if the requests inside do under a smaller bound.** -/
theorem Kept.requestStep (hR : Kept m R) (hm : m.WellFormed)
    (hr : ∀ k, n = k + 1 → Keeping m k R r) (hd : d < m.classes.size) (hs : Bounded m n s) :
    R s (requestStep r d s).2 := by
  cases hstate : s.machine.stateOf d with
  | ready =>
    rw [requestStep_of_ready hstate]
    exact hR.granted s d
  | running =>
    rw [requestStep_of_running hstate]
    exact hR.granted s d
  | erroneous cause =>
    rw [requestStep_of_erroneous hstate]
    exact hR.stable.refl s
  | uninitialized =>
    obtain ⟨k, rfl, hbegun⟩ := hs.begin hd hstate
    have hrunning : (s.begin d).machine.stateOf d = .running :=
      stateOf_move (by rw [hs.evolves.size]; exact hd)
    have hbegin : R s (s.begin d) := hR.moved (by simp) (by rw [hstate]; simp)
    have hrun := hR.runInitializer hm (hr k rfl) hd hbegun
    obtain ⟨_, _, hpasses, -, -⟩ :=
      passes_runInitializer hm (hr k rfl).conforms hbegun (c := d) (by rw [hrunning]; simp)
    -- The class is still running, so that finishing it makes no erroneous class anything else.
    have hlast : ∀ cause,
        (Session.runInitializer r d (s.begin d)).2.machine.stateOf d ≠ .erroneous cause := by
      rw [hpasses.state, hrunning]
      simp
    rw [requestStep_of_uninitialized hstate]
    refine hR.stable.trans (hR.stable.trans hbegin hrun) ?_
    cases (Session.runInitializer r d (s.begin d)).1 with
    | ok _ => exact hR.stable.trans (hR.moved (by simp) hlast) (hR.granted _ d)
    | error fault => exact hR.moved (by simp) hlast

/-- **Requests within the bound on the depth keep to the relation.** -/
theorem Kept.requestWithin (hR : Kept m R) (hm : m.WellFormed) (n : Nat) :
    Keeping m n R (requestWithin n) := by
  induction n with
  | zero =>
    refine ⟨within_requestWithin 0, fun d hd s => conforms_requestWithin hm 0 hd, ?_⟩
    intro d hd s hs
    refine hR.requestStep hm ?_ hd hs
    intro k hk
    cases hk
  | succ n ih =>
    refine ⟨within_requestWithin (n + 1), fun d hd s => conforms_requestWithin hm (n + 1) hd, ?_⟩
    intro d hd s hs
    refine hR.requestStep hm ?_ hd hs
    intro k hk
    obtain rfl := Nat.succ.inj hk
    exact ih

theorem Kept.request (hR : Kept m R) (hm : m.WellFormed) (n : Nat) : Keeping m n R request := by
  refine ⟨within_request, fun d hd s => conforms_request_of_bounded hm hd, ?_⟩
  intro d hd s hs
  exact (hR.requestWithin hm s.machine.uninitializedCount).keeps d hd s
    ⟨hs.evolves, Nat.le_refl _⟩

end Requests

/-! ### Runs -/

section Runs

variable {m : Machine} {n : Nat} {R : Session → Session → Prop} {s : Session}

theorem Kept.call (hR : Kept m R) (hm : m.WellFormed) (hs : Bounded m n s) {call : Call}
    (hcall : call.classId < m.classes.size) : R s (s.call call) := by
  have hrequest := hR.request hm n
  cases call with
  | request d => exact hrequest.keeps d hcall s hs
  | restore g d => exact hR.askRestore hm hrequest hcall hs g

/-- **Every run keeps to the relation.** -/
theorem Kept.callAll (hR : Kept m R) (hm : m.WellFormed) (hs : Bounded m n s) {calls : List Call}
    (hcalls : ∀ call ∈ calls, call.classId < m.classes.size) : R s (s.callAll calls) := by
  induction calls generalizing s with
  | nil => exact hR.stable.refl s
  | cons call rest ih =>
    obtain ⟨hcall, hrest⟩ := List.forall_mem_cons.1 hcalls
    have hfirst : R s (s.call call) := hR.call hm hs hcall
    exact hR.stable.trans hfirst (ih (hs.dwindles (hR.dwindles hfirst)) hrest)

end Runs

end Session

end ClassSharing
