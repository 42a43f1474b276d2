import ClassSharing.Proofs.Session.Journal
import ClassSharing.Proofs.Session.Termination

/-!
# The life of a class

A class that is requested lives through its whole initialization before the request returns: it is
begun, its superclass is granted, the archive is consulted if one is in use, its initializer is
entered, and it becomes ready or erroneous. Meanwhile other classes are requested at any depth,
among them the class itself, and these requests live through their classes in the same way. What
holds of one class is that a stretch of the run either leaves it alone or contains its whole life.

The induction is on the bound on the uninitialized classes. Inside a class that has been begun, the
requests settle every other class and leave the begun one alone, because it is not uninitialized.

## Main definitions

* `Session.Account`: what a stretch of a run does to one class
* `Session.Settles`: a stretch of a run does that to every class
* `Session.Conforms`, `Session.Conforming`: requests that settle the session and answer truly
* `Session.Passes`: a stretch of the initialization of one class settles the other ones
* `Session.Offline`: the session is known not to use an archive

## Main results

* `Session.passes_runInitializer`: what the initialization of a class does
* `Session.conforms_requestWithin`: a request settles the session and answers for the class
-/

namespace ClassSharing

/-! ### States and histories -/

namespace InitState

/-- Whether the initialization is over. -/
def isOver : InitState → Bool
  | ready | erroneous _ => true
  | uninitialized | running => false

/-- The moves from one state to the next. -/
inductive Leads : InitState → InitState → Prop where
  | begun : Leads uninitialized running
  | succeeded : Leads running ready
  | failed (cause : Fault) : Leads running (erroneous cause)

/-- A path of moves from one state to another. -/
inductive Path : InitState → List InitState → InitState → Prop where
  | nil (state : InitState) : Path state [] state
  | cons {state next last : InitState} {states : List InitState} (hleads : Leads state next)
      (hpath : Path next states last) : Path state (next :: states) last

theorem leads_of_isOver {state : InitState} (h : state.isOver = true) : Leads running state := by
  cases state with
  | ready => exact .succeeded
  | erroneous cause => exact .failed cause
  | uninitialized => cases h
  | running => cases h

end InitState

/-- What happens in the initialization of a class, depending on whether the archive is consulted and
whether the initializer is entered. -/
def interior (c : ClassId) (consulted entered : Bool) : List Event :=
  (if consulted then [.consulting c, .consulted c] else []) ++
    (if entered then [.entered c] else [])

/-- The steps of the life of a class, up to its last state. -/
def life (c : ClassId) (consulted entered : Bool) (state : InitState) : List Event :=
  .moved c .running :: interior c consulted entered ++ [.moved c state]

/-- The state that an event moves a class to. -/
def Event.target? : Event → Option InitState
  | moved _ state => some state
  | _ => none

/-- The states that a class is moved to by events, in order. -/
def moves (c : ClassId) (events : List Event) : List InitState :=
  (steps c events).filterMap Event.target?

namespace Session

/-! ### Archives that are not in use -/

/-- Whether the graph that is consulted says that an archive is in use. -/
def inUse (s : Session) : Bool :=
  match s.hook with
  | none => false
  | some g => (isUsing g s).1

/-- A gate answers that no archive is in use, and will not change that answer. -/
def Declines (s : Session) (id : GateId) : Prop :=
  (∃ status, (s.gateAt id).status = some status ∧ status.isUsing = false) ∨ s.gates.size ≤ id

/-- The session is known not to use an archive. -/
def Offline (s : Session) : Prop := ∀ g, s.hook = some g → s.Declines (s.graphAt g).gate

section Offline

variable {s s' : Session}

theorem Evolves.offline (h : s.Evolves s') (hs : s.Offline) : s'.Offline := by
  intro g hg
  rw [h.hook] at hg
  rw [h.gateOf]
  rcases hs g hg with ⟨status, hstatus, hnot⟩ | hsize
  · exact .inl ⟨status, h.status _ _ hstatus, hnot⟩
  · exact .inr (by rw [h.gateCount]; exact hsize)

theorem gateAt_of_size_le {id : GateId} (h : s.gates.size ≤ id) : s.gateAt id = default := by
  rw [gateAt, Array.getElem?_eq_none h]
  rfl

/-- A gate that exists knows the status after it has been asked. -/
theorem status_gateStatus {id : GateId} (h : id < s.gates.size) :
    ((gateStatus id s).2.gateAt id).status = some (gateStatus id s).1 := by
  rw [gateStatus]
  cases hstatus : (s.gateAt id).status with
  | some status => exact hstatus
  | none =>
    -- Whatever the bootstrap says, the gate fixes what it answers.
    have hfixed : ∀ (t : Session) status, t.gates = s.gates →
        ((t.fixStatus id status).gateAt id).status = some status := by
      intro t status ht
      rw [fixStatus, gateAt_updateGate, if_pos ⟨rfl, by rw [ht]; exact h⟩]
    simp only
    rw [askStatus]
    cases (s.gateAt id).boot with
    | none => exact hfixed _ _ rfl
    | some b =>
      simp only
      cases judge (s.bootAt b).status with
      | ok status => exact hfixed _ _ rfl
      | error message => exact hfixed _ _ rfl

/-- A graph that says that no archive is in use will say so again. -/
theorem declines_isUsing {g : GraphId} (h : (isUsing g s).1 = false) :
    (isUsing g s).2.Declines (s.graphAt g).gate := by
  by_cases hsize : (s.graphAt g).gate < s.gates.size
  · exact .inl ⟨_, status_gateStatus hsize, h⟩
  · refine .inr ?_
    rw [(calm_isUsing g s).evolves.gateCount]
    exact Nat.not_lt.1 hsize

theorem inUse_of_offline (h : s.Offline) : s.inUse = false := by
  rw [inUse]
  cases hhook : s.hook with
  | none => rfl
  | some g =>
    show (gateStatus (s.graphAt g).gate s).1.isUsing = false
    rcases h g hhook with ⟨status, hstatus, hnot⟩ | hsize
    · rw [gateStatus, hstatus]
      exact hnot
    · have hnone : (gateStatus (s.graphAt g).gate s).1 = Status.none := by
        rw [gateStatus, gateAt_of_size_le hsize, askStatus, gateAt_of_size_le hsize]
        rfl
      rw [hnone]
      decide

/-- Whether an archive is in use does not depend on the machine. -/
theorem inUse_congr (hhook : s'.hook = s.hook) (hgraphs : s'.graphs = s.graphs)
    (hgates : s'.gates = s.gates) (hboots : s'.boots = s.boots) : s'.inUse = s.inUse := by
  have hstatus : ∀ id, (gateStatus id s').1 = (gateStatus id s).1 := by
    intro id
    have hgate : s'.gateAt id = s.gateAt id := by rw [gateAt, gateAt, hgates]
    rw [gateStatus, gateStatus, hgate]
    cases (s.gateAt id).status with
    | some status => rfl
    | none =>
      simp only [askStatus, hgate]
      cases (s.gateAt id).boot with
      | none => rfl
      | some b =>
        simp only [bootAt, hboots]
        cases judge (s.boots[b]?.getD .unopened).status <;> rfl
  rw [inUse, inUse, hhook]
  cases s.hook with
  | none => rfl
  | some g =>
    show (gateStatus (s'.graphAt g).gate s').1.isUsing = (gateStatus (s.graphAt g).gate s).1.isUsing
    rw [graphAt, graphAt, hgraphs, hstatus]

/-- **An archive that is not in use is not asked for anything**, now or later. -/
theorem exists_consultHook_of_not_inUse (request : Requester) (c : ClassId)
    (h : s.inUse = false) : ∃ s', consultHook request c s = ((), s') ∧ s'.machine = s.machine ∧
      s'.Offline ∧ s.Evolves s' := by
  cases hhook : s.hook with
  | none =>
    refine ⟨s, consultHook_of_none hhook, rfl, fun g hg => ?_, .refl s⟩
    rw [hhook] at hg
    cases hg
  | some g =>
    have hnot : (isUsing g s).1 = false := by
      rw [inUse, hhook] at h
      exact h
    have hevolves := (calm_isUsing g s).evolves
    refine ⟨(isUsing g s).2, ?_, machine_isUsing g s, fun other hother => ?_, hevolves⟩
    · rw [consultHook_of_some hhook, hnot]
      rfl
    · rw [hevolves.hook, hhook] at hother
      obtain rfl := Option.some.inj hother
      rw [hevolves.gateOf]
      exact declines_isUsing hnot

end Offline

/-! ### Accounts -/

/-- What a stretch of a run does to one class: it leaves the class alone, or contains its whole
life. -/
inductive Account (c : ClassId) (s s' : Session) : Prop where
  | idle (hstate : s'.machine.stateOf c = s.machine.stateOf c) (hsteps : steps c (s.since s') = [])
  | lived (consulted entered : Bool) (hbefore : s.machine.stateOf c = .uninitialized)
      (hover : (s'.machine.stateOf c).isOver = true)
      (hsteps : steps c (s.since s') = life c consulted entered (s'.machine.stateOf c))
      (hsuper : ∀ parent, (s.machine.classAt c).superclass = some parent →
        Preceded (.entered c) (· = .granted parent) (s.since s'))
      (honline : entered = true → consulted = false → s'.Offline)

/-- A stretch of a run that leaves each class alone or contains its whole life. -/
structure Settles (s s' : Session) : Prop where
  evolves : s.Evolves s'
  journal : s.journal <+: s'.journal
  accounts : ∀ c, Account c s s'

section Settling

variable {s s' s'' : Session} {c : ClassId}

theorem notMem_of_steps_eq_nil {e : Event} {events : List Event} (he : e.stepOf? = some c)
    (h : steps c events = []) : e ∉ events := by
  intro hmem
  have hstep : e ∈ steps c events := mem_steps.2 ⟨hmem, he⟩
  rw [h] at hstep
  cases hstep

theorem Account.trans (h : Account c s s') (h' : Account c s' s'') (hevolves : s.Evolves s')
    (hevolves' : s'.Evolves s'') (hjournal : s.journal <+: s'.journal)
    (hjournal' : s'.journal <+: s''.journal) : Account c s s'' := by
  have hsince := since_trans hjournal hjournal'
  cases h with
  | idle hstate hsteps =>
    cases h' with
    | idle hstate' hsteps' =>
      refine .idle (hstate'.trans hstate) ?_
      rw [hsince, steps_append, hsteps, hsteps', List.append_nil]
    | lived consulted entered hbefore hover hsteps' hsuper honline =>
      refine .lived consulted entered (hstate.symm.trans hbefore) hover ?_ ?_ honline
      · rw [hsince, steps_append, hsteps, List.nil_append, hsteps']
      · intro parent hparent
        rw [hsince]
        refine (preceded_of_notMem (notMem_of_steps_eq_nil rfl hsteps)).append (hsuper parent ?_)
        rw [hevolves.machine.superclass]
        exact hparent
  | lived consulted entered hbefore hover hsteps hsuper honline =>
    cases h' with
    | idle hstate' hsteps' =>
      refine .lived consulted entered hbefore (by rw [hstate']; exact hover) ?_ ?_ ?_
      · rw [hsince, steps_append, hsteps, hsteps', List.append_nil, hstate']
      · intro parent hparent
        rw [hsince]
        exact (hsuper parent hparent).append
          (preceded_of_notMem (notMem_of_steps_eq_nil rfl hsteps'))
      · intro he hc
        exact hevolves'.offline (honline he hc)
    | lived _ _ hbefore' _ _ _ _ =>
      rw [hbefore'] at hover
      cases hover

theorem stable_settles : Stable Settles where
  refl s := ⟨.refl s, List.prefix_rfl, fun _ => .idle rfl (by rw [since_of_journal_eq rfl]; rfl)⟩
  trans h h' := ⟨h.evolves.trans h'.evolves, h.journal.trans h'.journal, fun c =>
    (h.accounts c).trans (h'.accounts c) h.evolves h'.evolves h.journal h'.journal⟩

/-- A stretch in which no class moves and no step is noted. -/
theorem settles_of_aside (events : List Event) (hevolves : s.Evolves s')
    (hstates : ∀ c, s'.machine.stateOf c = s.machine.stateOf c)
    (hjournal : s'.journal = s.journal ++ events) (hevents : ∀ e ∈ events, e.stepOf? = none) :
    s.Settles s' := by
  refine ⟨hevolves, ⟨events, hjournal.symm⟩, ?_⟩
  intro c
  refine .idle (hstates c) ?_
  rw [since_eq hjournal, steps, List.filter_eq_nil_iff]
  intro e he
  simp [hevents e he]

theorem Calm.settles (h : s.Calm s') : s.Settles s' :=
  settles_of_aside [] h.evolves h.states (by rw [h.journal, List.append_nil]) (by simp)

theorem settles_note {e : Event} (he : e.stepOf? = none) : s.Settles (s.note e) :=
  settles_of_aside [e] (evolves_note s e) (fun _ => rfl) rfl (by simpa using he)

/-- Only an uninitialized class is not left alone. -/
theorem Settles.idle (h : s.Settles s') (hc : s.machine.stateOf c ≠ .uninitialized) :
    s'.machine.stateOf c = s.machine.stateOf c ∧ steps c (s.since s') = [] := by
  cases h.accounts c with
  | idle hstate hsteps => exact ⟨hstate, hsteps⟩
  | lived _ _ hbefore => exact absurd hbefore hc

theorem Settles.erroneous (h : s.Settles s') {cause : Fault}
    (hc : s.machine.stateOf c = .erroneous cause) : s'.machine.stateOf c = .erroneous cause :=
  (h.idle (by rw [hc]; simp)).1.trans hc

theorem settles_recordOutcome (g : GraphId) (name : Text) (outcome : Outcome) :
    Within Settles (recordOutcome g name outcome) :=
  within_recordOutcome stable_settles fun s => settles_of_aside [.recorded g name outcome]
    (evolves_withOutcome s g name outcome) (fun _ => rfl) rfl (by simp [Event.stepOf?])

theorem Account.uninitialized (h : Account c s s') (hc : s'.machine.stateOf c = .uninitialized) :
    s.machine.stateOf c = .uninitialized := by
  cases h with
  | idle hstate _ => rw [← hstate, hc]
  | lived _ _ hbefore => exact hbefore

theorem Settles.dwindles (h : s.Settles s') : s.Dwindles s' :=
  ⟨h.evolves, fun c => (h.accounts c).uninitialized⟩

end Settling

end Session

open Session

/-! ### The regime -/

namespace Regime

variable {m : Machine}

/-- The regime of bounded sessions in which every stretch of a run settles the session. -/
def settling (hm : m.WellFormed) (n : Nat) : Regime :=
  ofRelation hm n Settles stable_settles Calm.settles Settles.dwindles

theorem indifferent_settling (hm : m.WellFormed) (n : Nat) : (settling hm n).Indifferent where
  asked _ _ _ := settles_note rfl
  commit _ _ := within_commit (settling hm n).code fun _ _ => settles_note rfl
  record := settles_recordOutcome

end Regime

namespace Session

/-! ### Inside an initialization -/

/-- A stretch of the initialization of the class `c`: the other classes are settled, the class stays
in its state, and the given steps of it are made. -/
structure Passes (c : ClassId) (done : List Event) (s s' : Session) : Prop where
  evolves : s.Evolves s'
  journal : s.journal <+: s'.journal
  others : ∀ d, d ≠ c → Account d s s'
  state : s'.machine.stateOf c = s.machine.stateOf c
  steps : steps c (s.since s') = done

section Passing

variable {s s' s'' : Session} {c : ClassId} {done later : List Event}

theorem Passes.trans (h : Passes c done s s') (h' : Passes c later s' s'') :
    Passes c (done ++ later) s s'' where
  evolves := h.evolves.trans h'.evolves
  journal := h.journal.trans h'.journal
  others d hd := (h.others d hd).trans (h'.others d hd) h.evolves h'.evolves h.journal h'.journal
  state := h'.state.trans h.state
  steps := by rw [since_trans h.journal h'.journal, steps_append, h.steps, h'.steps]

theorem Passes.dwindles (h : Passes c done s s') : s.Dwindles s' := by
  refine ⟨h.evolves, ?_⟩
  intro d hd
  by_cases hdc : d = c
  · rw [hdc, ← h.state, ← hdc, hd]
  · exact (h.others d hdc).uninitialized hd

/-- **What runs inside leaves the class alone**, because it is not uninitialized. -/
theorem Settles.passes (h : s.Settles s') (hc : s.machine.stateOf c ≠ .uninitialized) :
    Passes c [] s s' where
  evolves := h.evolves
  journal := h.journal
  others d _ := h.accounts d
  state := (h.idle hc).1
  steps := (h.idle hc).2

theorem passes_note {e : Event} (he : e.stepOf? = some c) : Passes c [e] s (s.note e) where
  evolves := evolves_note s e
  journal := List.prefix_append _ _
  others d hd := by
    refine .idle rfl ?_
    rw [since_note]
    refine steps_singleton_of_ne ?_
    rw [he]
    exact fun h => hd (Option.some.inj h).symm
  state := rfl
  steps := by rw [since_note, steps_cons_of_eq he, steps_nil]

end Passing

/-! ### The whole life -/

section Life

variable {s s' : Session} {c d : ClassId} {state : InitState}

theorem stateOf_move (hc : c < s.machine.classes.size) :
    (s.move c state).machine.stateOf c = state :=
  (Machine.stateOf_setState s.machine c c state).trans (if_pos ⟨rfl, hc⟩)

theorem stateOf_move_of_ne (hd : d ≠ c) :
    (s.move c state).machine.stateOf d = s.machine.stateOf d :=
  (Machine.stateOf_setState s.machine c d state).trans (if_neg fun h => hd h.1)

theorem since_move (s : Session) (c : ClassId) (state : InitState) :
    s.since (s.move c state) = [.moved c state] :=
  since_eq rfl

theorem account_move (hd : d ≠ c) : Account d s (s.move c state) := by
  refine .idle (stateOf_move_of_ne hd) ?_
  rw [since_move]
  refine steps_singleton_of_ne ?_
  exact fun h => hd (Option.some.inj h).symm

/-- **A class lives.** A class that is begun, passes through its initialization and moves to its
last state has lived its life, and all other classes are settled. -/
theorem settles_of_passes {consulted entered : Bool} (hc : c < s.machine.classes.size)
    (hbefore : s.machine.stateOf c = .uninitialized) (hover : state.isOver = true)
    (h : Passes c (interior c consulted entered) (s.begin c) s')
    (hsuper : ∀ parent, (s.machine.classAt c).superclass = some parent →
      Preceded (.entered c) (· = .granted parent) ((s.begin c).since s'))
    (honline : entered = true → consulted = false → s'.Offline) :
    s.Settles (s'.move c state) := by
  have hbegun : s.Evolves (s.begin c) := evolves_move s c .running
  have hmoved : s'.Evolves (s'.move c state) := evolves_move s' c state
  have hfirst : s.journal <+: (s.begin c).journal := List.prefix_append _ _
  have hlast : s'.journal <+: (s'.move c state).journal := List.prefix_append _ _
  have hsince : s.since (s'.move c state)
      = [.moved c .running] ++ (s.begin c).since s' ++ [.moved c state] := by
    rw [since_trans (hfirst.trans h.journal) hlast, since_trans hfirst h.journal, since_move, begin,
      since_move]
  have hafter : (s'.move c state).machine.stateOf c = state := by
    refine stateOf_move ?_
    rw [h.evolves.machine.size, hbegun.machine.size]
    exact hc
  refine ⟨(hbegun.trans h.evolves).trans hmoved, (hfirst.trans h.journal).trans hlast, ?_⟩
  intro d
  by_cases hd : d = c
  · subst hd
    refine .lived consulted entered hbefore (by rw [hafter]; exact hover) ?_ ?_ ?_
    · rw [hsince, hafter, steps_append, steps_append, h.steps, steps_cons_of_eq rfl,
        steps_cons_of_eq rfl]
      rfl
    · intro parent hparent
      rw [hsince]
      have hfirst : Preceded (.entered d) (· = .granted parent) [.moved d .running] :=
        preceded_of_notMem (by simp)
      have hlast : Preceded (.entered d) (· = .granted parent) [.moved d state] :=
        preceded_of_notMem (by simp)
      exact (hfirst.append (hsuper parent hparent)).append hlast
    · intro he hconsulted
      exact hmoved.offline (honline he hconsulted)
  · have hbefore := (account_move hd).trans (h.others d hd) hbegun h.evolves hfirst h.journal
    exact hbefore.trans (account_move hd) (hbegun.trans h.evolves) hmoved
      (hfirst.trans h.journal) hlast

end Life

/-! ### Requests -/

/-- A request settles the session, and its answer tells the state of the class. -/
structure Conforms (c : ClassId) (s : Session) (answered : Except Fault Unit × Session) : Prop where
  settles : s.Settles answered.2
  granted : answered.1 = .ok () →
    (answered.2.machine.stateOf c = .ready ∨ answered.2.machine.stateOf c = .running) ∧
      .granted c ∈ s.since answered.2
  refused : ∀ fault, answered.1 = .error fault →
    ∃ cause, answered.2.machine.stateOf c = .erroneous cause

/-- Requests for existing classes conform, where at most `n` classes are uninitialized. -/
def Conforming (m : Machine) (n : Nat) (r : Requester) : Prop :=
  ∀ d < m.classes.size, ∀ s, Bounded m n s → Conforms d s (r d s)

section Requests

variable {m : Machine} {k : Nat} {r : Requester} {s : Session} {c : ClassId}

theorem alike_settling (hm : m.WellFormed) (hr : Conforming m k r) (d : ClassId)
    (hd : (Regime.settling hm k).Admits d) : (Regime.settling hm k).Alike (r d) (r d) :=
  fun s hs => ⟨rfl, (hr d hd s hs).settles⟩

/-- A superclass that is requested without a fault has been granted. -/
theorem granted_requestSuperclass (hm : m.WellFormed) (hr : Conforming m k r) (hs : Bounded m k s)
    (h : (requestSuperclass r c s).1 = .ok ()) {parent : ClassId}
    (hparent : (s.machine.classAt c).superclass = some parent) :
    .granted parent ∈ s.since (requestSuperclass r c s).2 := by
  have hadmits : parent < m.classes.size := (Regime.settling hm k).superclass hs hparent
  have hconforms := hr parent hadmits s hs
  rw [requestSuperclass_eq hparent] at h ⊢
  exact (hconforms.granted (eq_ok_of_mapError_eq_ok h)).2

theorem passes_consultHook (hm : m.WellFormed) (hr : Conforming m k r) (hs : Bounded m k s)
    (hc : s.machine.stateOf c ≠ .uninitialized) :
    ∃ consulted, Passes c (if consulted then [.consulting c, .consulted c] else []) s
        (consultHook r c s).2 ∧
      (consulted = false → (consultHook r c s).2.Offline) := by
  cases hhook : s.hook with
  | none =>
    rw [consultHook_of_none hhook]
    refine ⟨false, (stable_settles.refl s).passes hc, ?_⟩
    intro _ g hg
    rw [hhook] at hg
    cases hg
  | some g =>
    have hcalm := calm_isUsing g s
    have hpasses : Passes c [] s (isUsing g s).2 := hcalm.settles.passes hc
    rw [consultHook_of_some hhook]
    by_cases hinUse : (isUsing g s).1 = true
    · rw [if_pos hinUse]
      have hnoted : Passes c [.consulting c] s ((isUsing g s).2.note (.consulting c)) :=
        hpasses.trans (passes_note rfl)
      have hbounded : Bounded m k ((isUsing g s).2.note (.consulting c)) :=
        hs.dwindles (stable_dwindles.trans hcalm.settles.dwindles (dwindles_note _ _))
      have hrestored := Regime.alike_tryRestore (Regime.indifferent_settling hm k)
        (alike_settling hm hr) g c _ hbounded
      have hrestored : Passes c [] _ _ := hrestored.allows.passes (hnoted.state ▸ hc)
      exact ⟨true, (hnoted.trans hrestored).trans (passes_note rfl), by simp⟩
    · rw [if_neg hinUse]
      refine ⟨false, hpasses, ?_⟩
      intro _ g' hg'
      rw [hcalm.evolves.hook, hhook] at hg'
      obtain rfl := Option.some.inj hg'
      rw [hcalm.evolves.gateOf]
      exact declines_isUsing (Bool.eq_false_of_not_eq_true hinUse)

theorem passes_enterInitializer (hm : m.WellFormed) (hr : Conforming m k r) (hs : Bounded m k s)
    (hc : s.machine.stateOf c ≠ .uninitialized) :
    ∃ entered : Bool,
      Passes c (if entered then [.entered c] else []) s (enterInitializer r c s).2 := by
  by_cases hnone : (s.machine.classAt c).initializer = .none
  · rw [enterInitializer_of_none hnone]
    exact ⟨false, (stable_settles.refl s).passes hc⟩
  · rw [enterInitializer_snd hnone]
    have hnoted : Passes c [.entered c] s (s.note (.entered c)) := passes_note rfl
    have hbounded : Bounded m k (s.note (.entered c)) := hs.dwindles (dwindles_note _ _)
    have hbody := Regime.alike_runBody (alike_settling hm hr)
      (fun g d _ => Regime.alike_askRestore (Regime.indifferent_settling hm k)
        (alike_settling hm hr) g d) hs (rfl : (s.machine.classAt c).initializer = _) _ hbounded
    exact ⟨true, hnoted.trans (hbody.allows.passes hc)⟩

/-- **The initialization of a class**: the superclass is granted before the initializer is entered,
and so is the archive consulted, unless it is known that none is in use. -/
theorem passes_runInitializer (hm : m.WellFormed) (hr : Conforming m k r) (hs : Bounded m k s)
    (hc : s.machine.stateOf c ≠ .uninitialized) :
    ∃ consulted entered,
      Passes c (interior c consulted entered) s (runInitializer r c s).2 ∧
      (∀ parent, (s.machine.classAt c).superclass = some parent →
        Preceded (.entered c) (· = .granted parent) (s.since (runInitializer r c s).2)) ∧
      (entered = true → consulted = false → (runInitializer r c s).2.Offline) := by
  have hsuper : s.Settles (requestSuperclass r c s).2 :=
    (Regime.alike_requestSuperclass (alike_settling hm hr) c s hs).allows
  have hpassed : Passes c [] s (requestSuperclass r c s).2 := hsuper.passes hc
  have hfirst : ∀ parent, Preceded (.entered c) (· = .granted parent)
      (s.since (requestSuperclass r c s).2) :=
    fun parent => preceded_of_notMem (notMem_of_steps_eq_nil rfl hpassed.steps)
  rcases hanswer : requestSuperclass r c s with ⟨answer, s₁⟩
  have hgranted := granted_requestSuperclass hm hr hs (c := c)
  rw [hanswer] at hsuper hpassed hfirst hgranted
  cases answer with
  | error fault =>
    rw [runInitializer_of_error hanswer]
    exact ⟨false, false, hpassed, fun parent _ => hfirst parent, by simp⟩
  | ok _ =>
    rw [runInitializer_eq hanswer]
    have hbounded : Bounded m k s₁ := hs.dwindles hsuper.dwindles
    obtain ⟨consulted, hconsulted, hoffline⟩ :=
      passes_consultHook hm hr hbounded (c := c) (hpassed.state ▸ hc)
    have hthen := hpassed.trans hconsulted
    have hbounded : Bounded m k (consultHook r c s₁).2 := hs.dwindles hthen.dwindles
    obtain ⟨entered, hentered⟩ := passes_enterInitializer hm hr hbounded (c := c) (hthen.state ▸ hc)
    have hrest := hconsulted.trans hentered
    refine ⟨consulted, entered, hpassed.trans hrest, ?_, ?_⟩
    · intro parent hparent
      rw [since_trans hpassed.journal hrest.journal]
      exact (hfirst parent).append_of_mem ⟨_, hgranted rfl hparent, rfl⟩ _
    · intro _ hnot
      exact hentered.evolves.offline (hoffline hnot)

/-- **One request conforms, if the requests inside do under a smaller bound.** -/
theorem conforms_requestStep (hm : m.WellFormed) {n : Nat}
    (hr : ∀ k, n = k + 1 → Conforming m k r) (hc : c < m.classes.size) (hs : Bounded m n s) :
    Conforms c s (requestStep r c s) := by
  have hsize : c < s.machine.classes.size := by
    rw [hs.evolves.size]
    exact hc
  cases hstate : s.machine.stateOf c with
  | ready =>
    rw [requestStep_of_ready hstate]
    exact ⟨settles_note rfl, fun _ => ⟨.inl hstate, by simp⟩, by simp⟩
  | running =>
    rw [requestStep_of_running hstate]
    exact ⟨settles_note rfl, fun _ => ⟨.inr hstate, by simp⟩, by simp⟩
  | erroneous cause =>
    rw [requestStep_of_erroneous hstate]
    exact ⟨stable_settles.refl s, by simp, fun _ _ => ⟨cause, hstate⟩⟩
  | uninitialized =>
    obtain ⟨k, rfl, hbegun⟩ := hs.begin hc hstate
    have hrunning : (s.begin c).machine.stateOf c = .running := stateOf_move hsize
    obtain ⟨consulted, entered, hpasses, hsuper, honline⟩ :=
      passes_runInitializer hm (hr k rfl) hbegun (c := c) (by rw [hrunning]; simp)
    -- The way to the end is the same, whether the class ends up ready or erroneous.
    have hlived : ∀ state : InitState, state.isOver = true →
        s.Settles ((runInitializer r c (s.begin c)).2.move c state) := by
      intro state hover
      refine settles_of_passes hsize hstate hover hpasses ?_ honline
      intro parent hparent
      refine hsuper parent ?_
      rw [begin, (evolves_move s c .running).machine.superclass]
      exact hparent
    have hafter : ∀ state, ((runInitializer r c (s.begin c)).2.move c state).machine.stateOf c
        = state := by
      intro state
      refine stateOf_move ?_
      rw [hpasses.evolves.machine.size]
      exact (evolves_move s c .running).machine.size ▸ hsize
    rw [requestStep_of_uninitialized hstate]
    generalize runInitializer r c (s.begin c) = answered at hlived hafter
    rcases answered with ⟨fault | _, s'⟩
    · exact ⟨hlived _ rfl, by simp, fun _ _ => ⟨fault, hafter _⟩⟩
    · have hgranted : s.Settles ((s'.move c .ready).note (.granted c)) :=
        stable_settles.trans (hlived .ready rfl) (settles_note rfl)
      refine ⟨hgranted, fun _ => ⟨.inl (hafter .ready), ?_⟩, by simp⟩
      show .granted c ∈ s.since ((s'.move c .ready).note (.granted c))
      rw [since_trans (hlived .ready rfl).journal (settles_note rfl).journal, since_note]
      simp

/-- **A request within the bound on the depth conforms.** -/
theorem conforms_requestWithin (hm : m.WellFormed) (n : Nat) (hc : c < m.classes.size)
    (hs : Bounded m n s) : Conforms c s (requestWithin n c s) := by
  induction n generalizing c s with
  | zero =>
    refine conforms_requestStep hm ?_ hc hs
    intro k hk
    cases hk
  | succ n ih =>
    refine conforms_requestStep hm ?_ hc hs
    intro k hk d hd s hs
    obtain rfl := Nat.succ.inj hk
    exact ih hd hs

theorem conforms_request (hs : s.machine.WellFormed) (hc : c < s.machine.classes.size) :
    Conforms c s (request c s) :=
  conforms_requestWithin hs s.machine.uninitializedCount hc (bounded_self s)

/-- Requests conform wherever the classes are the same. -/
theorem conforms_request_of_bounded (hm : m.WellFormed) {n : Nat} (hc : c < m.classes.size)
    (hs : Bounded m n s) : Conforms c s (request c s) :=
  conforms_request (hs.evolves.wellFormed hm) (by rw [hs.evolves.size]; exact hc)

end Requests

end Session

end ClassSharing
