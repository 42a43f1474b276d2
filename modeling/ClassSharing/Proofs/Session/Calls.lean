import ClassSharing.Proofs.Session.Lifecycle

/-!
# Calls from outside

A run is a sequence of calls from outside: requests for classes and restorations that a graph is
asked for. Every call settles the session, so a whole run leaves each class alone or contains its
whole life, and no class is half initialized between two calls.

## Main definitions

* `Call`, `Session.callAll`: runs

## Main results

* `Session.Universal.callAll`: what holds of every run because it holds of everything in it
* `Session.settles_callAll`: a run settles the session
* `Session.initialized_once_in_order`: each class is initialized at most once, and in order
* `Session.request_leaves_nothing_running`: a request leaves no class half initialized
-/

namespace ClassSharing

/-- A call from outside. -/
inductive Call where
  /-- Requests a class. -/
  | request (c : ClassId)
  /-- Asks a graph to restore a class. -/
  | restore (g : GraphId) (c : ClassId)
deriving DecidableEq

/-- The class that a call is about. -/
def Call.classId : Call → ClassId
  | request c | restore _ c => c

namespace Session

/-- The session after a call. -/
def call (s : Session) : Call → Session
  | .request c => (request c s).2
  | .restore g c => (restoreClass g c s).2

/-- The session after several calls, one after another. -/
def callAll (s : Session) (calls : List Call) : Session := calls.foldl call s

/-- What holds of whatever happens in a session holds of every run. -/
theorem Universal.callAll {R : Session → Session → Prop} (hR : Universal R) (s : Session)
    (calls : List Call) : R s (s.callAll calls) := by
  induction calls generalizing s with
  | nil => exact hR.code.stable.refl s
  | cons call rest ih =>
    refine hR.code.stable.trans ?_ (ih (s.call call))
    cases call with
    | request c => exact hR.request c s
    | restore g c => exact hR.askRestore hR.request g c s

section Runs

variable {s s' : Session} {c : ClassId} {calls : List Call}

/-! ### Runs settle the session -/

theorem settles_restoreClass (hs : s.machine.WellFormed) (g : GraphId) (c : ClassId) :
    s.Settles (restoreClass g c s).2 := by
  exact (Regime.alike_askRestore (Regime.indifferent_settling hs _)
    (alike_settling hs fun _ hd _ ht => conforms_request_of_bounded hs hd ht) g c s
    (bounded_self s)).allows

theorem settles_call (hs : s.machine.WellFormed) {call : Call}
    (hcall : call.classId < s.machine.classes.size) : s.Settles (s.call call) := by
  cases call with
  | request c => exact (conforms_request hs hcall).settles
  | restore g c => exact settles_restoreClass hs g c

/-- **A run settles the session.** -/
theorem settles_callAll (hs : s.machine.WellFormed)
    (hcalls : ∀ call ∈ calls, call.classId < s.machine.classes.size) :
    s.Settles (s.callAll calls) := by
  induction calls generalizing s with
  | nil => exact stable_settles.refl s
  | cons call rest ih =>
    obtain ⟨hcall, hrest⟩ := List.forall_mem_cons.1 hcalls
    have hfirst := settles_call hs hcall
    refine stable_settles.trans hfirst (ih (hfirst.evolves.machine.wellFormed hs) ?_)
    intro other hother
    rw [hfirst.evolves.machine.size]
    exact hrest other hother

/-! ### What an account says -/

theorem moves_life (c : ClassId) (consulted entered : Bool) (state : InitState) :
    (life c consulted entered state).filterMap Event.target? = [.running, state] := by
  cases consulted <;> cases entered <;> rfl

theorem Account.path (h : Account c s s') :
    InitState.Path (s.machine.stateOf c) (moves c (s.since s')) (s'.machine.stateOf c) := by
  cases h with
  | idle hstate hsteps =>
    rw [moves, hsteps, hstate]
    exact .nil _
  | lived consulted entered hbefore hover hsteps _ _ =>
    rw [moves, hsteps, moves_life, hbefore]
    exact .cons .begun (.cons (InitState.leads_of_isOver hover) (.nil _))

/-- An event that occurs at most once in every life of a class. -/
theorem Account.count_le_one (h : Account c s s') {e : Event} (he : e.stepOf? = some c)
    (hlife : ∀ consulted entered state, (life c consulted entered state).count e ≤ 1) :
    (s.since s').count e ≤ 1 := by
  rw [← count_steps he]
  cases h with
  | idle _ hsteps =>
    rw [hsteps]
    exact Nat.zero_le 1
  | lived consulted entered _ _ hsteps _ _ =>
    rw [hsteps]
    exact hlife consulted entered _

theorem count_entered_life (c : ClassId) (consulted entered : Bool) (state : InitState) :
    (life c consulted entered state).count (.entered c) ≤ 1 := by
  cases consulted <;> cases entered <;> simp [life, interior]

theorem count_consulting_life (c : ClassId) (consulted entered : Bool) (state : InitState) :
    (life c consulted entered state).count (.consulting c) ≤ 1 := by
  cases consulted <;> cases entered <;> simp [life, interior]

theorem Account.preceded_granted (h : Account c s s') {parent : ClassId}
    (hparent : (s.machine.classAt c).superclass = some parent) :
    Preceded (.entered c) (· = .granted parent) (s.since s') := by
  cases h with
  | idle _ hsteps => exact preceded_of_notMem (notMem_of_steps_eq_nil rfl hsteps)
  | lived _ _ _ _ _ hsuper _ => exact hsuper parent hparent

/-- Where an archive is in use at the end, it was consulted before the initializer was entered. -/
theorem Account.preceded_consulted (h : Account c s s') (hinUse : s'.inUse = true) :
    Preceded (.entered c) (· = .consulted c) (s.since s') := by
  cases h with
  | idle _ hsteps => exact preceded_of_notMem (notMem_of_steps_eq_nil rfl hsteps)
  | lived consulted entered _ _ hsteps _ honline =>
    refine Preceded.of_steps (c := c) rfl ?_
    rw [hsteps]
    cases entered with
    | false => exact preceded_of_notMem (by cases consulted <;> simp [life, interior])
    | true =>
      cases consulted with
      | false =>
        rw [inUse_of_offline (honline rfl rfl)] at hinUse
        cases hinUse
      | true =>
        have hfirst : Preceded (.entered c) (· = .consulted c)
            [.moved c .running, .consulting c, .consulted c] := preceded_of_notMem (by simp)
        exact hfirst.append_of_mem (by simp) _

/-! ### Main results -/

/-- **Each class is initialized at most once, and in order.** In every run, the state of a class
moves from uninitialized over running to ready or erroneous and no further; its initializer is
entered at most once and the archive consulted about it at most once, and not at all if the class
was not uninitialized; and whenever its initializer is entered, a request for its superclass has
been granted before, and if an archive is in use, it has been consulted about the class. -/
theorem initialized_once_in_order (hs : s.machine.WellFormed)
    (hcalls : ∀ call ∈ calls, call.classId < s.machine.classes.size) (c : ClassId) :
    ∃ events, (s.callAll calls).journal = s.journal ++ events ∧
      InitState.Path (s.machine.stateOf c) (moves c events)
        ((s.callAll calls).machine.stateOf c) ∧
      events.count (.entered c) ≤ 1 ∧ events.count (.consulting c) ≤ 1 ∧
      (s.machine.stateOf c ≠ .uninitialized → steps c events = []) ∧
      (∀ parent, (s.machine.classAt c).superclass = some parent →
        Preceded (.entered c) (· = .granted parent) events) ∧
      ((s.callAll calls).inUse = true → Preceded (.entered c) (· = .consulted c) events) := by
  have hsettles := settles_callAll hs hcalls
  have haccount := hsettles.accounts c
  refine ⟨s.since (s.callAll calls), journal_eq hsettles.journal, haccount.path,
    haccount.count_le_one rfl (count_entered_life c),
    haccount.count_le_one rfl (count_consulting_life c), ?_, ?_, haccount.preceded_consulted⟩
  · intro hstate
    exact (hsettles.idle hstate).2
  · intro parent hparent
    exact haccount.preceded_granted hparent

/-- `C` is restored from outside, and then `F` is requested, which is derived from `A`. -/
def tangledCalls : List Call := [.restore 0 2, .request 4]

/-- The initializer of `F` is entered after `A` has been granted and the archive consulted. -/
theorem initialized_once_in_order_tangledCalls :
    tangledSession.machine.WellFormed ∧
      (∀ call ∈ tangledCalls, call.classId < tangledSession.machine.classes.size) ∧
      ∃ events, (tangledSession.callAll tangledCalls).journal = tangledSession.journal ++ events ∧
        InitState.Path .uninitialized (moves 4 events)
          ((tangledSession.callAll tangledCalls).machine.stateOf 4) ∧
        events.count (.entered 4) ≤ 1 ∧ events.count (.consulting 4) ≤ 1 ∧
        Preceded (.entered 4) (· = .granted 3) events ∧
        Preceded (.entered 4) (· = .consulted 4) events := by
  have hcalls : ∀ call ∈ tangledCalls, call.classId < tangledSession.machine.classes.size := by
    decide
  have hinUse : (tangledSession.callAll tangledCalls).inUse = true := by decide +kernel
  obtain ⟨events, hevents, hpath, hentered, hconsulting, -, hgranted, hconsulted⟩ :=
    initialized_once_in_order wellFormed_tangledMachine hcalls 4
  rw [stateOf_tangledSession] at hpath
  exact ⟨wellFormed_tangledMachine, hcalls, events, hevents, hpath, hentered, hconsulting,
    hgranted 3 (by decide), hconsulted hinUse⟩

/-- **A request leaves no class half initialized.** If no class is being initialized before, then
none is after, and the request is granted if and only if the class is ready, and refused if and only
if it is erroneous. -/
theorem request_leaves_nothing_running (hs : s.machine.WellFormed)
    (hc : c < s.machine.classes.size) (hquiet : ∀ d, s.machine.stateOf d ≠ .running) :
    (∀ d, (request c s).2.machine.stateOf d ≠ .running) ∧
      ((request c s).1 = .ok () ↔ (request c s).2.machine.stateOf c = .ready) ∧
      ((∃ fault, (request c s).1 = .error fault) ↔
        ∃ cause, (request c s).2.machine.stateOf c = .erroneous cause) := by
  have hconforms := conforms_request hs hc
  have hafter : ∀ d, (request c s).2.machine.stateOf d ≠ .running := by
    intro d hd
    cases hconforms.settles.accounts d with
    | idle hstate _ => exact hquiet d (hstate ▸ hd)
    | lived _ _ _ hover _ _ _ =>
      rw [hd] at hover
      cases hover
  have hgranted : (request c s).1 = .ok () → (request c s).2.machine.stateOf c = .ready :=
    fun h => (hconforms.granted h).1.resolve_right (hafter c)
  refine ⟨hafter, ?_, ?_⟩
  · refine ⟨hgranted, ?_⟩
    intro hready
    cases hanswer : (request c s).1 with
    | ok _ => rfl
    | error fault =>
      obtain ⟨cause, hcause⟩ := hconforms.refused fault hanswer
      rw [hready] at hcause
      cases hcause
  · constructor
    · rintro ⟨fault, hfault⟩
      exact hconforms.refused fault hfault
    · rintro ⟨cause, hcause⟩
      cases hanswer : (request c s).1 with
      | error fault => exact ⟨fault, rfl⟩
      | ok _ =>
        rw [hgranted hanswer] at hcause
        cases hcause

/-- `F` panics after its superclass has been initialized, and is erroneous afterwards. -/
theorem request_leaves_nothing_running_tangledSession :
    tangledSession.machine.WellFormed ∧ 4 < tangledSession.machine.classes.size ∧
      (∀ d, tangledSession.machine.stateOf d ≠ .running) ∧
      (∀ d, (request 4 tangledSession).2.machine.stateOf d ≠ .running) ∧
      ∃ cause, (request 4 tangledSession).2.machine.stateOf 4 = .erroneous cause := by
  have hc : 4 < tangledSession.machine.classes.size := by decide
  have hquiet : ∀ d, tangledSession.machine.stateOf d ≠ .running := by
    intro d
    rw [stateOf_tangledSession]
    simp
  have hrefused : (request 4 tangledSession).1 ≠ .ok () := by decide +kernel
  obtain ⟨hafter, -, herroneous⟩ :=
    request_leaves_nothing_running wellFormed_tangledMachine hc hquiet
  refine ⟨wellFormed_tangledMachine, hc, hquiet, hafter, herroneous.1 ?_⟩
  cases hanswer : (request 4 tangledSession).1 with
  | ok _ => exact absurd hanswer hrefused
  | error fault => exact ⟨fault, rfl⟩

end Runs

end Session

end ClassSharing
