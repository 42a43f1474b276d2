import ClassSharing.Proofs.Session.Calls
import ClassSharing.Proofs.Session.Request

/-!
# Failed initializations

A class whose initialization fails becomes erroneous and keeps the cause. The cause may be a fault
of its own initializer or a panic in it, or the fault with which the request for its superclass was
refused. The latter may be fresh, or tell again why the superclass has been erroneous before, and
was made in the same way. So the causes are chains of any length, and at the bottom of each of them
is an initializer that failed.

That they are is an invariant of sessions and not of causes: the answer of a request for an
erroneous class is as good as the cause that this class has kept. So what is carried through the
recursion is both: the session remembers, and the answers tell of a failed initializer.

## Main definitions

* `Fault.Encloses`: a fault is a part of another one
* `Session.Remembers`: every erroneous class knows of a failed initializer
* `Session.Candid`: requests that keep this up, and whose refusals tell of a failed initializer

## Main results

* `Session.candid_requestStep`, `Session.candid_request`: one request, and requests
* `Session.remembers_callAll`: every run
* `Session.requestStep_of_superclass_error`: a class whose superclass is refused
* `Session.failures_remembered`: failures in all runs
-/

namespace ClassSharing

open Session

/-! ### Parts of faults -/

namespace Fault

/-- A fault is a part of another one, at any depth. -/
inductive Encloses : Fault → Fault → Prop where
  | refl (fault : Fault) : Encloses fault fault
  | within {fault inner : Fault} (context : Context) (h : Encloses fault inner) :
      Encloses (.within context fault) inner
  | initializerFailed {fault inner : Fault} (className : Text) (h : Encloses fault inner) :
      Encloses (.initializerFailed className fault) inner
  | erroneousClass {fault inner : Fault} (className : Text) (h : Encloses fault inner) :
      Encloses (.erroneousClass className fault) inner
  | first {fault inner : Fault} (second : Fault) (h : Encloses fault inner) :
      Encloses (.both fault second) inner
  | second {fault inner : Fault} (first : Fault) (h : Encloses fault inner) :
      Encloses (.both first fault) inner

/-- A fault wraps what its parts wrap. -/
theorem Encloses.wraps {fault inner : Fault} (h : fault.Encloses inner) {kind : FaultKind}
    (hinner : inner.wraps kind = true) : fault.wraps kind = true := by
  induction h with
  | refl => exact hinner
  | within context _ ih => exact ih hinner
  | initializerFailed className _ ih => exact Bool.or_eq_true_iff.2 (.inr (ih hinner))
  | erroneousClass className _ ih => exact Bool.or_eq_true_iff.2 (.inr (ih hinner))
  | first second _ ih => exact Bool.or_eq_true_iff.2 (.inl (ih hinner))
  | second first _ ih => exact Bool.or_eq_true_iff.2 (.inr (ih hinner))

end Fault

/-! ### The invariant -/

/-- Every erroneous class knows of an initializer that failed. -/
def Session.Remembers (s : Session) : Prop :=
  ∀ c cause, s.machine.stateOf c = .erroneous cause → cause.wraps .initializerFailed = true

/-- The regime of the sessions that remember. -/
def Regime.remembering : Regime where
  Holds := Remembers
  Admits _ := True
  Allows s s' := s.Remembers → s'.Remembers
  code := .of_calm ⟨fun _ hs => hs, fun h h' hs => h' (h hs)⟩ fun h hs c cause hc =>
    hs c cause (by rw [← h.states, hc])
  keeps hs h := h hs
  lookup _ _ := trivial
  superclass _ _ := trivial
  collections _ _ := trivial

theorem Regime.indifferent_remembering : remembering.Indifferent where
  asked _ _ _ hs := hs
  commit _ _ := within_commit remembering.code fun _ _ hs => hs
  record _ _ _ := within_recordOutcome remembering.stable fun _ hs => hs

namespace Session

variable {s s' u : Session} {c parent : ClassId} {cause fault : Fault}

/-- A class may become erroneous if it knows of an initializer that failed. -/
theorem Remembers.move (hs : s.Remembers) {state : InitState}
    (h : ∀ cause, state = .erroneous cause → cause.wraps .initializerFailed = true) :
    (s.move c state).Remembers := by
  intro d cause hd
  have hstate : (s.machine.setState c state).stateOf d = .erroneous cause := hd
  rw [Machine.stateOf_setState] at hstate
  split at hstate
  · exact h cause hstate
  · exact hs d cause hstate

/-! ### Requests -/

/-- Requests after which the session still remembers, and whose refusals tell of an initializer
that failed. -/
def Candid (r : Requester) : Prop :=
  ∀ c s, s.Remembers → (r c s).2.Remembers ∧
    ∀ fault, (r c s).1 = .error fault → fault.wraps .initializerFailed = true

theorem Candid.alike {r : Requester} (hr : Candid r) (c : ClassId) :
    Regime.remembering.Alike (r c) (r c) :=
  fun s hs => ⟨rfl, fun _ => (hr c s hs).1⟩

section Requests

variable {r : Requester}

/-- **An initializer that fails** reports that it did, with a fault or with a panic. -/
theorem wraps_enterInitializer (h : (enterInitializer r c s).1 = .error fault) :
    fault.wraps .initializerFailed = true := by
  have hnote : (modify fun s => s.note (.entered c) : Act Unit) s = ((), s.note (.entered c)) := rfl
  rw [enterInitializer, bind_apply, get_apply] at h
  simp only at h
  generalize (s.machine.classAt c).initializer = initializer at h
  cases initializer with
  | none => cases h
  | _ =>
    dsimp only at h
    rw [bind_apply, hnote, bind_apply, ExceptT.run] at h
    generalize runBody r c _ (s.note (.entered c)) = answered at h
    rcases answered with ⟨(inner | p) | _, s'⟩
    · obtain rfl := Except.error.inj h
      rfl
    · obtain rfl := Except.error.inj h
      rfl
    · cases h

/-- A superclass that is refused is refused for an initializer that failed. -/
theorem Candid.wraps_requestSuperclass (hr : Candid r) (hs : s.Remembers)
    (h : (requestSuperclass r c s).1 = .error fault) :
    fault.wraps .initializerFailed = true := by
  cases hsuper : (s.machine.classAt c).superclass with
  | none =>
    rw [requestSuperclass_of_none hsuper] at h
    cases h
  | some parent =>
    rw [requestSuperclass_eq hsuper] at h
    cases hanswer : (r parent s).1 with
    | ok _ =>
      rw [hanswer] at h
      cases h
    | error inner =>
      rw [hanswer] at h
      obtain rfl := Except.error.inj h
      exact (hr parent s hs).2 inner hanswer

/-- **The initialization of a class** fails for an initializer that failed. -/
theorem Candid.runInitializer (hr : Candid r) (hs : s.Remembers) :
    (runInitializer r c s).2.Remembers ∧
      ∀ fault, (Session.runInitializer r c s).1 = .error fault →
        fault.wraps .initializerFailed = true := by
  have hrun := Regime.indifferent_remembering.alike_runInitializer (fun _ _ hs => hs)
    (fun d _ => hr.alike d) c s hs
  refine ⟨hrun.allows hs, fun fault h => ?_⟩
  have hsuper : (requestSuperclass r c s).1 = .error fault →
      fault.wraps .initializerFailed = true := hr.wraps_requestSuperclass hs
  rcases hanswer : requestSuperclass r c s with ⟨answer, s₁⟩
  rw [hanswer] at hsuper
  cases answer with
  | error inner =>
    rw [runInitializer_of_error hanswer] at h
    exact hsuper h
  | ok _ =>
    rw [runInitializer_eq hanswer] at h
    exact wraps_enterInitializer h

/-- **One request is candid, if the requests inside are.** A class that becomes erroneous keeps the
fault that its initialization ended with. -/
theorem candid_requestStep (hr : Candid r) : Candid (requestStep r) := by
  intro c s hs
  cases hstate : s.machine.stateOf c with
  | ready =>
    rw [requestStep_of_ready hstate]
    exact ⟨hs, nofun⟩
  | running =>
    rw [requestStep_of_running hstate]
    exact ⟨hs, nofun⟩
  | erroneous cause =>
    rw [requestStep_of_erroneous hstate]
    refine ⟨hs, ?_⟩
    rintro fault ⟨⟩
    exact Bool.or_eq_true_iff.2 (.inr (hs c cause hstate))
  | uninitialized =>
    have hbegun : (s.begin c).Remembers := hs.move (by simp)
    obtain ⟨hrun, hwraps⟩ := hr.runInitializer (c := c) hbegun
    rw [requestStep_of_uninitialized hstate]
    refine ⟨?_, hwraps⟩
    cases hanswer : (runInitializer r c (s.begin c)).1 with
    | ok _ => exact hrun.move (by simp)
    | error fault =>
      refine hrun.move ?_
      rintro cause ⟨⟩
      exact hwraps fault hanswer

theorem candid_requestWithin (depth : Nat) : Candid (requestWithin depth) := by
  induction depth with
  | zero => exact candid_requestStep fun _ _ hs => ⟨hs, nofun⟩
  | succ depth ih => exact candid_requestStep ih

/-- **Requests are candid.** -/
theorem candid_request : Candid request :=
  fun c s hs => candid_requestWithin s.machine.uninitializedCount c s hs

end Requests

/-- **Every run leaves a session that remembers.** -/
theorem remembers_callAll (hs : s.Remembers) (calls : List Call) : (s.callAll calls).Remembers := by
  induction calls generalizing s with
  | nil => exact hs
  | cons call rest ih =>
    refine ih ?_
    cases call with
    | request c => exact (candid_request c s hs).1
    | restore g c =>
      exact (Regime.alike_askRestore Regime.indifferent_remembering
        (fun d _ => candid_request.alike d) g c s hs).allows hs

/-! ### Erroneous classes -/

/-- A class that becomes erroneous during a run stays so to its end. -/
theorem Account.erroneous_of_moved (h : Account c s s')
    (hmoved : .moved c (.erroneous cause) ∈ s.since s') :
    s'.machine.stateOf c = .erroneous cause := by
  have hstep : Event.moved c (.erroneous cause) ∈ steps c (s.since s') := mem_steps.2 ⟨hmoved, rfl⟩
  cases h with
  | idle _ hsteps =>
    rw [hsteps] at hstep
    cases hstep
  | lived consulted entered _ _ hsteps _ _ =>
    rw [hsteps] at hstep
    generalize s'.machine.stateOf c = state at hstep
    cases consulted <;> cases entered <;> simpa [life, interior, eq_comm] using hstep

/-! ### Superclasses that are refused -/

/-- **A class whose superclass is refused** becomes erroneous at once, with the refusal. -/
theorem requestStep_of_superclass_error {r : Requester}
    (hstate : s.machine.stateOf c = .uninitialized)
    (hsuper : (s.machine.classAt c).superclass = some parent)
    (h : r parent (s.begin c) = (.error fault, s')) :
    requestStep r c s
      = (.error (.within (.superclassOf (s.machine.className c)) fault),
        s'.move c (.erroneous (.within (.superclassOf (s.machine.className c)) fault))) := by
  have hbegun : s.Evolves (s.begin c) := evolves_move s c .running
  have hsuper' : ((s.begin c).machine.classAt c).superclass = some parent := by
    rw [hbegun.machine.superclass, hsuper]
  have hrefused : requestSuperclass r c (s.begin c)
      = (.error (.within (.superclassOf (s.machine.className c)) fault), s') := by
    rw [requestSuperclass_eq hsuper', h, hbegun.machine.className]
    rfl
  rw [requestStep_of_uninitialized hstate, runInitializer_of_error hrefused]
  rfl

/-- Nothing of its initialization has happened meanwhile: neither is the archive consulted nor its
initializer entered. -/
theorem steps_of_superclass_error (hm : s.machine.WellFormed) (hc : c < s.machine.classes.size)
    (hsuper : (s.machine.classAt c).superclass = some parent)
    (h : request parent (s.begin c) = (.error fault, s')) (state : InitState) :
    (s'.move c state).machine.stateOf c = state ∧
      steps c (s.since (s'.move c state)) = [.moved c .running, .moved c state] := by
  have hbegun : s.Evolves (s.begin c) := evolves_move s c .running
  have hrunning : (s.begin c).machine.stateOf c = .running := stateOf_move hc
  have hparent : parent < (s.begin c).machine.classes.size := by
    rw [hbegun.machine.size]
    exact hm.superclass _ _ hsuper
  have hsettles := (conforms_request (hbegun.machine.wellFormed hm) hparent).settles
  rw [h] at hsettles
  have hpasses := hsettles.passes (c := c) (by rw [hrunning]; simp)
  refine ⟨stateOf_move ?_, ?_⟩
  · rw [hsettles.evolves.machine.size, hbegun.machine.size]
    exact hc
  · have hfirst : s.journal <+: (s.begin c).journal := List.prefix_append _ _
    have hlast : s'.journal <+: (s'.move c state).journal := List.prefix_append _ _
    rw [since_trans (hfirst.trans hsettles.journal) hlast, since_trans hfirst hsettles.journal,
      steps_append, steps_append, hpasses.steps, since_move, begin, since_move,
      steps_cons_of_eq rfl, steps_cons_of_eq rfl]
    rfl

/-- A request inside another one is a request, as long as the bound on the depth is not below the
number of uninitialized classes. It never is in a run. -/
theorem requestWithin_eq_request {depth : Nat} (hm : s.machine.WellFormed)
    (hc : c < s.machine.classes.size) (hdepth : s.machine.uninitializedCount ≤ depth) :
    requestWithin depth c s = request c s := by
  have hunrolled := alike_iterate hm depth request hc s ⟨.refl s.machine, hdepth⟩
  have hrequest := alike_request hm (Nat.lt_succ_of_le hdepth) request hc s (bounded_self s)
  exact hunrolled.eq.symm.trans hrequest.eq

/-! ### All runs -/

/-- **Failures propagate down the hierarchy and are remembered.** Let `u` be the session after any
calls, where no class was erroneous before without knowing of an initializer that failed. A class
that is erroneous in `u`, or has become so in any state on the way, knows of an initializer that
failed, and stays erroneous with the same cause after any further calls. In any state, a request for
an erroneous class is refused as such and with everything that its cause encloses, and nothing at
all is run. And in any state on the way, a class whose superclass is refused becomes erroneous with
the refusal: its state moves twice, and neither is the archive consulted nor its initializer
entered. -/
theorem failures_remembered (hm : s.machine.WellFormed) (hs : s.Remembers) {calls : List Call}
    (hcalls : ∀ call ∈ calls, call.classId < s.machine.classes.size) (hu : u = s.callAll calls) :
    (∀ c cause, u.machine.stateOf c = .erroneous cause ∨
        .moved c (.erroneous cause) ∈ s.since u →
      cause.wraps .initializerFailed = true ∧
      ∀ later : List Call, (∀ call ∈ later, call.classId < s.machine.classes.size) →
        (u.callAll later).machine.stateOf c = .erroneous cause) ∧
    (∀ (v : Session) c cause, v.machine.stateOf c = .erroneous cause →
      ∃ fault, request c v = (.error fault, v) ∧
        (∀ depth, requestWithin depth c v = (.error fault, v)) ∧
        fault.wraps .erroneousClass = true ∧
        (∀ kind, cause.wraps kind = true → fault.wraps kind = true) ∧
        ∀ inner, cause.Encloses inner → fault.Encloses inner) ∧
    ∀ v : Session, s.machine.Evolves v.machine → ∀ c < s.machine.classes.size,
      ∀ parent fault w, v.machine.stateOf c = .uninitialized →
      (v.machine.classAt c).superclass = some parent →
      request parent (v.begin c) = (.error fault, w) →
      ∃ cause w', request c v = (.error cause, w') ∧
        (∀ depth, v.machine.uninitializedCount ≤ depth →
          requestWithin depth c v = (.error cause, w')) ∧
        cause = .within (.superclassOf (v.machine.className c)) fault ∧
        w'.machine.stateOf c = .erroneous cause ∧
        steps c (v.since w') = [.moved c .running, .moved c (.erroneous cause)] := by
  subst hu
  have hsettles := settles_callAll hm hcalls
  refine ⟨fun c cause hc => ?_, fun v c cause hc => ?_, ?_⟩
  · have hstate : (s.callAll calls).machine.stateOf c = .erroneous cause :=
      hc.elim id (hsettles.accounts c).erroneous_of_moved
    refine ⟨remembers_callAll hs calls c cause hstate, fun later hlater => ?_⟩
    have hfurther : (s.callAll calls).Settles ((s.callAll calls).callAll later) :=
      settles_callAll (hsettles.evolves.machine.wellFormed hm) fun call hcall => by
        rw [hsettles.evolves.machine.size]
        exact hlater call hcall
    exact hfurther.erroneous hstate
  · have hpart : (Fault.erroneousClass (v.machine.className c) cause).Encloses cause :=
      .erroneousClass _ (.refl cause)
    exact ⟨_, requestWithin_of_erroneous _ hc, fun depth => requestWithin_of_erroneous depth hc,
      rfl, fun kind => hpart.wraps, fun inner hinner => .erroneousClass _ hinner⟩
  · intro v hv c hsize parent fault w hstate hsuper hrefused
    have hmv : v.machine.WellFormed := hv.wellFormed hm
    have hcv : c < v.machine.classes.size := by
      rw [hv.size]
      exact hsize
    have hrequest := request_eq_requestStep hmv hcv
    rw [requestStep_of_superclass_error hstate hsuper hrefused] at hrequest
    obtain ⟨hafter, hsteps⟩ := steps_of_superclass_error hmv hcv hsuper hrefused
      (.erroneous (.within (.superclassOf (v.machine.className c)) fault))
    exact ⟨_, _, hrequest, fun depth hdepth =>
      (requestWithin_eq_request hmv hcv hdepth).trans hrequest, rfl, hafter, hsteps⟩

/-- A class whose initializer panics, and two classes derived from it one after another. -/
def brokenMachine : Machine :=
  let first := (Machine.new.addClass (Machine.new.makeClass
    { name := "Base", superclass := some Machine.objectClass
      initializer := .script [.panic "broken"] } (some .boot))).2
  let second := (first.addClass (first.makeClass
    { name := "Sub", superclass := some 2, statics := ["v"]
      initializer := .script [.set "v" (.literal (.int 7))] } (some .boot))).2
  (second.addClass (second.makeClass { name := "Leaf", superclass := some 3 } (some .boot))).2

/-- A process with these classes that uses an archive. -/
def brokenSession : Session := { tangledSession with machine := brokenMachine }

theorem wellFormed_brokenMachine : brokenMachine.WellFormed := by
  refine .addClass (.addClass (.addClass Machine.wellFormed_new ?_ ?_) ?_ ?_) ?_ ?_
  · intro parent h
    obtain rfl := Option.some.inj h
    decide
  · intro _ _ _ h
    cases h
  · intro parent h
    obtain rfl := Option.some.inj h
    decide
  · intro _ _ _ h
    cases h
  · intro parent h
    obtain rfl := Option.some.inj h
    decide
  · intro _ _ _ h
    cases h

theorem remembers_brokenSession : brokenSession.Remembers := by
  intro c cause hc
  by_cases hlt : c < 5
  · have hall : ∀ c < 5, brokenSession.machine.stateOf c = .uninitialized := by decide
    rw [hall c hlt] at hc
    cases hc
  · have hnone : brokenSession.machine.classes[c]? = none :=
      Array.getElem?_eq_none (Nat.not_lt.1 hlt)
    rw [Machine.stateOf, Machine.classAt, hnone] at hc
    cases hc

/-- The panic of `Base` reaches `Leaf` through `Sub`, and is told again when `Leaf` is requested
again. The initializer of `Sub` is not entered. -/
theorem failures_remembered_brokenSession :
    ∃ cause fault, (brokenSession.callAll [.request 4]).machine.stateOf 4 = .erroneous cause ∧
      cause.wraps .initializerFailed = true ∧
      request 4 (brokenSession.callAll [.request 4])
        = (.error fault, brokenSession.callAll [.request 4]) ∧
      fault.wraps .erroneousClass = true ∧
      fault.Encloses (.of (.initializerPanicked "Base" "broken")) ∧
      ∃ cause' w', request 3 brokenSession = (.error cause', w') ∧
        steps 3 (brokenSession.since w') = [.moved 3 .running, .moved 3 (.erroneous cause')] := by
  have hcalls : ∀ call ∈ [Call.request 4], call.classId < brokenSession.machine.classes.size := by
    decide
  obtain ⟨hknows, htells, hderived⟩ :=
    failures_remembered wellFormed_brokenMachine remembers_brokenSession hcalls rfl
  have hstate : (brokenSession.callAll [.request 4]).machine.stateOf 4
      = .erroneous (.within (.superclassOf "Leaf") (.within (.superclassOf "Sub")
        (.of (.initializerPanicked "Base" "broken")))) := by decide +kernel
  obtain ⟨fault, hrequest, -, herroneous, -, hencloses⟩ := htells _ 4 _ hstate
  have hrefused : (request 2 (brokenSession.begin 3)).1
      = .error (.of (.initializerPanicked "Base" "broken")) := by decide +kernel
  obtain ⟨cause', w', hrequest', -, -, -, hsteps⟩ := hderived brokenSession (.refl _) 3 (by decide)
    2 _ (request 2 (brokenSession.begin 3)).2 (by decide) (by decide) (Prod.ext hrefused rfl)
  exact ⟨_, fault, hstate, (hknows 4 _ (.inl hstate)).1, hrequest, herroneous,
    hencloses _ (.within _ (.within _ (.refl _))), cause', w', hrequest', hsteps⟩

end Session

end ClassSharing
