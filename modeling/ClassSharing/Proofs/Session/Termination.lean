import ClassSharing.Proofs.Machine.Readiness
import ClassSharing.Proofs.Session.Regime
import Mathlib.Logic.Function.Iterate

/-!
# Requests end

Requests are recursive through superclasses, through the classes that archived records need and
through scripts, and all of these may form cycles. A request that does not return at once begins a
class, and no code makes a class uninitialized again. So the requests inside it find fewer
uninitialized classes than it found, and the recursion is at most as deep as there are such classes.

That the recursion ends is stated without a bound of its own. `requestStep` is one request with the
requests inside it as a parameter, so iterating it unrolls the recursion, down to some *bottom*. If
the recursion ends, it never gets there: what stands at the bottom does not matter.

## Main definitions

* `Session.Dwindles`: the session has evolved, and no class has become uninitialized
* `Session.Bounded`: a session over given classes with a bound on the uninitialized ones
* `Regime.bounded`: the regime of these sessions, in which a session may dwindle

## Main results

* `Session.alike_iterate`: requests that are unrolled deep enough are the same, whatever is at the
  bottom
* `Session.requests_end`: requests and restorations end
-/

namespace ClassSharing

namespace Session

/-! ### Fewer uninitialized classes -/

/-- The session has evolved, and no class has become uninitialized. -/
structure Dwindles (s s' : Session) : Prop where
  evolves : s.Evolves s'
  uninitialized : ∀ c, s'.machine.stateOf c = .uninitialized → s.machine.stateOf c = .uninitialized

theorem stable_dwindles : Stable Dwindles where
  refl s := ⟨.refl s, fun _ h => h⟩
  trans h h' := ⟨h.evolves.trans h'.evolves, fun c hc => h.uninitialized c (h'.uninitialized c hc)⟩

section Dwindling

variable {s s' : Session} {c : ClassId}

theorem Dwindles.count_le (h : s.Dwindles s') :
    s'.machine.uninitializedCount ≤ s.machine.uninitializedCount :=
  Machine.uninitializedCount_le h.evolves.machine.size h.uninitialized

theorem dwindles_of_states (hevolves : s.Evolves s')
    (h : ∀ c, s'.machine.stateOf c = s.machine.stateOf c) : s.Dwindles s' := by
  refine ⟨hevolves, ?_⟩
  intro c hc
  rw [← h c, hc]

theorem dwindles_note (s : Session) (e : Event) : s.Dwindles (s.note e) :=
  dwindles_of_states (evolves_note s e) fun _ => rfl

theorem dwindles_move (s : Session) (c : ClassId) {state : InitState}
    (h : state ≠ .uninitialized) : s.Dwindles (s.move c state) := by
  refine ⟨evolves_move s c state, ?_⟩
  intro d hd
  have hstate : (s.machine.setState c state).stateOf d = .uninitialized := hd
  rw [Machine.stateOf_setState] at hstate
  split at hstate
  · exact absurd hstate h
  · exact hstate

theorem dwindles_begin (s : Session) (c : ClassId) : s.Dwindles (s.begin c) :=
  dwindles_move s c InitState.noConfusion

theorem dwindles_finish (s : Session) (c : ClassId) (answer : Except Fault Unit) :
    s.Dwindles (s.finish c answer) := by
  cases answer with
  | ok _ =>
    exact stable_dwindles.trans (dwindles_move s c InitState.noConfusion) (dwindles_note _ _)
  | error fault => exact dwindles_move s c InitState.noConfusion

/-- **A class that is begun leaves fewer uninitialized ones.** -/
theorem count_begin_lt (hc : c < s.machine.classes.size)
    (h : s.machine.stateOf c = .uninitialized) :
    (s.begin c).machine.uninitializedCount < s.machine.uninitializedCount :=
  Machine.uninitializedCount_setState_running hc h

end Dwindling

/-- A session over the classes of a machine, at most `n` of which are uninitialized. -/
structure Bounded (m : Machine) (n : Nat) (s : Session) : Prop where
  evolves : m.Evolves s.machine
  count_le : s.machine.uninitializedCount ≤ n

theorem bounded_self (s : Session) : Bounded s.machine s.machine.uninitializedCount s :=
  ⟨.refl s.machine, Nat.le_refl _⟩

section Bounded

variable {m : Machine} {n : Nat} {s s' : Session} {c : ClassId}

theorem Bounded.dwindles (h : Bounded m n s) (h' : s.Dwindles s') : Bounded m n s' :=
  ⟨h.evolves.trans h'.evolves.machine, Nat.le_trans h'.count_le h.count_le⟩

/-- A class can be begun only if the bound is not zero, and then the bound is smaller. -/
theorem Bounded.begin (h : Bounded m n s) (hc : c < m.classes.size)
    (hstate : s.machine.stateOf c = .uninitialized) :
    ∃ k, n = k + 1 ∧ Bounded m k (s.begin c) := by
  have hless := count_begin_lt (h.evolves.size ▸ hc) hstate
  have hle := h.count_le
  obtain ⟨k, rfl⟩ : ∃ k, n = k + 1 := ⟨n - 1, by omega⟩
  refine ⟨k, rfl, h.evolves.trans (evolves_move s c .running).machine, ?_⟩
  omega

end Bounded

end Session

open Session

/-! ### The regime -/

namespace Regime

variable {m : Machine}

/-- The regime of the sessions over given classes with a bound on the uninitialized ones, in which
any relation is allowed that makes no class uninitialized. -/
def ofRelation (hm : m.WellFormed) (n : Nat) (R : Session → Session → Prop) (hstable : Stable R)
    (hcalm : ∀ {s s'}, s.Calm s' → R s s') (hdwindles : ∀ {s s'}, R s s' → s.Dwindles s') :
    Regime where
  Holds := Bounded m n
  Admits c := c < m.classes.size
  Allows := R
  code := .of_calm hstable hcalm
  keeps hs h := hs.dwindles (hdwindles h)
  lookup hs h := by
    rw [hs.evolves.lookup] at h
    exact (hm.named _ _ h).1
  superclass hs h := by
    rw [hs.evolves.superclass] at h
    exact hm.superclass _ _ h
  collections hs h := by
    rw [hs.evolves.initializer] at h
    exact hm.collections _ _ _ _ h

/-- The regime in which a session may dwindle. -/
def bounded (hm : m.WellFormed) (n : Nat) : Regime :=
  ofRelation hm n Dwindles stable_dwindles (fun h => dwindles_of_states h.evolves h.states)
    fun h => h

theorem indifferent_bounded (hm : m.WellFormed) (n : Nat) : (bounded hm n).Indifferent where
  asked s g c := dwindles_note s (.asked g c)
  commit g c := within_commit (bounded hm n).code fun s built =>
    dwindles_note s (.assigned g c built)
  record g name outcome := within_recordOutcome stable_dwindles fun s =>
    dwindles_of_states (evolves_withOutcome s g name outcome) fun _ => rfl

end Regime

namespace Session

variable {m : Machine} {n : Nat} {s : Session} {c : ClassId}

/-! ### Unrolling requests -/

/-- One request is alike over two ways of requesting the classes inside it, if these are alike under
a smaller bound. Under the bound zero nothing is requested inside. -/
theorem alike_requestStep (hm : m.WellFormed) {r r' : Requester}
    (h : ∀ k, n = k + 1 → ∀ d < m.classes.size, (Regime.bounded hm k).Alike (r d) (r' d))
    (hc : c < m.classes.size) :
    (Regime.bounded hm n).Alike (requestStep r c) (requestStep r' c) := by
  intro s hs
  cases hstate : s.machine.stateOf c with
  | ready =>
    rw [Regime.alikeAt_iff, requestStep_of_ready hstate, requestStep_of_ready hstate]
    exact ⟨rfl, dwindles_note s _⟩
  | running =>
    rw [Regime.alikeAt_iff, requestStep_of_running hstate, requestStep_of_running hstate]
    exact ⟨rfl, dwindles_note s _⟩
  | erroneous cause =>
    rw [Regime.alikeAt_iff, requestStep_of_erroneous hstate, requestStep_of_erroneous hstate]
    exact ⟨rfl, stable_dwindles.refl s⟩
  | uninitialized =>
    obtain ⟨k, rfl, hbegun⟩ := Bounded.begin hs hc hstate
    have hrun : (Regime.bounded hm k).AlikeAt (s.begin c) (runInitializer r c)
        (runInitializer r' c) :=
      (Regime.indifferent_bounded hm k).alike_runInitializer dwindles_note
        (fun d hd => h k rfl d hd) c (s.begin c) hbegun
    rw [Regime.alikeAt_iff, requestStep_of_uninitialized hstate,
      requestStep_of_uninitialized hstate, hrun.eq]
    refine ⟨rfl, stable_dwindles.trans (dwindles_begin s c) ?_⟩
    exact stable_dwindles.trans hrun.allows (dwindles_finish _ c _)

/-- **Requests that are unrolled deep enough** are requests within the bound, whatever is at the
bottom. -/
theorem alike_iterate (hm : m.WellFormed) (n : Nat) (bottom : Requester) (hc : c < m.classes.size) :
    (Regime.bounded hm n).Alike ((requestStep^[n + 1] bottom) c) (requestWithin n c) := by
  induction n generalizing c with
  | zero =>
    refine alike_requestStep hm ?_ hc
    intro k hk
    cases hk
  | succ n ih =>
    rw [Function.iterate_succ_apply']
    refine alike_requestStep hm ?_ hc
    intro k hk d hd
    obtain rfl := Nat.succ.inj hk
    exact ih hd

/-- **A request** is what it is unrolled to, beyond the number of uninitialized classes. -/
theorem alike_request (hm : m.WellFormed) {depth : Nat} (hdepth : n < depth) (bottom : Requester)
    (hc : c < m.classes.size) :
    (Regime.bounded hm n).Alike ((requestStep^[depth] bottom) c) (request c) := by
  intro s hs
  -- The requests within the exact number of uninitialized classes are the common measure.
  have hle : s.machine.uninitializedCount + 1 ≤ depth := Nat.succ_le_of_lt
    (Nat.lt_of_le_of_lt hs.count_le hdepth)
  obtain ⟨more, rfl⟩ := Nat.exists_eq_add_of_le hle
  have halike := alike_iterate hm s.machine.uninitializedCount (requestStep^[more] bottom) hc s
    ⟨hs.evolves, Nat.le_refl _⟩
  rw [← Function.iterate_add_apply] at halike
  exact ⟨halike.eq, halike.allows⟩

theorem alike_restoreClass (hm : m.WellFormed) {depth : Nat} (hdepth : n < depth)
    (bottom : Requester) (g : GraphId) (c : ClassId) :
    (Regime.bounded hm n).Alike (askRestore (requestStep^[depth] bottom) g c) (restoreClass g c) :=
  Regime.alike_askRestore (Regime.indifferent_bounded hm n)
    (fun _ hd => alike_request hm hdepth bottom hd) g c

/-- **A request is one request over requests.** -/
theorem request_eq_requestStep (hs : s.machine.WellFormed) (hc : c < s.machine.classes.size) :
    request c s = requestStep request c s := by
  have hbounded := bounded_self s
  have hstep : ∀ k, s.machine.uninitializedCount = k + 1 → ∀ d < s.machine.classes.size,
      (Regime.bounded hs k).Alike ((requestStep^[s.machine.uninitializedCount + 1] request) d)
        (request d) := by
    intro k hk d hd
    exact alike_request hs (by omega) request hd
  have hdeeper := alike_request hs (n := s.machine.uninitializedCount)
    (Nat.lt_add_of_pos_right Nat.two_pos) request hc s hbounded
  calc request c s
      = (requestStep^[s.machine.uninitializedCount + 2] request) c s := hdeeper.eq.symm
    _ = requestStep (requestStep^[s.machine.uninitializedCount + 1] request) c s := by
        rw [Function.iterate_succ_apply']
    _ = requestStep request c s := (alike_requestStep hs hstep hc s hbounded).eq

/-- **Requests and restorations end**, whatever classes the superclasses, scripts and records lead
to. Unrolled deeper than there are uninitialized classes, they do not depend on what is at the
bottom, because each class that is begun leaves fewer uninitialized ones and nothing adds to them.
-/
theorem requests_end (hs : s.machine.WellFormed) (hc : c < s.machine.classes.size) :
    (∀ depth bottom, s.machine.uninitializedCount < depth →
      (requestStep^[depth] bottom) c s = request c s ∧
      ∀ g, askRestore (requestStep^[depth] bottom) g c s = restoreClass g c s) ∧
    request c s = requestStep request c s ∧
    (s.machine.stateOf c = .uninitialized →
      (s.begin c).machine.uninitializedCount < s.machine.uninitializedCount) ∧
    (request c s).2.machine.uninitializedCount ≤ s.machine.uninitializedCount ∧
    ∀ g, (restoreClass g c s).2.machine.uninitializedCount ≤ s.machine.uninitializedCount := by
  have hbounded := bounded_self s
  refine ⟨?_, request_eq_requestStep hs hc, count_begin_lt hc, ?_, ?_⟩
  · intro depth bottom hdepth
    refine ⟨(alike_request hs hdepth bottom hc s hbounded).eq, ?_⟩
    intro g
    exact (alike_restoreClass hs hdepth bottom g c s hbounded).eq
  · exact (alike_request hs (Nat.lt_succ_self _) request hc s hbounded).allows.count_le
  · intro g
    exact (alike_restoreClass hs (Nat.lt_succ_self _) request g c s hbounded).allows.count_le

/-! ### A class whose restoration requests it -/

/-- A class `C`, a class `A` whose script requests it, and a class `F` derived from `A` whose script
panics. -/
def tangledMachine : Machine :=
  let first := (Machine.new.addClass (Machine.new.makeClass
    { name := "C", superclass := some Machine.objectClass, statics := ["v"]
      initializer := .script [.show "v", .set "v" (.literal (.int 7))] } (some .boot))).2
  let second := (first.addClass (first.makeClass
    { name := "A", superclass := some Machine.objectClass
      initializer := .script [.request "C"] } (some .boot))).2
  (second.addClass (second.makeClass
    { name := "F", superclass := some 3, initializer := .script [.panic "failed"] } (some .boot))).2

/-- A process that uses an archive in which the record of `C` needs `A`. -/
def tangledSession : Session :=
  { Session.new default [] 0 with
    machine := tangledMachine
    hook := some 0
    graphs := #[⟨0, Table.empty, false⟩]
    gates := #[⟨some 0, [], none⟩]
    boots := #[.synthetic { SyntheticBoot.new (.ok ⟨Status.usingFlag⟩) default with
      subgraphs := Table.empty.insert "C" (some
        { className := "C", fields := some [⟨"v", .ofInt 3⟩], classes := some ["A"]
          objects := none }) }] }

theorem wellFormed_tangledMachine : tangledMachine.WellFormed := by
  refine .addClass (.addClass (.addClass Machine.wellFormed_new ?_ ?_) ?_ ?_) ?_ ?_
  · intro parent h
    obtain rfl := Option.some.inj h
    decide
  · intro _ _ _ h
    cases h
  · intro parent h
    obtain rfl := Option.some.inj h
    decide
  · intro _ _ _ h
    cases h
  · intro parent h
    obtain rfl := Option.some.inj h
    decide
  · intro _ _ _ h
    cases h

theorem stateOf_tangledSession (c : ClassId) :
    tangledSession.machine.stateOf c = .uninitialized := by
  by_cases hc : c < 5
  · have hall : ∀ c < 5, tangledSession.machine.stateOf c = .uninitialized := by decide
    exact hall c hc
  · have hnone : tangledSession.machine.classes[c]? = none :=
      Array.getElem?_eq_none (Nat.not_lt.1 hc)
    rw [Machine.stateOf, Machine.classAt, hnone]
    rfl

/-- Restoring `C` requests `A`, and this ends although `A` requests `C`. -/
theorem requests_end_tangledSession :
    tangledSession.machine.WellFormed ∧ 2 < tangledSession.machine.classes.size ∧
      ∀ bottom, (requestStep^[6] bottom) 2 tangledSession = request 2 tangledSession ∧
        askRestore (requestStep^[6] bottom) 0 2 tangledSession
          = restoreClass 0 2 tangledSession := by
  have hc : 2 < tangledSession.machine.classes.size := by decide
  refine ⟨wellFormed_tangledMachine, hc, ?_⟩
  intro bottom
  obtain ⟨hends, -⟩ := requests_end wellFormed_tangledMachine hc
  have hdepth : tangledSession.machine.uninitializedCount < 6 := by decide
  exact ⟨(hends 6 bottom hdepth).1, (hends 6 bottom hdepth).2 0⟩

end Session

end ClassSharing
