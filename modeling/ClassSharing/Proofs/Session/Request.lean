import ClassSharing.Proofs.Machine.Readiness
import ClassSharing.Proofs.Session.Restore

/-!
# Requests in a process

A process has one bootstrap over archive files, one gate over it, and one object graph, which is
consulted before static initializers. What a request does in a process depends on the class alone:
whether the archive has a record of it, and what its initializer does.

A class without an initializer and without a record becomes ready, and so does its superclass.
Nothing else changes that anyone could see.

## Main definitions

* `Session.Hooked`: the session of a process
* `Session.outcome`: the recorded outcome for a class in it
* `Session.Quiet`: some classes have become ready, and nothing else has changed

## Main results

* `Session.requestWithin_of_uninitialized`: a request step by step
* `Session.consultHook_of_no_record`: consulting the archive about a class that it does not have
* `Session.exists_request_plain`: requests for classes without an initializer
-/

namespace ClassSharing

namespace Session

/-! ### Requests step by step -/

section Steps

variable {request : Requester} {c : ClassId} {s s₁ : Session}

theorem requestWithin_of_ready (depth : Nat) (h : s.machine.stateOf c = .ready) :
    requestWithin depth c s = (.ok (), s.note (.granted c)) := by
  cases depth with
  | zero => exact requestStep_of_ready h
  | succ depth => exact requestStep_of_ready h

/-- A request for an erroneous class, at whatever depth, is refused with the cause and does
nothing. -/
theorem requestWithin_of_erroneous (depth : Nat) {cause : Fault}
    (h : s.machine.stateOf c = .erroneous cause) :
    requestWithin depth c s = (.error (.erroneousClass (s.machine.className c) cause), s) := by
  cases depth with
  | zero => exact requestStep_of_erroneous h
  | succ depth => exact requestStep_of_erroneous h

theorem requestWithin_of_uninitialized (depth : Nat) (h : s.machine.stateOf c = .uninitialized) :
    requestWithin (depth + 1) c s
      = ((runInitializer (requestWithin depth) c (s.begin c)).1,
        (runInitializer (requestWithin depth) c (s.begin c)).2.finish c
          (runInitializer (requestWithin depth) c (s.begin c)).1) :=
  requestStep_of_uninitialized h

/-- An initializer that succeeds. -/
theorem enterInitializer_of_ok {initializer : Initializer}
    (hinitializer : (s.machine.classAt c).initializer = initializer) (hsome : initializer ≠ .none)
    (h : runBody request c initializer (s.note (.entered c)) = (.ok (), s₁)) :
    enterInitializer request c s = (.ok (), s₁) := by
  rw [enterInitializer, bind_apply, get_apply]
  simp only [hinitializer]
  have hnote : (modify fun s => s.note (.entered c) : Act Unit) s = ((), s.note (.entered c)) := rfl
  rw [bind_apply, hnote, bind_apply, ExceptT.run, h]
  rfl

/-- An initializer that reports a fault. -/
theorem enterInitializer_of_fault {initializer : Initializer} {fault : Fault}
    (hinitializer : (s.machine.classAt c).initializer = initializer) (hsome : initializer ≠ .none)
    (h : runBody request c initializer (s.note (.entered c)) = (.error (.fault fault), s₁)) :
    enterInitializer request c s
      = (.error (.initializerFailed (s.machine.className c) fault), s₁) := by
  rw [enterInitializer, bind_apply, get_apply]
  simp only [hinitializer]
  have hnote : (modify fun s => s.note (.entered c) : Act Unit) s = ((), s.note (.entered c)) := rfl
  rw [bind_apply, hnote, bind_apply, ExceptT.run, h]
  rfl

/-- An initializer that has succeeded. -/
theorem runBody_of_enterInitializer {initializer : Initializer}
    (hinitializer : (s.machine.classAt c).initializer = initializer) (hsome : initializer ≠ .none)
    (h : enterInitializer request c s = (.ok (), s₁)) :
    runBody request c initializer (s.note (.entered c)) = (.ok (), s₁) := by
  have hnote : (modify fun s => s.note (.entered c) : Act Unit) s = ((), s.note (.entered c)) := rfl
  cases hbody : runBody request c initializer (s.note (.entered c)) with
  | mk answer s₂ =>
    rw [enterInitializer, bind_apply, get_apply] at h
    simp only [hinitializer] at h
    rw [bind_apply, hnote, bind_apply, ExceptT.run, hbody] at h
    cases answer with
    | ok _ =>
      obtain ⟨-, rfl⟩ := Prod.mk.inj h
      rfl
    | error e => cases e <;> cases h

end Steps

/-! ### Processes -/

/-- The session of a process that resolves some modules: its only bootstrap is `b`, over archive
files, and its only graph is consulted before static initializers. -/
structure Hooked (b : MappedBoot) (specs : List ModuleSpec) (s : Session) : Prop where
  hook : s.hook = some 0
  graph : ∃ results linked, s.graphs = #[⟨0, results, linked⟩]
  gate : ∃ sinks status, s.gates = #[⟨some 0, sinks, status⟩] ∧
    (status = none ∨ status = some b.status)
  boot : s.boots = #[.mapped b]
  moduleSpecs : s.moduleSpecs = specs
  sound : b.status.flaw? = none

/-- The recorded outcome for a class. -/
def outcome (s : Session) (name : Text) : Option Outcome := (s.graphAt 0).results.get? name

section Processes

variable {b : MappedBoot} {specs : List ModuleSpec} {s s' : Session} {request : Requester}
  {c : ClassId}

theorem Hooked.of_eq (h : Hooked b specs s) (hhook : s'.hook = s.hook)
    (hgraphs : s'.graphs = s.graphs) (hgates : s'.gates = s.gates) (hboots : s'.boots = s.boots)
    (hspecs : s'.moduleSpecs = s.moduleSpecs) : Hooked b specs s' where
  hook := hhook.trans h.hook
  graph := hgraphs ▸ h.graph
  gate := hgates ▸ h.gate
  boot := hboots.trans h.boot
  moduleSpecs := hspecs.trans h.moduleSpecs
  sound := h.sound

theorem Hooked.withMachine (h : Hooked b specs s) (m : Machine) :
    Hooked b specs (s.withMachine m) :=
  h.of_eq rfl rfl rfl rfl rfl

theorem Hooked.note (h : Hooked b specs s) (e : Event) : Hooked b specs (s.note e) :=
  h.of_eq rfl rfl rfl rfl rfl

theorem Hooked.move (h : Hooked b specs s) (c : ClassId) (state : InitState) :
    Hooked b specs (s.move c state) :=
  (h.withMachine _).note _

theorem Hooked.bootAt (h : Hooked b specs s) : s.bootAt 0 = .mapped b := by
  rw [Session.bootAt, h.boot]
  rfl

theorem Hooked.gate_graphAt (h : Hooked b specs s) : (s.graphAt 0).gate = 0 := by
  obtain ⟨results, linked, hgraphs⟩ := h.graph
  rw [graphAt, hgraphs]
  rfl

theorem Hooked.boot_gateAt (h : Hooked b specs s) :
    (s.gateAt (s.graphAt 0).gate).boot = some 0 := by
  obtain ⟨sinks, status, hgates, -⟩ := h.gate
  rw [h.gate_graphAt, gateAt, hgates]
  rfl

/-- A gate answers what the bootstrap says, whether it has been asked before or not. -/
theorem Hooked.gateStatus (h : Hooked b specs s) :
    ∃ s', Session.gateStatus 0 s = (b.status, s') ∧ Hooked b specs s' ∧ s'.machine = s.machine ∧
      s'.graphs = s.graphs := by
  obtain ⟨sinks, status, hgates, hstatus⟩ := h.gate
  have hgate : s.gateAt 0 = ⟨some 0, sinks, status⟩ := by
    rw [gateAt, hgates]
    rfl
  rcases hstatus with rfl | rfl
  · have hjudge : judge (s.bootAt 0).status = .ok b.status := by
      rw [h.bootAt, Bootstrap.status, judge]
      simp only [h.sound]
    refine ⟨(s.updateBoot 0 Bootstrap.afterStatus).fixStatus 0 b.status, ?_, ?_, rfl, rfl⟩
    · rw [Session.gateStatus, hgate]
      simp only
      rw [askStatus, hgate]
      simp only [hjudge]
    · refine ⟨h.hook, h.graph, ⟨sinks, some b.status, ?_, .inr rfl⟩, ?_, h.moduleSpecs, h.sound⟩
      · rw [fixStatus, updateGate]
        simp only [updateBoot, hgates]
        rfl
      · simp only [fixStatus, updateGate, updateBoot, h.boot]
        rfl
  · refine ⟨s, ?_, h, rfl, rfl⟩
    rw [Session.gateStatus, hgate]

theorem Hooked.isUsing (h : Hooked b specs s) :
    ∃ s', Session.isUsing 0 s = (b.status.isUsing, s') ∧ Hooked b specs s' ∧
      s'.machine = s.machine ∧ s'.graphs = s.graphs := by
  obtain ⟨s', hstatus, hhooked, hmachine, hgraphs⟩ := h.gateStatus
  refine ⟨s', ?_, hhooked, hmachine, hgraphs⟩
  rw [Session.isUsing, bind_apply, get_apply, h.gate_graphAt, bind_apply, hstatus]
  rfl

theorem outcome_eq_of_graphs_eq (h : s'.graphs = s.graphs) (name : Text) :
    s'.outcome name = s.outcome name := by
  rw [outcome, outcome, graphAt, graphAt, h]

/-- The record that the archive gives for a class. -/
theorem Hooked.archivedSubgraph (h : Hooked b specs s) (name : Text) :
    ∃ s', Session.archivedSubgraph 0 name s = (b.subgraph name, s') ∧ Hooked b specs s' ∧
      s'.machine = s.machine ∧ s'.graphs = s.graphs := by
  refine ⟨s.updateBoot 0 Bootstrap.afterSubgraph, ?_, ?_, rfl, rfl⟩
  · rw [Session.archivedSubgraph, exceptBind_apply (exceptGet_apply s)]
    simp only [h.boot_gateAt, h.bootAt, Bootstrap.subgraph]
    cases b.subgraph name <;> rfl
  · refine ⟨h.hook, h.graph, h.gate, ?_, h.moduleSpecs, h.sound⟩
    simp only [updateBoot, h.boot]
    rfl

/-- Recording an outcome. -/
theorem Hooked.recordOutcome (h : Hooked b specs s) (name : Text) (result : Outcome) :
    ∃ s', (Session.recordOutcome 0 name result s).2 = s' ∧ Hooked b specs s' ∧
      s'.machine = s.machine ∧ s'.outcome name = some ((s.outcome name).getD result) ∧
      ∀ other, other ≠ name → s'.outcome other = s.outcome other := by
  obtain ⟨results, linked, hgraphs⟩ := h.graph
  have hresults : (s.graphAt 0).results = results := by
    rw [graphAt, hgraphs]
    rfl
  refine ⟨_, rfl, ?_, machine_recordOutcome name result, ?_, ?_⟩
  · rw [Session.recordOutcome]
    split
    · exact h
    · refine ⟨h.hook, ⟨results.insert name result, linked, ?_⟩, h.gate, h.boot, h.moduleSpecs,
        h.sound⟩
      simp only [withOutcome, updateGraph, hgraphs]
      rfl
  · rw [Session.recordOutcome, outcome, outcome]
    split
    · rename_i earlier hearlier
      rw [hearlier]
      rfl
    · rename_i hnone
      rw [hnone]
      simp only [graphAt, withOutcome, updateGraph, hgraphs]
      exact (Table.get?_insert results name name result).trans (if_pos rfl)
  · intro other hother
    rw [Session.recordOutcome, outcome, outcome]
    split
    · rfl
    · rw [hresults]
      simp only [graphAt, withOutcome, updateGraph, hgraphs]
      exact (Table.get?_insert results name other result).trans (if_neg hother)

/-! ### Consulting the archive -/

theorem consultHook_of_not_using (request : Requester) (c : ClassId) (h : Hooked b specs s)
    (hnot : b.status.isUsing = false) :
    ∃ s', consultHook request c s = ((), s') ∧ Hooked b specs s' ∧ s'.machine = s.machine ∧
      s'.graphs = s.graphs := by
  obtain ⟨s', husing, hhooked, hmachine, hgraphs⟩ := h.isUsing
  refine ⟨s', ?_, hhooked, hmachine, hgraphs⟩
  rw [consultHook, bind_apply, get_apply]
  simp only [h.hook]
  rw [bind_apply, husing, hnot]
  rfl

/-- In a process that uses an archive, its graph is asked to restore the class. -/
theorem consultHook_of_using (request : Requester) (c : ClassId) (h : Hooked b specs s)
    (husing : b.status.isUsing = true) :
    ∃ s₁, Hooked b specs s₁ ∧ s₁.machine = s.machine ∧ s₁.graphs = s.graphs ∧
      consultHook request c s
        = ((), (tryRestore request 0 c s₁).2.note (.consulted c)) := by
  obtain ⟨s₁, hasked, hhooked, hmachine, hgraphs⟩ := h.isUsing
  refine ⟨s₁.note (.consulting c), hhooked.note _, hmachine, hgraphs, ?_⟩
  rw [consultHook, bind_apply, get_apply]
  simp only [h.hook]
  rw [bind_apply, hasked, husing]
  rfl

variable (request) in
/-- A class without a record is not restored. -/
theorem Hooked.tryRestore_of_error (h : Hooked b specs s) {fault : Fault}
    (hrecord : b.subgraph (s.machine.className c) = .error fault) :
    ∃ s', (tryRestore request 0 c s).2 = s' ∧ Hooked b specs s' ∧ s'.machine = s.machine ∧
      ∀ name, name ≠ s.machine.className c → s'.outcome name = s.outcome name := by
  obtain ⟨s₁, hasked, hhooked, hmachine, hgraphs⟩ := h.isUsing
  rw [tryRestore, bind_apply, hasked]
  cases b.status.isUsing with
  | false => exact ⟨s₁, rfl, hhooked, hmachine, fun name _ => outcome_eq_of_graphs_eq hgraphs name⟩
  | true =>
    simp only [if_true]
    rw [bind_apply, get_apply]
    simp only
    cases hearlier : (s₁.graphAt 0).results.get? (s₁.machine.className c) with
    | some earlier =>
      exact ⟨s₁, rfl, hhooked, hmachine, fun name _ => outcome_eq_of_graphs_eq hgraphs name⟩
    | none =>
      obtain ⟨s₂, hsubgraph, hhooked₂, hmachine₂, hgraphs₂⟩ :=
        hhooked.archivedSubgraph (s₁.machine.className c)
      have hrestore : restore request 0 c s₁ = (.error fault, s₂) := by
        rw [hmachine, hrecord, ← hmachine] at hsubgraph
        rw [restore, exceptBind_apply (exceptGet_apply s₁), exceptBind_apply_error hsubgraph]
      simp only
      rw [bind_apply, ExceptT.run, hrestore]
      simp only
      obtain ⟨s₃, heq, hhooked₃, hmachine₃, -, hothers⟩ :=
        hhooked₂.recordOutcome (s₁.machine.className c) .skipped
      refine ⟨s₃, heq, hhooked₃, hmachine₃.trans (hmachine₂.trans hmachine), fun name hname => ?_⟩
      rw [hothers name (by rw [hmachine]; exact hname), outcome_eq_of_graphs_eq hgraphs₂,
        outcome_eq_of_graphs_eq hgraphs]

variable (request) in
/-- **Consulting the archive about a class that it does not have** changes nothing but the outcome
for that class. -/
theorem consultHook_of_no_record (h : Hooked b specs s) {fault : Fault}
    (hrecord : b.subgraph (s.machine.className c) = .error fault) :
    ∃ s', consultHook request c s = ((), s') ∧ Hooked b specs s' ∧ s'.machine = s.machine ∧
      ∀ name, name ≠ s.machine.className c → s'.outcome name = s.outcome name := by
  cases husing : b.status.isUsing with
  | false =>
    obtain ⟨s', heq, hhooked, hmachine, hgraphs⟩ := consultHook_of_not_using request c h husing
    exact ⟨s', heq, hhooked, hmachine, fun name _ => outcome_eq_of_graphs_eq hgraphs name⟩
  | true =>
    obtain ⟨s₁, hhooked, hmachine, hgraphs, heq⟩ := consultHook_of_using request c h husing
    obtain ⟨s₂, htry, hhooked₂, hmachine₂, hothers⟩ :=
      hhooked.tryRestore_of_error request (c := c) (by rw [hmachine]; exact hrecord)
    rw [htry] at heq
    refine ⟨_, heq, hhooked₂.note _, hmachine₂.trans hmachine, fun name hname => ?_⟩
    have hother := hothers name (by rw [hmachine]; exact hname)
    exact hother.trans (outcome_eq_of_graphs_eq hgraphs name)

/-! ### Classes without an initializer -/

/-- Some classes have become ready, and nothing else has changed, not the outcome for a class that
the archive has a record of either. -/
structure Quiet (b : MappedBoot) (specs : List ModuleSpec) (s s' : Session) : Prop where
  hooked : Hooked b specs s'
  readied : s.machine.Readied s'.machine
  outcomes : ∀ name r, b.subgraph name = .ok r → s'.outcome name = s.outcome name

theorem Quiet.trans {s'' : Session} (h : Quiet b specs s s') (h' : Quiet b specs s' s'') :
    Quiet b specs s s'' where
  hooked := h'.hooked
  readied := h.readied.trans h'.readied
  outcomes name r hr := (h'.outcomes name r hr).trans (h.outcomes name r hr)

/-- Not even a class has become ready. -/
theorem quiet_of_machine_eq (h : Hooked b specs s') (hmachine : s'.machine = s.machine)
    (hgraphs : s'.graphs = s.graphs) : Quiet b specs s s' where
  hooked := h
  readied := hmachine ▸ Machine.Readied.refl s.machine
  outcomes name _ _ := outcome_eq_of_graphs_eq hgraphs name

/-- A class that becomes ready without doing anything. -/
structure Plain (b : MappedBoot) (m : Machine) (c : ClassId) : Prop where
  lt_size : c < m.classes.size
  initializer : (m.classAt c).initializer = .none
  unrecorded : ∃ fault, b.subgraph (m.className c) = .error fault
  idle : m.stateOf c = .uninitialized ∨ m.stateOf c = .ready

theorem Plain.of_readied {m m' : Machine} (h : Plain b m c) (hm : m.Readied m') :
    Plain b m' c where
  lt_size := by rw [hm.evolves.size]; exact h.lt_size
  initializer := by rw [hm.evolves.initializer]; exact h.initializer
  unrecorded := by rw [hm.evolves.className]; exact h.unrecorded
  idle := hm.idle h.idle

/-- Beginning a class does not touch the other ones. -/
theorem Plain.of_begin {m : Machine} {d : ClassId} (h : Plain b m c) (hd : c ≠ d) :
    Plain b (m.setState d .running) c where
  lt_size := by rw [(Machine.evolves_setState m d .running).size]; exact h.lt_size
  initializer := by rw [(Machine.evolves_setState m d .running).initializer]; exact h.initializer
  unrecorded := by rw [(Machine.evolves_setState m d .running).className]; exact h.unrecorded
  idle := by rw [Machine.stateOf_setState, if_neg fun hcd => hd hcd.1]; exact h.idle

/-- A plain class becomes ready if its superclass is granted. -/
theorem exists_request_of_superclass {depth : Nat} (h : Hooked b specs s)
    (hdepth : s.machine.uninitializedCount ≤ depth) (hc : Plain b s.machine c)
    (hsuper : ∀ d, (s.begin c).machine.uninitializedCount ≤ d → ∃ s₁,
      requestSuperclass (requestWithin d) c (s.begin c) = (.ok (), s₁) ∧
        Quiet b specs (s.begin c) s₁) :
    ∃ s', requestWithin depth c s = (.ok (), s') ∧ Quiet b specs s s' ∧
      s'.machine.stateOf c = .ready := by
  rcases hc.idle with huninitialized | hready
  · have hless := Machine.uninitializedCount_setState_running hc.lt_size huninitialized
    obtain ⟨d, rfl⟩ : ∃ d, depth = d + 1 := ⟨depth - 1, by omega⟩
    have hbegin : (s.begin c).machine = s.machine.setState c .running := rfl
    obtain ⟨s₁, hsuper, hquiet⟩ := hsuper d (by rw [hbegin]; omega)
    have hevolves : s.machine.Evolves s₁.machine :=
      (Machine.evolves_setState s.machine c .running).trans hquiet.readied.evolves
    obtain ⟨fault, hfault⟩ := hc.unrecorded
    obtain ⟨s₂, hconsult, hhooked, hmachine, houtcomes⟩ :=
      consultHook_of_no_record (requestWithin d) hquiet.hooked (c := c)
        (by rw [hevolves.className]; exact hfault)
    have hrun : runInitializer (requestWithin d) c (s.begin c) = (.ok (), s₂) := by
      rw [runInitializer_eq hsuper, hconsult]
      refine enterInitializer_of_none ?_
      rw [hmachine, hevolves.initializer]
      exact hc.initializer
    have hreadied : s.machine.Readied (s₁.machine.setState c .ready) :=
      Machine.Readied.of_setState hc.lt_size hc.initializer huninitialized hquiet.readied
    refine ⟨s₂.finish c (.ok ()), ?_, ?_, ?_⟩
    · rw [requestWithin_of_uninitialized d huninitialized, hrun]
    · refine ⟨(hhooked.move c .ready).note _, ?_, fun name r hr => ?_⟩
      · have hfinish : (s₂.finish c (.ok ())).machine = s₁.machine.setState c .ready := by
          rw [← hmachine]
          rfl
        rw [hfinish]
        exact hreadied
      · have hne : name ≠ s₁.machine.className c := fun heq => by
          rw [heq, hevolves.className, hfault] at hr
          cases hr
        exact (houtcomes name hne).trans (hquiet.outcomes name r hr)
    · have hfinish : (s₂.finish c (.ok ())).machine = s₁.machine.setState c .ready := by
        rw [← hmachine]
        rfl
      rw [hfinish, Machine.stateOf_setState, if_pos ⟨rfl, hevolves.size ▸ hc.lt_size⟩]
  · exact ⟨s.note (.granted c), requestWithin_of_ready depth hready,
      quiet_of_machine_eq (h.note _) rfl rfl, hready⟩

/-- **A request for a class without an initializer and without a record**, whose superclass is of
the same kind and has no superclass. -/
theorem exists_request_plain {depth : Nat} (h : Hooked b specs s)
    (hdepth : s.machine.uninitializedCount ≤ depth) (hc : Plain b s.machine c)
    (hsuper : (s.machine.classAt c).superclass = none ∨
      ∃ parent, (s.machine.classAt c).superclass = some parent ∧ parent ≠ c ∧
        Plain b s.machine parent ∧ (s.machine.classAt parent).superclass = none) :
    ∃ s', requestWithin depth c s = (.ok (), s') ∧ Quiet b specs s s' ∧
      s'.machine.stateOf c = .ready := by
  have hbegin : (s.begin c).machine = s.machine.setState c .running := rfl
  have hevolves := Machine.evolves_setState s.machine c .running
  refine exists_request_of_superclass h hdepth hc fun d hd => ?_
  have hhooked : Hooked b specs (s.begin c) := h.move c .running
  rcases hsuper with hnone | ⟨parent, hsome, hne, hparent, hnone⟩
  · refine ⟨s.begin c, requestSuperclass_of_none ?_, quiet_of_machine_eq hhooked rfl rfl⟩
    rw [hbegin, hevolves.superclass, hnone]
  · have hplain : Plain b (s.begin c).machine parent := hparent.of_begin hne
    obtain ⟨s₁, hgranted, hquiet, -⟩ := exists_request_of_superclass hhooked hd hplain fun d' _ =>
      ⟨(s.begin c).begin parent, requestSuperclass_of_none (by
        show (((s.begin c).machine.setState parent .running).classAt parent).superclass = none
        rw [(Machine.evolves_setState _ parent .running).superclass, hbegin, hevolves.superclass,
          hnone]), quiet_of_machine_eq (hhooked.move parent .running) rfl rfl⟩
    refine ⟨s₁, requestSuperclass_of_some ?_ hgranted, hquiet⟩
    rw [hbegin, hevolves.superclass, hsome]

end Processes

end Session

end ClassSharing
