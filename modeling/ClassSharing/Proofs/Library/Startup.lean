import ClassSharing.Proofs.Library.Holdings

/-!
# Starting the library

The classes with archived state are initialized one after another. Each initialization has the same
parts: the class is begun, the superclass becomes ready, the archive is consulted, the initializer
runs, and the class becomes ready. Every part moves the session on in the same sense: objects are
put at the end of the heap, statics of that class are assigned, and classes that have nothing to do
become ready. So a class that is still pending stays as it was.

## Main definitions

* `Library.Moves`: what a part of an initialization does to the session
* `Library.Advances`: what the initialization of several classes does
* `Library.Untouched`, `Library.Pending`: classes that are still to be initialized

## Main results

* `Library.exists_request_eq`: a request for a class with archived state, part by part
* `Library.exists_request`: a request whose initializer succeeds
* `Library.Pending.of_moves`: the other classes are still pending afterwards
-/

namespace ClassSharing

namespace Library

open Session

/-! ### Moving on -/

/-- The session moves on with the initialization of the class `c`: objects are put at the end of the
heap, statics of the class are assigned, and other classes without an initializer become ready. -/
structure Moves (b : MappedBoot) (specs : List ModuleSpec) (c : ClassId) (objects : List Object)
    (s s' : Session) : Prop where
  hooked : Hooked b specs s'
  evolves : s.machine.Evolves s'.machine
  objects : s'.machine.objects = s.machine.objects ++ objects.toArray
  statics : ∀ k, k ≠ c → (s'.machine.classAt k).statics = (s.machine.classAt k).statics
  linkage : s'.machine.linkage = s.machine.linkage
  states : ∀ k, k ≠ c → s'.machine.stateOf k = s.machine.stateOf k ∨
    (s.machine.classAt k).initializer = .none ∧ s.machine.stateOf k = .uninitialized ∧
      s'.machine.stateOf k = .ready
  outcomes : ∀ name r, b.subgraph name = .ok r → name ≠ s.machine.className c →
    s'.outcome name = s.outcome name

section Moves

variable {b : MappedBoot} {specs : List ModuleSpec} {c : ClassId} {objects : List Object}
  {s s' s'' : Session}

theorem Moves.trans {first second : List Object} (h : Moves b specs c first s s')
    (h' : Moves b specs c second s' s'') : Moves b specs c (first ++ second) s s'' where
  hooked := h'.hooked
  evolves := h.evolves.trans h'.evolves
  objects := by rw [h'.objects, h.objects]; simp
  statics k hk := (h'.statics k hk).trans (h.statics k hk)
  linkage := h'.linkage.trans h.linkage
  states k hk := by
    have hthen := h'.states k hk
    rw [h.evolves.initializer] at hthen
    rcases h.states k hk with heq | ⟨hnone, hbefore, hready⟩
    · rw [← heq]
      exact hthen
    · rcases hthen with heq | ⟨-, hbefore', -⟩
      · exact .inr ⟨hnone, hbefore, heq.trans hready⟩
      · rw [hready] at hbefore'
        cases hbefore'
  outcomes name r hr hname :=
    (h'.outcomes name r hr (by rw [h.evolves.className]; exact hname)).trans
      (h.outcomes name r hr hname)

/-- Objects and statics of the class itself move the session on, if no outcome for another class is
recorded. -/
theorem moves_of_fills (h : Hooked b specs s')
    (hfills : Machine.Fills c objects s.machine s'.machine)
    (houtcomes : ∀ name, name ≠ s.machine.className c → s'.outcome name = s.outcome name) :
    Moves b specs c objects s s' where
  hooked := h
  evolves := hfills.evolves
  objects := hfills.objects
  statics := hfills.statics
  linkage := hfills.linkage
  states k _ := .inl (hfills.states k)
  outcomes name _ _ hname := houtcomes name hname

/-- Whatever changes neither the machine nor the outcomes for other classes moves the session on. -/
theorem moves_of_outcomes_eq (h : Hooked b specs s') (hmachine : s'.machine = s.machine)
    (houtcomes : ∀ name, name ≠ s.machine.className c → s'.outcome name = s.outcome name) :
    Moves b specs c [] s s' :=
  moves_of_fills h (hmachine ▸ Machine.fills_refl s.machine c) houtcomes

theorem moves_of_machine_eq (h : Hooked b specs s') (hmachine : s'.machine = s.machine)
    (hgraphs : s'.graphs = s.graphs) : Moves b specs c [] s s' :=
  moves_of_outcomes_eq h hmachine fun name _ => outcome_eq_of_graphs_eq hgraphs name

theorem moves_move (h : Hooked b specs s) (c : ClassId) (state : InitState) :
    Moves b specs c [] s (s.move c state) where
  hooked := h.move c state
  evolves := Machine.evolves_setState _ _ _
  objects := Array.append_empty.symm
  statics k _ := Machine.statics_setState _ _ _ _
  linkage := rfl
  states k hk := by
    refine .inl ?_
    show (s.machine.setState c state).stateOf k = s.machine.stateOf k
    rw [Machine.stateOf_setState, if_neg fun hkc => hk hkc.1]
  outcomes _ _ _ _ := rfl

theorem Moves.of_quiet (h : Quiet b specs s s') : Moves b specs c [] s s' where
  hooked := h.hooked
  evolves := h.readied.evolves
  objects := by rw [h.readied.objects]; simp
  statics k _ := h.readied.statics k
  linkage := h.readied.linkage
  states k _ := h.readied.states k
  outcomes name r hr _ := h.outcomes name r hr

theorem Moves.of_filled {holding : Holding} (h : holding.Filled b specs objects s s') :
    Moves b specs holding.classId objects s s' :=
  moves_of_fills h.hooked h.fills fun name _ => outcome_eq_of_graphs_eq h.graphs name

/-- The class itself becomes ready at the end. -/
theorem Moves.finish (h : Moves b specs c objects s s') :
    Moves b specs c objects s (s'.finish c (.ok ())) := by
  have hready := moves_move h.hooked c .ready
  have hnoted : Moves b specs c [] (s'.move c .ready) (s'.finish c (.ok ())) :=
    moves_of_machine_eq (hready.hooked.note _) rfl rfl
  have htrans := h.trans (hready.trans hnoted)
  rw [List.append_nil, List.append_nil] at htrans
  exact htrans

/-! ### What stays -/

theorem Moves.objectAt (h : Moves b specs c objects s s') {o : ObjectId}
    (ho : o < s.machine.objects.size) : s'.machine.objectAt o = s.machine.objectAt o :=
  Machine.objectAt_append_of_lt h.objects ho

theorem Moves.size_le (h : Moves b specs c objects s s') :
    s.machine.objects.size ≤ s'.machine.objects.size := by
  rw [h.objects, Array.size_append]
  exact Nat.le_add_right _ _

theorem Moves.ready (h : Moves b specs c objects s s') {k : ClassId} (hk : k ≠ c)
    (hready : s.machine.stateOf k = .ready) : s'.machine.stateOf k = .ready := by
  rcases h.states k hk with heq | ⟨-, -, hafter⟩
  · rw [heq, hready]
  · exact hafter

/-- The statics of another class still go with its archived array. -/
theorem Moves.derived (h : Moves b specs c objects s s') {holding : Holding} {root : ObjectId}
    (hne : holding.classId ≠ c) (hroot : root < s.machine.objects.size)
    (hderived : holding.Derived s.machine root) : holding.Derived s'.machine root := by
  intro p hp
  have hvalue : p.2.value s'.machine root = p.2.value s.machine root := by
    cases p.2 with
    | constant n => rfl
    | array => rfl
    | element i => rw [Source.value, Source.value, h.objectAt hroot]
  rw [Machine.static, h.statics _ hne, hvalue]
  exact hderived p hp

end Moves

/-! ### Several classes -/

/-- The session moves on with the initialization of some classes. -/
structure Advances (b : MappedBoot) (specs : List ModuleSpec) (cs : List ClassId)
    (s s' : Session) : Prop extends Machine.Advances cs s.machine s'.machine where
  hooked : Hooked b specs s'
  outcomes : ∀ name r, b.subgraph name = .ok r → (∀ c ∈ cs, name ≠ s.machine.className c) →
    s'.outcome name = s.outcome name

section Advances

variable {b : MappedBoot} {specs : List ModuleSpec} {cs cs' : List ClassId} {s s' s'' : Session}

theorem Moves.advances {c : ClassId} {objects : List Object} (h : Moves b specs c objects s s')
    (hc : c ∈ cs) : Advances b specs cs s s' where
  evolves := h.evolves
  objects := ⟨objects, h.objects⟩
  statics k hk := h.statics k fun heq => hk (heq ▸ hc)
  linkage := h.linkage
  states k hk := h.states k fun heq => hk (heq ▸ hc)
  hooked := h.hooked
  outcomes name r hr hname := h.outcomes name r hr (hname c hc)

theorem Advances.trans (h : Advances b specs cs s s') (h' : Advances b specs cs s' s'') :
    Advances b specs cs s s'' where
  toAdvances := h.toAdvances.trans h'.toAdvances
  hooked := h'.hooked
  outcomes name r hr hname :=
    (h'.outcomes name r hr fun c hc => by rw [h.evolves.className]; exact hname c hc).trans
      (h.outcomes name r hr hname)

theorem Advances.mono (h : Advances b specs cs s s') (hsubset : cs ⊆ cs') :
    Advances b specs cs' s s' where
  toAdvances := h.toAdvances.mono hsubset
  hooked := h.hooked
  outcomes name r hr hname := h.outcomes name r hr fun c hc => hname c (hsubset hc)

end Advances

/-! ### Pending classes -/

/-- The classes that have nothing to do when they are initialized. -/
def plainClasses : List ClassId := [0, 1, 2, 4, 6, 8]

/-- A process with the library installed: classes that have nothing to do are not in the archive,
and none of them is being initialized. -/
structure Underway (b : MappedBoot) (specs : List ModuleSpec) (s : Session) : Prop where
  hooked : Hooked b specs s
  evolves : installed.Evolves s.machine
  unrecorded : ∀ k ∈ plainClasses, ∃ fault, b.subgraph (installed.className k) = .error fault
  idle : ∀ k ∈ plainClasses,
    s.machine.stateOf k = .uninitialized ∨ s.machine.stateOf k = .ready

/-- A class with archived state that nobody has requested. -/
structure Untouched (b : MappedBoot) (holding : Holding) (s : Session) : Prop where
  uninitialized : s.machine.stateOf holding.classId = .uninitialized
  empty : s.machine.static holding.classId holding.field = .nil
  fresh : ∀ r, b.subgraph (installed.className holding.classId) = .ok r →
    s.outcome (installed.className holding.classId) = none

/-- A process that has initialized some of the classes with archived state and not yet the rest. -/
structure Pending (b : MappedBoot) (specs : List ModuleSpec) (rest : List Holding) (s : Session) :
    Prop extends Underway b specs s where
  untouched : ∀ holding ∈ rest, Untouched b holding s

section Pending

variable {b : MappedBoot} {specs : List ModuleSpec} {holding : Holding} {rest : List Holding}
  {s s' : Session} {objects : List Object}

theorem not_mem_plainClasses (hmem : holding ∈ Holding.all) : holding.classId ∉ plainClasses := by
  have hnot : ∀ holding ∈ Holding.all, holding.classId ∉ plainClasses := by
    simp only [Holding.all, List.forall_mem_cons]
    exact ⟨by decide, by decide, by decide, by decide, by simp⟩
  exact hnot holding hmem

theorem initializer_plain {k : ClassId} (hk : k ∈ plainClasses) :
    (installed.classAt k).initializer = .none := by
  have hnone : ∀ k ∈ plainClasses, (installed.classAt k).initializer = .none := by
    simp only [plainClasses, List.forall_mem_cons]
    exact ⟨rfl, rfl, rfl, rfl, rfl, rfl, by simp⟩
  exact hnone k hk

theorem Underway.plain (h : Underway b specs s) {k : ClassId} (hk : k ∈ plainClasses) :
    Plain b s.machine k where
  lt_size := by
    have hlt : ∀ k ∈ plainClasses, k < installed.classes.size := by decide
    rw [h.evolves.size]
    exact hlt k hk
  initializer := by rw [h.evolves.initializer]; exact initializer_plain hk
  unrecorded := by rw [h.evolves.className]; exact h.unrecorded k hk
  idle := h.idle k hk

/-- A class that has nothing to do has a superclass of the same kind, or none. -/
theorem superclass_plain {m : Machine} (h : installed.Evolves m) {k : ClassId}
    (hk : k ∈ plainClasses) (hplain : Plain b m 0) : (m.classAt k).superclass = none ∨
      ∃ parent, (m.classAt k).superclass = some parent ∧ parent ≠ k ∧ Plain b m parent ∧
        (m.classAt parent).superclass = none := by
  have hsuper : ∀ k ∈ plainClasses, (installed.classAt k).superclass = none ∨
      (installed.classAt k).superclass = some 0 ∧ 0 ≠ k := by decide
  rw [h.superclass]
  rcases hsuper k hk with hnone | ⟨hsome, hne⟩
  · exact .inl hnone
  · refine .inr ⟨0, hsome, hne, hplain, ?_⟩
    rw [h.superclass]
    decide

theorem initializer_ne_none (hmem : holding ∈ Holding.all) :
    (installed.classAt holding.classId).initializer ≠ .none := by
  have hsome : ∀ holding ∈ Holding.all,
      (installed.classAt holding.classId).initializer ≠ .none := by
    simp only [Holding.all, List.forall_mem_cons]
    exact ⟨by rintro ⟨⟩, by rintro ⟨⟩, by rintro ⟨⟩, by rintro ⟨⟩, by simp⟩
  exact hsome holding hmem

theorem superclass_eq (hmem : holding ∈ Holding.all) :
    (installed.classAt holding.classId).superclass = some 0 := by
  have hsuper : ∀ holding ∈ Holding.all,
      (installed.classAt holding.classId).superclass = some 0 := by
    simp only [Holding.all, List.forall_mem_cons]
    exact ⟨by decide, by decide, by decide, by decide, by simp⟩
  exact hsuper holding hmem

theorem lookup_holding (hmem : holding ∈ Holding.all) :
    installed.lookup (installed.className holding.classId) = some holding.classId := by
  have hlookup : ∀ holding ∈ Holding.all,
      installed.lookup (installed.className holding.classId) = some holding.classId := by
    simp only [Holding.all, List.forall_mem_cons]
    exact ⟨by decide, by decide, by decide, by decide, by simp⟩
  exact hlookup holding hmem

/-- No class has two archived arrays. -/
theorem eq_of_classId_eq (hmem : holding ∈ Holding.all) {other : Holding}
    (hother : other ∈ Holding.all) (h : other.classId = holding.classId) : other = holding := by
  have hdistinct : (Holding.all.map Holding.classId).Nodup := by decide
  exact List.inj_on_of_nodup_map hdistinct hother hmem h

/-- The classes with archived state have names of their own. -/
theorem className_ne (hmem : holding ∈ Holding.all) {other : Holding} (hother : other ∈ Holding.all)
    (hne : other.classId ≠ holding.classId) :
    installed.className other.classId ≠ installed.className holding.classId := by
  intro heq
  have hlookup := lookup_holding hother
  rw [heq, lookup_holding hmem] at hlookup
  exact hne (Option.some.inj hlookup).symm

theorem classId_ne (hsuffix : holding :: rest <:+ Holding.all) {other : Holding}
    (hother : other ∈ rest) : other.classId ≠ holding.classId := by
  have hall : (Holding.all.map Holding.classId).Nodup := by decide
  have hdistinct := hall.sublist (hsuffix.sublist.map Holding.classId)
  rw [List.map_cons, List.nodup_cons] at hdistinct
  exact fun heq => hdistinct.1 (heq ▸ List.mem_map_of_mem hother)

theorem Underway.of_advances {cs : List ClassId} (h : Underway b specs s)
    (hadvances : Advances b specs cs s s') (hcs : ∀ k ∈ plainClasses, k ∉ cs) :
    Underway b specs s' where
  hooked := hadvances.hooked
  evolves := h.evolves.trans hadvances.evolves
  unrecorded := h.unrecorded
  idle k hk := hadvances.idle (hcs k hk) (h.idle k hk)

/-- A class stays as it is while other classes are initialized. -/
theorem Untouched.of_advances {cs : List ClassId} (h : Untouched b holding s)
    (hmem : holding ∈ Holding.all) (hevolves : installed.Evolves s.machine)
    (hadvances : Advances b specs cs s s') (hcs : holding.classId ∉ cs)
    (hnames : ∀ c ∈ cs, installed.className holding.classId ≠ installed.className c) :
    Untouched b holding s' where
  uninitialized := by
    rcases hadvances.states _ hcs with heq | ⟨hnone, -, -⟩
    · rw [heq]
      exact h.uninitialized
    · rw [hevolves.initializer] at hnone
      exact absurd hnone (initializer_ne_none hmem)
  empty := (hadvances.static hcs _).trans h.empty
  fresh r hr := by
    rw [hadvances.outcomes _ r hr fun c hc => by rw [hevolves.className]; exact hnames c hc]
    exact h.fresh r hr

/-- **The classes that were pending besides the one that was initialized still are.** -/
theorem Pending.of_moves (hsuffix : holding :: rest <:+ Holding.all)
    (h : Pending b specs (holding :: rest) s)
    (hmoves : Moves b specs holding.classId objects s s') : Pending b specs rest s' := by
  have hmem : ∀ other ∈ holding :: rest, other ∈ Holding.all := fun _ hother =>
    hsuffix.subset hother
  have hadvances : Advances b specs [holding.classId] s s' := hmoves.advances List.mem_cons_self
  have hplain : ∀ k ∈ plainClasses, k ∉ [holding.classId] := fun k hk heq =>
    not_mem_plainClasses (hmem holding List.mem_cons_self) (List.mem_singleton.1 heq ▸ hk)
  refine ⟨h.toUnderway.of_advances hadvances hplain, fun other hother => ?_⟩
  have hne : other.classId ≠ holding.classId := classId_ne hsuffix hother
  have hother' : other ∈ holding :: rest := List.mem_cons_of_mem _ hother
  refine (h.untouched other hother').of_advances (hmem other hother') h.evolves hadvances ?_ ?_
  · exact fun heq => hne (List.mem_singleton.1 heq)
  · intro c hc
    rw [List.mem_singleton.1 hc]
    exact className_ne (hmem holding List.mem_cons_self) (hmem other hother') hne

/-! ### Requests -/

theorem require_eq {request : Requester} {c : ClassId} (h : request c s = (.ok (), s')) :
    Run.require request c s = (.ok (), s') := by
  rw [Run.require, Run.act, exceptBind_apply (lift_apply _ s), h]
  rfl

theorem require_eq_error {request : Requester} {c : ClassId} {fault : Fault}
    (h : request c s = (.error fault, s')) :
    Run.require request c s = (.error (.fault fault), s') := by
  rw [Run.require, Run.act, exceptBind_apply (lift_apply _ s), h]
  rfl

theorem eq_ok_of_require_eq_ok {request : Requester} {c : ClassId}
    (h : Run.require request c s = (.ok (), s')) : request c s = (.ok (), s') := by
  rw [Run.require, Run.act, exceptBind_apply (lift_apply _ s)] at h
  cases hrequest : request c s with
  | mk answer s₁ =>
    rw [hrequest] at h
    cases answer with
    | ok _ =>
      obtain ⟨-, rfl⟩ := Prod.mk.inj ((ofFault_apply () s₁).symm.trans h)
      rfl
    | error fault => cases h

theorem requestEach_cons {c : ClassId} {others : List ClassId} (h : request c s = (.ok (), s')) :
    requestEach (c :: others) s = requestEach others s' := by
  rw [requestEach, exceptBind_apply (require_eq h)]

/-- **A request for a class with archived state, part by part.** What the superclass needs is done,
then the archive is consulted, and the answer is up to the initializer. -/
theorem exists_request_eq {bound : Nat} (hmem : holding ∈ Holding.all) (h : Underway b specs s)
    (hbefore : s.machine.stateOf holding.classId = .uninitialized)
    (hbound : s.machine.uninitializedCount ≤ bound) :
    ∃ depth s₁, s₁.machine.uninitializedCount ≤ depth ∧
      Quiet b specs (s.begin holding.classId) s₁ ∧
      ∀ {s₂ s₃ : Session} {answer : Except Fault Unit},
        consultHook (requestWithin depth) holding.classId s₁ = ((), s₂) →
        enterInitializer (requestWithin depth) holding.classId s₂ = (answer, s₃) →
        requestWithin bound holding.classId s = (answer, s₃.finish holding.classId answer) := by
  have hlt := Holding.lt_size hmem h.evolves
  have hless := Machine.uninitializedCount_setState_running hlt hbefore
  obtain ⟨depth, rfl⟩ : ∃ depth, bound = depth + 1 := ⟨bound - 1, by omega⟩
  have hbegin : Moves b specs holding.classId [] s (s.begin holding.classId) :=
    moves_move h.hooked _ _
  have hne : (0 : ClassId) ≠ holding.classId := fun heq =>
    not_mem_plainClasses hmem (heq ▸ by decide)
  have hplain : Plain b (s.begin holding.classId).machine 0 := (h.plain (by decide)).of_begin hne
  have hevolves : installed.Evolves (s.begin holding.classId).machine :=
    h.evolves.trans hbegin.evolves
  have hle : (s.begin holding.classId).machine.uninitializedCount ≤ depth :=
    Nat.lt_succ_iff.1 (hless.trans_le hbound)
  obtain ⟨s₁, hgranted, hquiet, -⟩ := exists_request_plain hbegin.hooked hle hplain
    (superclass_plain hevolves (by decide) hplain)
  have hsuper : requestSuperclass (requestWithin depth) holding.classId (s.begin holding.classId)
      = (.ok (), s₁) := by
    refine requestSuperclass_of_some ?_ hgranted
    rw [hevolves.superclass, superclass_eq hmem]
  refine ⟨depth, s₁, hquiet.readied.uninitializedCount_le.trans hle, hquiet, ?_⟩
  intro s₂ s₃ answer hconsult hentered
  have hrun : runInitializer (requestWithin depth) holding.classId (s.begin holding.classId)
      = (answer, s₃) := by
    rw [runInitializer_eq hsuper, hconsult, hentered]
  rw [requestWithin_of_uninitialized depth hbefore, hrun]

/-- **A request that was granted ran the initializer to its end.** -/
theorem exists_body_of_request {bound : Nat} (hmem : holding ∈ Holding.all)
    (h : Underway b specs s) (hbefore : s.machine.stateOf holding.classId = .uninitialized)
    (hbound : s.machine.uninitializedCount ≤ bound)
    (hgranted : requestWithin bound holding.classId s = (.ok (), s')) :
    ∃ depth s₁ s₂ s₃, Quiet b specs (s.begin holding.classId) s₁ ∧
      consultHook (requestWithin depth) holding.classId s₁ = ((), s₂) ∧
      runBody (requestWithin depth) holding.classId (installed.classAt holding.classId).initializer
        (s₂.note (.entered holding.classId)) = (.ok (), s₃) ∧
      s' = s₃.finish holding.classId (.ok ()) := by
  obtain ⟨depth, s₁, -, hquiet, hanswer⟩ := exists_request_eq hmem h hbefore hbound
  cases hconsult : consultHook (requestWithin depth) holding.classId s₁ with
  | mk u s₂ =>
  cases hentered : enterInitializer (requestWithin depth) holding.classId s₂ with
  | mk answer s₃ =>
  have hrequest := hanswer hconsult hentered
  rw [hgranted] at hrequest
  obtain ⟨rfl, hfinish⟩ := Prod.mk.inj hrequest
  have hconsulted : s₁.machine.Evolves s₂.machine := by
    have hwithin := within_consultHook (within_requestWithin depth) holding.classId s₁
    rw [hconsult] at hwithin
    exact hwithin.machine
  have hevolves : installed.Evolves s₂.machine :=
    ((h.evolves.trans (Machine.evolves_setState _ _ _)).trans hquiet.readied.evolves).trans
      hconsulted
  exact ⟨depth, s₁, s₂, s₃, hquiet, hconsult,
    runBody_of_enterInitializer (hevolves.initializer _) (initializer_ne_none hmem) hentered,
    hfinish⟩

/-- The parts before the archive is consulted. -/
theorem moves_begin (h : Hooked b specs s) {c : ClassId} {s₁ : Session}
    (hquiet : Quiet b specs (s.begin c) s₁) : Moves b specs c [] s s₁ :=
  (moves_move h c .running).trans (Moves.of_quiet hquiet)

theorem static_finish (s : Session) (c k : ClassId) (name : Text) :
    (s.finish c (.ok ())).machine.static k name = s.machine.static k name :=
  congrArg (Statics.get · name) (Machine.statics_setState s.machine _ _ _)

theorem stateOf_finish {c : ClassId} (hc : c < s.machine.classes.size) :
    (s.finish c (.ok ())).machine.stateOf c = .ready :=
  (Machine.stateOf_setState s.machine _ _ .ready).trans (if_pos ⟨rfl, hc⟩)

theorem Holding.Derived.finish {root : ObjectId} (h : holding.Derived s.machine root)
    (c : ClassId) : holding.Derived (s.finish c (.ok ())).machine root := by
  intro p hp
  rw [static_finish, h p hp]
  cases p.2 <;> rfl

/-- **A request for a class with archived state whose initializer succeeds.** -/
theorem exists_request {bound : Nat} (hmem : holding ∈ Holding.all) (h : Underway b specs s)
    (hbefore : s.machine.stateOf holding.classId = .uninitialized)
    (hbound : s.machine.uninitializedCount ≤ bound) :
    ∃ depth s₁, s₁.machine.uninitializedCount ≤ depth ∧
      Quiet b specs (s.begin holding.classId) s₁ ∧
      ∀ {s₂ : Session} {restored made : List Object} {root : ObjectId},
        consultHook (requestWithin depth) holding.classId s₁ = ((), s₂) →
        Moves b specs holding.classId restored s₁ s₂ →
        holding.Initializes b specs (runBody (requestWithin depth) holding.classId
          (installed.classAt holding.classId).initializer) made root
          (s₂.note (.entered holding.classId)) →
        ∃ s', requestWithin bound holding.classId s = (.ok (), s') ∧
          Moves b specs holding.classId (restored ++ made) s s' ∧
          Moves b specs holding.classId made s₂ s' ∧ s'.graphs = s₂.graphs ∧
          s'.machine.stateOf holding.classId = .ready ∧ holding.Derived s'.machine root := by
  obtain ⟨depth, s₁, hdepth, hquiet, hanswer⟩ := exists_request_eq hmem h hbefore hbound
  refine ⟨depth, s₁, hdepth, hquiet, ?_⟩
  rintro s₂ restored made root hconsult hconsulted ⟨s₃, hbody, hfilled, hderived⟩
  have hmoves : Moves b specs holding.classId restored s s₂ :=
    (moves_begin h.hooked hquiet).trans hconsulted
  have hinitializer : (s₂.machine.classAt holding.classId).initializer
      = (installed.classAt holding.classId).initializer :=
    (h.evolves.trans hmoves.evolves).initializer holding.classId
  have hentered := enterInitializer_of_ok hinitializer (initializer_ne_none hmem) hbody
  have hnoted : Moves b specs holding.classId [] s₂ (s₂.note (.entered holding.classId)) :=
    moves_of_machine_eq (hmoves.hooked.note _) rfl rfl
  have hinitialized : Moves b specs holding.classId made s₂ s₃ :=
    hnoted.trans (Moves.of_filled hfilled)
  have hall : Moves b specs holding.classId (restored ++ made) s s₃ := hmoves.trans hinitialized
  exact ⟨s₃.finish holding.classId (.ok ()), hanswer hconsult hentered, hall.finish,
    hinitialized.finish, hfilled.graphs,
    stateOf_finish (Holding.lt_size hmem (h.evolves.trans hall.evolves)), hderived.finish _⟩

end Pending

end Library

end ClassSharing
