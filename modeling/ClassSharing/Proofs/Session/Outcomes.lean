import ClassSharing.Proofs.Session.Kept
import Mathlib.Data.List.TakeWhile

/-!
# Recorded outcomes

A graph looks for the outcome of a class before it restores the class, and records one afterwards.
The requests in between may restore the same class, so two restorations of one class can be under
way at the same time, one inside the other. Nevertheless one outcome at most is recorded, and it is
true: a class is recorded as restored if and only if its statics have been assigned. For if the
inner restoration fails, then so does the outer one.

What does not hold is that the statics are assigned only once. If the inner restoration succeeds, so
does the outer one, which assigns them again, after the initializer of the class may have run. Each
assignment is paid for by an attempt that was begun before an outcome was recorded.

## Main definitions

* `Session.Truthful`: what a graph reports about a class is true
* `Session.Faithful`: a stretch of a run keeps that, and pays for its assignments with attempts

## Main results

* `Session.Tried.faithful_of_eq`: an attempt to restore a class
* `Session.faithful_callAll`: every run is faithful
* `Session.outcomes_final`: recorded outcomes are terminal and true
* `Session.assigned_twice_tangledSession`: statics that are assigned twice
-/

namespace ClassSharing

/-! ### Events about the restoration of a class -/

/-- Whether an event is an assignment of the statics of a class by a graph. -/
def Event.assigns (g : GraphId) (c : ClassId) : Event → Bool
  | assigned g' c' _ => g' = g ∧ c' = c
  | _ => false

/-- The outcome that an event records for a class. -/
def Event.outcome? (g : GraphId) (name : Text) : Event → Option Outcome
  | recorded g' name' outcome => if g' = g ∧ name' = name then some outcome else none
  | _ => none

/-- The events before a graph records an outcome for a class. -/
def undecided (g : GraphId) (name : Text) (events : List Event) : List Event :=
  events.takeWhile fun e => (e.outcome? g name).isNone

/-- An event neither assigns the statics of a class nor records an outcome for it. -/
def Event.Neutral (g : GraphId) (c : ClassId) (name : Text) (e : Event) : Prop :=
  e.assigns g c = false ∧ e.outcome? g name = none

section Events

variable {g : GraphId} {c : ClassId} {name : Text} {e : Event} {events later : List Event}

theorem Event.neutral_of_begins {hook : Option GraphId} {g' : GraphId} {c' : ClassId}
    (h : e.begins hook g' c' = true) : e.Neutral g c name := by
  cases e with
  | asked _ _ => exact ⟨rfl, rfl⟩
  | consulting _ => exact ⟨rfl, rfl⟩
  | _ => cases h

theorem undecided_eq_self (h : events.filterMap (Event.outcome? g name) = []) :
    undecided g name events = events := by
  rw [undecided, List.takeWhile_eq_self_iff]
  intro e he
  rw [List.filterMap_eq_nil_iff.1 h e he]
  rfl

theorem undecided_sublist (g : GraphId) (name : Text) (h : events <+: later) :
    List.Sublist (undecided g name events) (undecided g name later) := by
  obtain ⟨rest, rfl⟩ := h
  rw [undecided, undecided, List.takeWhile_append]
  split
  · exact (List.takeWhile_prefix _).sublist.trans (List.sublist_append_left _ _)
  · exact List.Sublist.refl _

end Events

namespace Session

/-! ### True reports -/

/-- How often a graph has assigned the statics of a class. -/
def assignments (s : Session) (g : GraphId) (c : ClassId) : Nat :=
  s.journal.countP (Event.assigns g c)

/-- How many attempts to restore a class a graph has begun before it recorded an outcome. -/
def attempts (s : Session) (g : GraphId) (c : ClassId) : Nat :=
  (undecided g (s.machine.className c) s.journal).countP (Event.begins s.hook g c)

/-- What a graph reports about a class is true. -/
structure Truthful (g : GraphId) (c : ClassId) (s : Session) : Prop where
  graph : g < s.graphs.size
  recorded : s.journal.filterMap (Event.outcome? g (s.machine.className c))
    = (s.resultOf g c).toList
  attempted : s.resultOf g c ≠ some .notAttempted
  restored : s.resultOf g c = some .restored ↔ ∃ e ∈ s.journal, e.assigns g c = true
  /-- A class that was skipped cannot be restored by an attempt that is still under way. -/
  skipped : s.resultOf g c = some .skipped → ¬ s.Restorable g c
  assignedBefore : Preceded (.recorded g (s.machine.className c) .restored)
    (fun e => e.assigns g c = true) s.journal

/-- A stretch of a run keeps reports true, and pays for its assignments with attempts. -/
structure Faithful (g : GraphId) (c : ClassId) (s s' : Session) : Prop where
  dwindles : s.Dwindles s'
  journal : s.journal <+: s'.journal
  erroneous : ∀ k cause, s.machine.stateOf k = .erroneous cause →
    s'.machine.stateOf k = .erroneous cause
  truthful : Truthful g c s → Truthful g c s'
  balanced : Truthful g c s →
    s'.assignments g c + s.attempts g c ≤ s.assignments g c + s'.attempts g c

section Reports

variable {g g' : GraphId} {c d : ClassId} {s s' : Session} {e : Event}

theorem stable_faithful (g : GraphId) (c : ClassId) : Stable (Faithful g c) where
  refl s := ⟨stable_dwindles.refl s, List.prefix_rfl, fun _ _ h => h, id, fun _ => Nat.le_refl _⟩
  trans h h' := by
    refine ⟨stable_dwindles.trans h.dwindles h'.dwindles, h.journal.trans h'.journal, ?_, ?_, ?_⟩
    · intro k cause hk
      exact h'.erroneous k cause (h.erroneous k cause hk)
    · intro hs
      exact h'.truthful (h.truthful hs)
    · intro hs
      have hfirst := h.balanced hs
      have hsecond := h'.balanced (h.truthful hs)
      omega

theorem attempts_le (h : s.Evolves s') (hjournal : s.journal <+: s'.journal) :
    s.attempts g c ≤ s'.attempts g c := by
  rw [attempts, attempts, h.hook, h.machine.className]
  exact (undecided_sublist g _ hjournal).countP_le

theorem assignments_append (events : List Event) (hjournal : s'.journal = s.journal ++ events) :
    s'.assignments g c = s.assignments g c + events.countP (Event.assigns g c) := by
  rw [assignments, hjournal, List.countP_append, assignments]

theorem not_restorable (hevolves : s.Evolves s')
    (herroneous : ∀ k cause, s.machine.stateOf k = .erroneous cause →
      s'.machine.stateOf k = .erroneous cause)
    (h : ¬ s.Restorable g c) : ¬ s'.Restorable g c :=
  fun hs' => h (hs'.of_evolves hevolves herroneous)

theorem Calm.resultOf_eq (h : s.Calm s') : s'.resultOf g c = s.resultOf g c := by
  rw [resultOf, resultOf, graphAt, graphAt, h.graphs, h.evolves.machine.className]

theorem resultOf_move (s : Session) (d : ClassId) (state : InitState) :
    (s.move d state).resultOf g c = s.resultOf g c := by
  rw [resultOf, resultOf, (evolves_move s d state).machine.className]
  rfl

/-- **A stretch without an event about the class.** -/
theorem faithful_of_neutral (events : List Event) (hdwindles : s.Dwindles s')
    (herroneous : ∀ k cause, s.machine.stateOf k = .erroneous cause →
      s'.machine.stateOf k = .erroneous cause)
    (hresult : s'.resultOf g c = s.resultOf g c) (hjournal : s'.journal = s.journal ++ events)
    (hevents : ∀ e ∈ events, e.Neutral g c (s.machine.className c)) : Faithful g c s s' := by
  have hevolves := hdwindles.evolves
  have hname := hevolves.machine.className c
  have hbefore : s.journal <+: s'.journal := ⟨events, hjournal.symm⟩
  have hassigns : events.countP (Event.assigns g c) = 0 := by
    rw [List.countP_eq_zero]
    intro e he
    rw [(hevents e he).1]
    exact Bool.false_ne_true
  refine ⟨hdwindles, hbefore, herroneous, ?_, ?_⟩
  · intro hs
    refine ⟨by rw [hevolves.graphCount]; exact hs.graph, ?_, by rw [hresult]; exact hs.attempted,
      ?_, ?_, ?_⟩
    · have hnone : events.filterMap (Event.outcome? g (s.machine.className c)) = [] :=
        List.filterMap_eq_nil_iff.2 fun e he => (hevents e he).2
      rw [hname, hresult, hjournal, List.filterMap_append, hnone, List.append_nil, hs.recorded]
    · rw [hresult, hs.restored, hjournal]
      constructor
      · rintro ⟨e, he, hassign⟩
        exact ⟨e, List.mem_append_left events he, hassign⟩
      · rintro ⟨e, he, hassign⟩
        rcases List.mem_append.1 he with he | he
        · exact ⟨e, he, hassign⟩
        · rw [(hevents e he).1] at hassign
          cases hassign
    · intro hskipped
      rw [hresult] at hskipped
      exact not_restorable hevolves herroneous (hs.skipped hskipped)
    · rw [hname, hjournal]
      refine hs.assignedBefore.append (preceded_of_notMem ?_)
      intro hmem
      have hnone := (hevents _ hmem).2
      simp [Event.outcome?] at hnone
  · intro _
    have hattempts := attempts_le (g := g) (c := c) hevolves hbefore
    have hassignments := assignments_append (g := g) (c := c) events hjournal
    omega

theorem Calm.faithful (h : s.Calm s') : Faithful g c s s' := by
  refine faithful_of_neutral [] h.settles.dwindles ?_ h.resultOf_eq ?_ (by simp)
  · intro k cause hk
    rw [h.states, hk]
  · rw [h.journal, List.append_nil]

theorem faithful_note (he : e.Neutral g c (s.machine.className c)) : Faithful g c s (s.note e) :=
  faithful_of_neutral [e] (dwindles_note s e) (fun _ _ h => h) rfl rfl (by simpa using he)

/-- A class moves that is not erroneous. -/
theorem faithful_move {state : InitState} (hstate : state ≠ .uninitialized)
    (hd : ∀ cause, s.machine.stateOf d ≠ .erroneous cause) : Faithful g c s (s.move d state) := by
  refine faithful_of_neutral [.moved d state] (dwindles_move s d hstate) ?_
    (resultOf_move s d state) rfl ?_
  · intro k cause hk
    have hne : k ≠ d := by
      rintro rfl
      exact hd cause hk
    rw [stateOf_move_of_ne hne, hk]
  · rintro e he
    obtain rfl := List.mem_singleton.1 he
    exact ⟨rfl, rfl⟩

/-! ### Recording -/

theorem resultOf_withOutcome (hg : g < s.graphs.size) (c : ClassId) (outcome : Outcome) :
    (s.withOutcome g (s.machine.className c) outcome).resultOf g c = some outcome := by
  have hgraph := graphAt_updateGraph s g g fun graph =>
    { graph with results := graph.results.insert (s.machine.className c) outcome }
  rw [if_pos ⟨rfl, hg⟩] at hgraph
  have hresults := congrArg (fun graph => graph.results.get? (s.machine.className c)) hgraph
  exact hresults.trans ((Table.get?_insert _ _ _ _).trans (if_pos rfl))

theorem resultOf_withOutcome_of_ne {name : Text} (h : g' ≠ g ∨ name ≠ s.machine.className c)
    (outcome : Outcome) : (s.withOutcome g' name outcome).resultOf g c = s.resultOf g c := by
  have hgraph := graphAt_updateGraph s g' g fun graph =>
    { graph with results := graph.results.insert name outcome }
  have hresults := congrArg (fun graph => graph.results.get? (s.machine.className c)) hgraph
  refine hresults.trans ?_
  split
  · rename_i heq
    refine (Table.get?_insert _ _ _ _).trans (if_neg ?_)
    intro hname
    exact h.elim (fun hg => hg heq.1.symm) (fun hne => hne hname.symm)
  · rfl

/-- Recording an outcome for another class, or by another graph. -/
theorem faithful_recordOutcome_of_ne {name : Text} (h : g' ≠ g ∨ name ≠ s.machine.className c)
    (outcome : Outcome) : Faithful g c s (recordOutcome g' name outcome s).2 := by
  rcases recordOutcome_cases g' name outcome s with ⟨earlier, -, heq⟩ | ⟨-, heq⟩
  · rw [heq]
    exact (stable_faithful g c).refl s
  · rw [heq]
    have hdwindles : s.Dwindles (s.withOutcome g' name outcome) :=
      dwindles_of_states (evolves_withOutcome s g' name outcome) fun _ => rfl
    refine faithful_of_neutral [.recorded g' name outcome] hdwindles (fun _ _ hk => hk)
      (resultOf_withOutcome_of_ne h outcome) rfl ?_
    intro e he
    obtain rfl := List.mem_singleton.1 he
    refine ⟨rfl, if_neg ?_⟩
    rintro ⟨hg, hname⟩
    exact h.elim (fun hne => hne hg) (fun hne => hne hname)

/-! ### Attempts -/

/-- **An outcome is recorded** where there is none, and it is true. -/
theorem truthful_withOutcome (hgraph : g < s.graphs.size)
    (hnone : s.journal.filterMap (Event.outcome? g (s.machine.className c)) = [])
    {outcome : Outcome} (hattempted : outcome ≠ .notAttempted)
    (hrestored : outcome = .restored ↔ ∃ e ∈ s.journal, e.assigns g c = true)
    (hskipped : outcome = .skipped → ¬ s.Restorable g c) :
    Truthful g c (s.withOutcome g (s.machine.className c) outcome) := by
  have hresult := resultOf_withOutcome hgraph c outcome
  have hevolves := evolves_withOutcome s g (s.machine.className c) outcome
  have hjournal : (s.withOutcome g (s.machine.className c) outcome).journal
      = s.journal ++ [.recorded g (s.machine.className c) outcome] := rfl
  refine ⟨by rw [hevolves.graphCount]; exact hgraph, ?_, by rw [hresult]; simpa using hattempted,
    ?_, ?_, ?_⟩
  · rw [hresult, hjournal, hevolves.machine.className, List.filterMap_append, hnone]
    simp [Event.outcome?]
  · rw [hresult, hjournal, Option.some.injEq, hrestored]
    simp [Event.assigns]
  · intro h
    rw [hresult] at h
    exact not_restorable hevolves (fun _ _ hk => hk) (hskipped (Option.some.inj h))
  · have hbefore : Preceded (.recorded g (s.machine.className c) .restored)
        (fun e => e.assigns g c = true) s.journal := by
      refine preceded_of_notMem ?_
      intro hmem
      have hnot := List.filterMap_eq_nil_iff.1 hnone _ hmem
      simp [Event.outcome?] at hnot
    rw [hjournal, hevolves.machine.className]
    by_cases h : outcome = .restored
    · exact hbefore.append_of_mem (hrestored.1 h) _
    · exact hbefore.append (preceded_of_notMem (by simpa using Ne.symm h))

theorem Truthful.recorded_eq_nil (hs : Truthful g c s) (hnone : s.resultOf g c = none) :
    s.journal.filterMap (Event.outcome? g (s.machine.className c)) = [] := by
  rw [hs.recorded, hnone]
  rfl

/-- After a restoration that failed. -/
theorem Truthful.recordSkipped (hs : Truthful g c s) (hnot : ¬ s.Restorable g c) :
    Truthful g c (recordOutcome g (s.machine.className c) .skipped s).2 := by
  rcases recordOutcome_cases g (s.machine.className c) .skipped s with
    ⟨earlier, -, heq⟩ | ⟨hnone, heq⟩
  · rw [heq]
    exact hs
  · rw [heq]
    have hunassigned := hs.restored
    rw [show s.resultOf g c = none from hnone] at hunassigned
    refine truthful_withOutcome hs.graph (hs.recorded_eq_nil hnone) (by simp) ?_ fun _ => hnot
    simpa using hunassigned

/-- After a restoration that succeeded. There may be an outcome already, but not that the class was
skipped. -/
theorem Truthful.recordRestored (hs : Truthful g c s) (hcan : s.Restorable g c) {m : Machine}
    (hm : s.machine.Calm m) (built : List (ClassId × InitState)) :
    Truthful g c (recordOutcome g (s.machine.className c) .restored
      ((s.withMachine m).note (.assigned g c built))).2 := by
  have hresult : ((s.withMachine m).note (.assigned g c built)).resultOf g c = s.resultOf g c := by
    rw [resultOf, resultOf, ← hm.evolves.className]
    rfl
  have hname : ((s.withMachine m).note (.assigned g c built)).machine.className c
      = s.machine.className c := hm.evolves.className c
  have hjournal : ((s.withMachine m).note (.assigned g c built)).journal
      = s.journal ++ [.assigned g c built] := rfl
  have hrecorded : ((s.withMachine m).note (.assigned g c built)).journal.filterMap
      (Event.outcome? g (s.machine.className c)) = (s.resultOf g c).toList := by
    rw [hjournal, List.filterMap_append, hs.recorded]
    simp [Event.outcome?]
  have hassigned : ∃ e ∈ ((s.withMachine m).note (.assigned g c built)).journal,
      e.assigns g c = true :=
    ⟨_, List.mem_append_right _ List.mem_cons_self, by simp [Event.assigns]⟩
  rcases recordOutcome_cases g (s.machine.className c) .restored
      ((s.withMachine m).note (.assigned g c built)) with ⟨earlier, hearlier, heq⟩ | ⟨hnone, heq⟩
  · have hrestored : s.resultOf g c = some .restored := by
      have hsome : s.resultOf g c = some earlier := hearlier
      cases earlier with
      | notAttempted => exact absurd hsome hs.attempted
      | restored => exact hsome
      | skipped => exact absurd hcan (hs.skipped hsome)
    rw [heq]
    refine ⟨hs.graph, ?_, ?_, ?_, ?_, ?_⟩
    · rw [hname, hresult]
      exact hrecorded
    · rw [hresult]
      exact hs.attempted
    · rw [hresult]
      exact iff_of_true hrestored hassigned
    · simp [hresult, hrestored]
    · rw [hname, hjournal]
      exact hs.assignedBefore.append (preceded_of_notMem (by simp))
  · have hgraph : g < ((s.withMachine m).note (.assigned g c built)).graphs.size := hs.graph
    rw [heq, ← hname]
    refine truthful_withOutcome hgraph ?_ (by simp) (iff_of_true rfl hassigned) (by simp)
    rw [hname, hrecorded, show s.resultOf g c = none from hnone]
    rfl

theorem assignments_recordOutcome (name : Text) (outcome : Outcome) :
    (recordOutcome g' name outcome s).2.assignments g c = s.assignments g c := by
  rcases recordOutcome_cases g' name outcome s with ⟨earlier, -, heq⟩ | ⟨-, heq⟩
  · rw [heq]
  · rw [heq, assignments_append (s := s) [.recorded g' name outcome] rfl]
    rfl

/-- An attempt counts if there is no outcome yet. -/
theorem attempts_note (hs : Truthful g c s) (hfresh : s.resultOf g c = none)
    (he : e.begins s.hook g c = true) : (s.note e).attempts g c = s.attempts g c + 1 := by
  have hnone := hs.recorded_eq_nil hfresh
  have hneutral : e.Neutral g c (s.machine.className c) := Event.neutral_of_begins he
  have hthen : (s.journal ++ [e]).filterMap (Event.outcome? g (s.machine.className c)) = [] := by
    rw [List.filterMap_append, hnone]
    simp [hneutral.2]
  show (undecided g (s.machine.className c) (s.journal ++ [e])).countP (Event.begins s.hook g c)
    = s.attempts g c + 1
  rw [attempts, undecided_eq_self hnone, undecided_eq_self hthen, List.countP_append]
  simp [he]

/-- **An attempt to restore the class itself** pays for its assignment. -/
theorem Tried.faithful_of_eq (he : e.begins s.hook g c = true)
    (h : Tried (Faithful g c) g c (s.note e) s') : Faithful g c s s' := by
  have hneutral : e.Neutral g c (s.machine.className c) := Event.neutral_of_begins he
  have hnoted : Faithful g c s (s.note e) := faithful_note hneutral
  cases h with
  | idle hcalm => exact (stable_faithful g c).trans hnoted hcalm.faithful
  | @failed s₁ hfresh h hnot =>
    have hstep := settles_recordOutcome g (s₁.machine.className c) .skipped s₁
    refine (stable_faithful g c).trans ((stable_faithful g c).trans hnoted h) ⟨hstep.dwindles,
      hstep.journal, fun _ _ => hstep.erroneous, fun hs => hs.recordSkipped hnot, ?_⟩
    intro _
    have hmore := attempts_le (g := g) (c := c) hstep.evolves hstep.journal
    rw [assignments_recordOutcome]
    omega
  | @succeeded s₁ m objects hfresh h hcan hassigns =>
    have hm := hassigns.calm
    generalize classStates m objects = built
    have hcommitted : s₁.Settles ((s₁.withMachine m).note (.assigned g c built)) :=
      stable_settles.trans (Calm.withMachine hm).settles (settles_note rfl)
    have hstep := stable_settles.trans hcommitted
      (settles_recordOutcome g (s₁.machine.className c) .restored _)
    have hfirst := (stable_faithful g c).trans hnoted h
    refine ⟨stable_dwindles.trans hfirst.dwindles hstep.dwindles,
      hfirst.journal.trans hstep.journal, ?_, ?_, ?_⟩
    · intro k cause hk
      exact hstep.erroneous (hfirst.erroneous k cause hk)
    · intro hs
      exact (hfirst.truthful hs).recordRestored hcan hm built
    · intro hs
      have hpaid := attempts_note hs hfresh he
      have hinside := h.balanced (hnoted.truthful hs)
      have hmore := attempts_le (g := g) (c := c) hstep.evolves hstep.journal
      have hsame : (s.note e).assignments g c
          = s.assignments g c + [e].countP (Event.assigns g c) :=
        assignments_append _ rfl
      have hassigned : ((s₁.withMachine m).note (.assigned g c built)).assignments g c
          = s₁.assignments g c + [Event.assigned g c built].countP (Event.assigns g c) :=
        assignments_append _ rfl
      have hfree : [e].countP (Event.assigns g c) = 0 := by simp [hneutral.1]
      have hone : [Event.assigned g c built].countP (Event.assigns g c) = 1 := by
        simp [Event.assigns]
      rw [assignments_recordOutcome]
      -- What happened inside is balanced, and the attempt that `e` begins pays for the assignment.
      omega

/-- Other classes and other graphs stay others. -/
theorem Evolves.ne_or_className_ne (h : s.Evolves s')
    (hne : g' ≠ g ∨ s.machine.className d ≠ s.machine.className c) :
    g' ≠ g ∨ s'.machine.className d ≠ s'.machine.className c := by
  rw [h.machine.className, h.machine.className]
  exact hne

/-- **An attempt to restore another class**, or by another graph. -/
theorem Tried.faithful_of_ne (hne : g' ≠ g ∨ s.machine.className d ≠ s.machine.className c)
    (h : Tried (Faithful g c) g' d s s') : Faithful g c s s' := by
  refine h.of_stages (stable_faithful g c) Calm.faithful (fun h => h.dwindles.evolves) id ?_ ?_
  · intro t m objects _
    refine faithful_note ⟨decide_eq_false ?_, rfl⟩
    rintro ⟨rfl, rfl⟩
    exact hne.elim (fun h => h rfl) (fun h => h rfl)
  · intro t outcome ht
    exact faithful_recordOutcome_of_ne (ht.ne_or_className_ne hne) outcome

end Reports

/-! ### Runs -/

section Runs

variable {m : Machine} {n : Nat} {g g' : GraphId} {c d : ClassId} {s s' : Session}
  {calls : List Call}

theorem ne_or_className_ne (hregistered : m.Registered) (hc : c < m.classes.size)
    (hd : d < m.classes.size) (hs : Bounded m n s) (hne : ¬(g' = g ∧ d = c)) :
    g' ≠ g ∨ s.machine.className d ≠ s.machine.className c := by
  by_cases hg : g' = g
  · refine .inr ?_
    intro hname
    rw [hs.evolves.className, hs.evolves.className] at hname
    have hlookup := hregistered d hd
    rw [hname, hregistered c hc] at hlookup
    exact hne ⟨hg, (Option.some.inj hlookup).symm⟩
  · exact .inl hg

/-- **Runs keep reports true.** An attempt to restore the class pays for its assignment, and what is
done for another class has another name. -/
theorem kept_faithful (hregistered : m.Registered) (hc : c < m.classes.size) :
    Kept m (Faithful g c) where
  stable := stable_faithful g c
  calm := Calm.faithful
  dwindles := Faithful.dwindles
  granted _ _ := faithful_note ⟨rfl, rfl⟩
  consulted _ _ := faithful_note ⟨rfl, rfl⟩
  entered _ _ := faithful_note ⟨rfl, rfl⟩
  moved := faithful_move
  attempted := by
    intro n s s' g' d e hs hd he htried
    by_cases hpair : g' = g ∧ d = c
    · obtain ⟨rfl, rfl⟩ := hpair
      exact htried.faithful_of_eq he
    · have hne := ne_or_className_ne hregistered hc hd hs hpair
      exact (stable_faithful g c).trans (faithful_note (Event.neutral_of_begins he))
        (htried.faithful_of_ne hne)

/-- **Every run is faithful.** -/
theorem faithful_callAll (hs : s.machine.WellFormed) (hregistered : s.machine.Registered)
    (hc : c < s.machine.classes.size)
    (hcalls : ∀ call ∈ calls, call.classId < s.machine.classes.size) :
    Faithful g c s (s.callAll calls) :=
  (kept_faithful hregistered hc).callAll hs (bounded_self s) hcalls

/-- Where nothing has happened, there is nothing false. -/
theorem truthful_of_fresh (hjournal : s.journal = [])
    (hresults : (s.graphAt g).results = Table.empty) (hg : g < s.graphs.size) (c : ClassId) :
    Truthful g c s := by
  have hnone : s.resultOf g c = none := by
    rw [resultOf, hresults]
    rfl
  refine ⟨hg, ?_, by simp [hnone], by simp [hnone, hjournal], by simp [hnone], ?_⟩
  · rw [hnone, hjournal]
    rfl
  · rw [hjournal]
    exact preceded_of_notMem (by simp)

theorem callAll_append (s : Session) (calls more : List Call) :
    s.callAll (calls ++ more) = (s.callAll calls).callAll more :=
  List.foldl_append

/-- A recorded outcome is recorded in every later session. -/
theorem Truthful.resultOf_eq (hs : Truthful g c s) (h : Faithful g c s s') {outcome : Outcome}
    (hresult : s.resultOf g c = some outcome) : s'.resultOf g c = some outcome := by
  have hafter := (h.truthful hs).recorded
  have hrecorded := hs.recorded
  rw [hresult] at hrecorded
  obtain ⟨later, hlater⟩ := h.journal
  rw [h.dwindles.evolves.machine.className, ← hlater, List.filterMap_append, hrecorded] at hafter
  cases hresult' : s'.resultOf g c with
  | none =>
    rw [hresult'] at hafter
    cases hafter
  | some outcome' =>
    rw [hresult'] at hafter
    rw [(List.cons.inj hafter).1]

/-- An outcome that was noted is the recorded one. -/
theorem Truthful.resultOf_of_mem (hs : Truthful g c s) {outcome : Outcome}
    (h : .recorded g (s.machine.className c) outcome ∈ s.journal) :
    s.resultOf g c = some outcome := by
  have hmem : outcome ∈ s.journal.filterMap (Event.outcome? g (s.machine.className c)) :=
    List.mem_filterMap.2 ⟨_, h, if_pos ⟨rfl, rfl⟩⟩
  rw [hs.recorded] at hmem
  exact Option.mem_toList.1 hmem

/-- **Recorded outcomes are terminal and true.** In a whole run at most one outcome is recorded for
a class, and it stays however the run goes on. It says that the class was restored if and only if
its statics have been assigned, which happens before it is recorded; and if it is recorded that the
class was skipped, the statics are never assigned in the run, neither before nor after. The statics
are assigned at most as often as attempts were begun before the outcome was recorded. -/
theorem outcomes_final (hs : s.machine.WellFormed) (hregistered : s.machine.Registered)
    (hjournal : s.journal = []) (hresults : (s.graphAt g).results = Table.empty)
    (hg : g < s.graphs.size) (hc : c < s.machine.classes.size)
    (hcalls : ∀ call ∈ calls, call.classId < s.machine.classes.size) :
    (s.callAll calls).journal.filterMap (Event.outcome? g (s.machine.className c))
        = ((s.callAll calls).resultOf g c).toList ∧
      (∀ outcome more, (s.callAll calls).resultOf g c = some outcome →
        (∀ call ∈ more, call.classId < s.machine.classes.size) →
          (s.callAll (calls ++ more)).resultOf g c = some outcome) ∧
      ((s.callAll calls).resultOf g c = some .restored ↔
        ∃ e ∈ (s.callAll calls).journal, e.assigns g c = true) ∧
      Preceded (.recorded g (s.machine.className c) .restored) (fun e => e.assigns g c = true)
        (s.callAll calls).journal ∧
      (.recorded g (s.machine.className c) .skipped ∈ (s.callAll calls).journal →
        (s.callAll calls).assignments g c = 0) ∧
      (s.callAll calls).assignments g c ≤ (s.callAll calls).attempts g c := by
  have hstart : Truthful g c s := truthful_of_fresh hjournal hresults hg c
  have hrun : Faithful g c s (s.callAll calls) := faithful_callAll hs hregistered hc hcalls
  have hmachine := hrun.dwindles.evolves.machine
  have hend := hrun.truthful hstart
  have hname := hmachine.className c
  refine ⟨?_, ?_, hend.restored, ?_, ?_, ?_⟩
  · rw [← hname]
    exact hend.recorded
  · intro outcome more hresult hmore
    rw [callAll_append]
    refine hend.resultOf_eq (faithful_callAll (hmachine.wellFormed hs)
      (hmachine.registered hregistered) ?_ ?_) hresult
    · rw [hmachine.size]
      exact hc
    · intro call hcall
      rw [hmachine.size]
      exact hmore call hcall
  · rw [← hname]
    exact hend.assignedBefore
  · intro hmem
    rw [← hname] at hmem
    have hskipped := hend.resultOf_of_mem hmem
    rw [assignments, List.countP_eq_zero]
    intro e he hassign
    rw [hend.restored.2 ⟨e, he, hassign⟩] at hskipped
    cases hskipped
  · have hbalanced := hrun.balanced hstart
    have hzero : s.assignments g c = 0 := by
      rw [assignments, hjournal]
      rfl
    omega

theorem registered_tangledMachine : tangledMachine.Registered := by
  refine .addClass (.addClass (.addClass Machine.registered_new ?_) ?_) ?_
  · decide
  · decide
  · decide

/-- `C` is restored while it is being restored, and one outcome is recorded. -/
theorem outcomes_final_tangledCalls :
    tangledSession.machine.WellFormed ∧ tangledSession.machine.Registered ∧
      (tangledSession.callAll tangledCalls).resultOf 0 2 = some .restored ∧
      (∃ e ∈ (tangledSession.callAll tangledCalls).journal, e.assigns 0 2 = true) ∧
      (tangledSession.callAll tangledCalls).assignments 0 2
        ≤ (tangledSession.callAll tangledCalls).attempts 0 2 := by
  have hresult : (tangledSession.callAll tangledCalls).resultOf 0 2 = some .restored := by
    decide +kernel
  have hg : 0 < tangledSession.graphs.size := by decide
  have hc : 2 < tangledSession.machine.classes.size := by decide
  have hcalls : ∀ call ∈ tangledCalls, call.classId < tangledSession.machine.classes.size := by
    decide
  obtain ⟨-, -, hrestored, -, -, hpaid⟩ := outcomes_final (s := tangledSession)
    wellFormed_tangledMachine registered_tangledMachine rfl rfl hg hc hcalls
  exact ⟨wellFormed_tangledMachine, registered_tangledMachine, hresult, hrestored.1 hresult, hpaid⟩

/-- **Statics that are assigned twice.** Restoring `C` requests `A`, which requests `C`, so that `C`
is restored and its initializer sets `v` to 7. Then the restoration that was begun first goes on and
sets `v` back to the archived 3, although `C` has been recorded as restored and is ready. -/
theorem assigned_twice_tangledSession :
    (tangledSession.callAll [.restore 0 2]).assignments 0 2 = 2 ∧
      (tangledSession.callAll [.restore 0 2]).resultOf 0 2 = some .restored ∧
      (tangledSession.callAll [.restore 0 2]).journal.count (.entered 2) = 1 ∧
      (tangledSession.callAll [.restore 0 2]).machine.static 2 "v" = .int 3 := by
  decide +kernel

end Runs

end Session

end ClassSharing
