import ClassSharing.Proofs.Session.Frame

/-!
# Journals

The journal of a session only grows, so what happened between two sessions is what the later journal
has beyond the earlier one. Some events are steps of the initialization of a class: the class moves
from one state to another, the archive is consulted about it, its initializer is entered. The steps
of one class are looked at apart from everything else that happens meanwhile.

## Main definitions

* `Session.since`: what has been noted since an earlier session
* `steps`: the steps of the initialization of a class among events
* `Preceded`: every occurrence of an event comes after one with some property

## Main results

* `Session.since_trans`: what happened in two stages
* `Preceded.append`, `Preceded.append_of_mem`: order in events that happened in two stages
* `Preceded.of_steps`: order among the steps of a class is order among all events
-/

namespace ClassSharing

/-! ### Steps -/

/-- The class whose initialization an event is a step of. -/
def Event.stepOf? : Event → Option ClassId
  | moved c _ | consulting c | consulted c | entered c => some c
  | granted _ | asked _ _ | assigned _ _ _ | recorded _ _ _ => none

/-- The steps of the initialization of a class among events. -/
def steps (c : ClassId) (events : List Event) : List Event :=
  events.filter fun e => e.stepOf? = some c

section Steps

variable {c : ClassId} {e : Event} {events later : List Event}

@[simp] theorem steps_nil (c : ClassId) : steps c [] = [] := rfl

@[simp] theorem steps_append (c : ClassId) (events later : List Event) :
    steps c (events ++ later) = steps c events ++ steps c later :=
  List.filter_append events later

theorem steps_cons_of_eq (h : e.stepOf? = some c) (events : List Event) :
    steps c (e :: events) = e :: steps c events :=
  List.filter_cons_of_pos (by simpa using h)

theorem steps_singleton_of_ne (h : e.stepOf? ≠ some c) : steps c [e] = [] :=
  List.filter_cons_of_neg (by simpa using h)

theorem mem_steps : e ∈ steps c events ↔ e ∈ events ∧ e.stepOf? = some c := by
  simp [steps]

/-- A step of a class occurs as often among its steps as among all events. -/
theorem count_steps (h : e.stepOf? = some c) (events : List Event) :
    (steps c events).count e = events.count e :=
  List.count_filter (by simpa using h)

end Steps

/-! ### Order -/

/-- Whenever the event `e` occurs, an event with the property `p` has occurred before. -/
def Preceded (e : Event) (p : Event → Prop) (events : List Event) : Prop :=
  ∀ before after, events = before ++ e :: after → ∃ e' ∈ before, p e'

section Order

variable {c : ClassId} {e : Event} {p : Event → Prop} {events later : List Event}

theorem preceded_of_notMem (h : e ∉ events) : Preceded e p events := by
  rintro before after rfl
  exact absurd (by simp) h

/-- Where an event with the property has occurred, everything that happens later is preceded by
one. -/
theorem Preceded.append_of_mem (h : Preceded e p events) (hmem : ∃ e' ∈ events, p e')
    (later : List Event) : Preceded e p (events ++ later) := by
  intro before after heq
  obtain ⟨e', he', hp⟩ := hmem
  rcases List.append_eq_append_iff.1 heq with ⟨rest, rfl, -⟩ | ⟨rest, rfl, hrest⟩
  · exact ⟨e', List.mem_append_left rest he', hp⟩
  · cases rest with
    | nil => exact ⟨e', by simpa using he', hp⟩
    | cons first rest =>
      obtain ⟨rfl, -⟩ := List.cons.inj hrest
      exact h before rest rfl

theorem Preceded.append (h : Preceded e p events) (h' : Preceded e p later) :
    Preceded e p (events ++ later) := by
  intro before after heq
  rcases List.append_eq_append_iff.1 heq with ⟨rest, rfl, hlater⟩ | ⟨rest, rfl, hrest⟩
  · obtain ⟨e', he', hp⟩ := h' rest after hlater
    exact ⟨e', List.mem_append_right events he', hp⟩
  · cases rest with
    | nil =>
      obtain ⟨e', he', -⟩ := h' [] after hrest.symm
      cases he'
    | cons first rest =>
      obtain ⟨rfl, -⟩ := List.cons.inj hrest
      exact h before rest rfl

/-- **Order among the steps of a class is order among all events.** -/
theorem Preceded.of_steps (hstep : e.stepOf? = some c) (h : Preceded e p (steps c events)) :
    Preceded e p events := by
  rintro before after rfl
  rw [steps_append, steps_cons_of_eq hstep] at h
  obtain ⟨e', he', hp⟩ := h _ _ rfl
  exact ⟨e', (mem_steps.1 he').1, hp⟩

end Order

/-! ### What has been noted -/

namespace Session

/-- What has been noted since an earlier session. -/
def since (s s' : Session) : List Event := s'.journal.drop s.journal.length

section Since

variable {s s' s'' : Session}

theorem since_eq {events : List Event} (h : s'.journal = s.journal ++ events) :
    s.since s' = events := by
  rw [since, h, List.drop_left]

theorem journal_eq (h : s.journal <+: s'.journal) : s'.journal = s.journal ++ s.since s' := by
  obtain ⟨events, hevents⟩ := h
  rw [since_eq hevents.symm, hevents]

theorem since_of_journal_eq (h : s'.journal = s.journal) : s.since s' = [] :=
  since_eq (by rw [h, List.append_nil])

@[simp] theorem since_note (s : Session) (e : Event) : s.since (s.note e) = [e] := since_eq rfl

/-- **What happened in two stages.** -/
theorem since_trans (h : s.journal <+: s'.journal) (h' : s'.journal <+: s''.journal) :
    s.since s'' = s.since s' ++ s'.since s'' := by
  refine since_eq ?_
  rw [journal_eq h', ← List.append_assoc, ← journal_eq h]

end Since

end Session

end ClassSharing
