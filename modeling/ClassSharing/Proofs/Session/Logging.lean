import ClassSharing.Proofs.Session.Lifecycle

/-!
# Logging

A line that is given to a gate reaches the sinks of the gate, if the gate has logging on. The sinks
are the recorded lines and the class lists; nothing else of a session changes, except that the gate
asks for its status if it has not done so.

## Main definitions

* `Session.logged`: the session with a line given to a log
* `Gate.recordings`: how often a gate records a line
* `Session.Logs`: a gate that has logging on and records each line once

## Main results

* `Session.deliverAll_frame`: what delivery leaves alone
* `Session.Logs.logged`: a line that such a gate is given is recorded once
-/

namespace ClassSharing

/-- How often a gate records a line that it is given. Sinks behind one that panics get nothing. -/
def Gate.recordings (gate : Gate) : Nat := (gate.sinks.takeWhile (· ≠ .broken)).count .record

namespace Session

variable {s : Session} {g : GateId}

/-- **Delivery** reaches the recorded lines and the class lists with their files, and nothing else
of a session. -/
theorem deliverAll_frame {α : Type} {part : Session → α}
    (hpart : ∀ s lines files classLists,
      part { s with lines := lines, files := files, classLists := classLists } = part s)
    (s : Session) (line : Text) (sinks : List Sink) : part (s.deliverAll line sinks) = part s := by
  induction sinks generalizing s with
  | nil => rfl
  | cons sink rest ih =>
    have hdeliver : part (s.deliver sink line).2 = part s := by
      cases sink with
      | log => rfl
      | record => exact hpart s _ s.files s.classLists
      | broken => rfl
      | classList id =>
        rw [deliver]
        split
        · rfl
        · exact hpart s s.lines _ _
    rw [deliverAll]
    split
    · rename_i s' heq
      rw [ih, ← hdeliver, heq]
    · rename_i s' heq
      rw [← hdeliver, heq]

theorem lines_deliverAll (s : Session) (line : Text) (sinks : List Sink) :
    (s.deliverAll line sinks).lines
      = s.lines ++ List.replicate ((sinks.takeWhile (· ≠ .broken)).count .record) line := by
  induction sinks generalizing s with
  | nil => simp [deliverAll]
  | cons sink rest ih =>
    cases sink with
    | log => simp [deliverAll, deliver, ih]
    | record => simp [deliverAll, deliver, ih, List.replicate_succ]
    | broken => simp [deliverAll, deliver]
    | classList id =>
      rw [deliverAll, deliver]
      cases s.classLists[id]? with
      | none => simp [ih]
      | some list => simp [ih]

theorem lines_gateStatus (g : GateId) (s : Session) : (gateStatus g s).2.lines = s.lines := by
  rw [gateStatus]
  split
  · rfl
  · rw [askStatus]
    split
    · rfl
    · simp only
      split <;> rfl

theorem sinks_gateStatus (g : GateId) (s : Session) :
    ((gateStatus g s).2.gateAt g).sinks = (s.gateAt g).sinks := by
  have hfixed : ∀ (t : Session) status, t.gates = s.gates →
      ((t.fixStatus g status).gateAt g).sinks = (s.gateAt g).sinks := by
    intro t status ht
    have hgate : t.gateAt g = s.gateAt g := by rw [gateAt, gateAt, ht]
    rw [fixStatus, gateAt_updateGate]
    split <;> simp only [hgate]
  rw [gateStatus]
  split
  · rfl
  · rw [askStatus]
    split
    · exact hfixed _ _ rfl
    · simp only
      split
      · exact hfixed _ _ rfl
      · exact hfixed _ _ rfl

theorem gateStatus_withMachine (g : GateId) (s : Session) (m : Machine) :
    (gateStatus g (s.withMachine m)).1 = (gateStatus g s).1 := by
  have hgate : (s.withMachine m).gateAt g = s.gateAt g := rfl
  rw [gateStatus, gateStatus, hgate]
  split
  · rfl
  · rw [askStatus, askStatus, hgate]
    split
    · rfl
    · rename_i b _
      have hboot : (s.withMachine m).bootAt b = s.bootAt b := rfl
      simp only [hboot]
      split <;> rfl

/-- The session with a line given to a log, if there is one. -/
def logged (log : Option GateId) (line : Text) (s : Session) : Session :=
  match log with
  | some g => (logLine g line s).2
  | none => s

/-- Logging leaves the machine alone. -/
theorem machine_logged (log : Option GateId) (line : Text) (s : Session) :
    (logged log line s).machine = s.machine := by
  cases log with
  | none => rfl
  | some g =>
    rw [logged, logLine, bind_apply]
    split
    · exact (@deliverAll_frame _ Session.machine (fun _ _ _ _ => rfl) _ _ _).trans
        (machine_gateStatus g s)
    · exact machine_gateStatus g s

/-- A gate has logging on, and records each line once. -/
structure Logs (s : Session) (g : GateId) : Prop where
  isLogging : (gateStatus g s).1.isLogging = true
  once : (s.gateAt g).recordings = 1

namespace Logs

/-- There is a gate, since asking for one that is not there has no logging as the answer. -/
theorem lt_size (h : s.Logs g) : g < s.gates.size := by
  by_contra hge
  have hgate := gateAt_of_size_le (Nat.not_lt.1 hge)
  have hnone : (gateStatus g s).1 = Status.none := by
    rw [gateStatus, hgate, askStatus, hgate]
    rfl
  exact absurd (hnone ▸ h.isLogging) (by decide)

theorem withMachine (h : s.Logs g) (m : Machine) : (s.withMachine m).Logs g :=
  ⟨by rw [gateStatus_withMachine]; exact h.isLogging, h.once⟩

/-- **A line is recorded once**, and the gate goes on logging. -/
theorem logged (h : s.Logs g) (line : Text) :
    (Session.logged (some g) line s).lines = s.lines ++ [line] ∧
      (Session.logged (some g) line s).Logs g := by
  have hsinks := sinks_gateStatus g s
  have hstatus := status_gateStatus h.lt_size
  have hlogged : Session.logged (some g) line s
      = (gateStatus g s).2.deliverAll line (s.gateAt g).sinks := by
    rw [Session.logged, logLine, bind_apply, if_pos h.isLogging, ← hsinks]
    rfl
  have hgate : (Session.logged (some g) line s).gateAt g = (gateStatus g s).2.gateAt g := by
    rw [hlogged]
    exact @deliverAll_frame _ (gateAt · g) (fun _ _ _ _ => rfl) _ _ _
  refine ⟨?_, ?_, ?_⟩
  · have honce : ((s.gateAt g).sinks.takeWhile (· ≠ .broken)).count .record = 1 := h.once
    rw [hlogged, lines_deliverAll, lines_gateStatus, honce]
    rfl
  · rw [← hgate] at hstatus
    rw [gateStatus, hstatus]
    exact h.isLogging
  · rw [Gate.recordings, hgate, hsinks]
    exact h.once

end Logs

end Session

end ClassSharing
