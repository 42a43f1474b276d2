import ClassSharing.Proofs.Session.Logging

/-!
# What a gate answers

A gate asks its bootstrap when the first call comes, whichever call that is, and keeps what it got.
So the first call is no different from the others: it does in the session what it would do if the
status had been asked for before (`GateCall.perform_asked`). And a gate that knows the status
answers everything from it and changes nothing but the sinks, to which it gives the lines in order
(`askAll_of_known`). A bootstrap may answer differently every time; only its first answer counts.

## Main definitions

* `Status.Consistent`, `Status.Usable`, `Status.settled`: the status that an answer of a bootstrap
  settles
* `GateCall`, `GateCall.answer`, `received`: what a gate is asked, what it has to answer, and which
  lines its sinks have to receive
* `Session.asked`: the session with the status of a gate asked for

## Main results

* `Session.askAll_of_known`: calls to a gate that knows the status
* `Session.answers_from_first_status`: calls to a gate that has not been asked yet
-/

namespace ClassSharing

/-! ### The status that is settled -/

namespace Status

/-- A status that a process can have. -/
structure Consistent (s : Status) : Prop where
  known : s.unknownBits = 0
  dumping : s.isDumpingStatic = true → s.isDumping = true

instance : DecidablePred Consistent := fun s =>
  decidable_of_iff (s.unknownBits = 0 ∧ (s.isDumpingStatic = true → s.isDumping = true))
    ⟨fun h => ⟨h.1, h.2⟩, fun h => ⟨h.known, h.dumping⟩⟩

theorem flaw?_eq_none_iff {s : Status} : s.flaw? = Option.none ↔ s.Consistent := by
  rw [flaw?]
  constructor
  · intro h
    split at h
    · cases h
    · rename_i hknown
      split at h
      · cases h
      · rename_i hdumping
        exact ⟨by simpa using hknown, by simpa using hdumping⟩
  · rintro ⟨hknown, hdumping⟩
    have hstatic : ¬ (s.isDumpingStatic && !s.isDumping) = true := by simpa using hdumping
    rw [hknown, if_neg (by decide), if_neg hstatic]

/-- The status that an answer of a bootstrap settles: none, unless the answer is consistent. -/
def settled : Except Fault Status → Status
  | .ok status => if status.Consistent then status else none
  | .error _ => none

/-- An answer of a bootstrap that is no fault and that a process can have. -/
def Usable (answer : Except Fault Status) : Prop :=
  ∃ status, answer = .ok status ∧ status.Consistent

theorem usable_ok_iff {s : Status} : Usable (.ok s) ↔ s.Consistent := by
  constructor
  · rintro ⟨status, heq, hstatus⟩
    obtain rfl := Except.ok.inj heq
    exact hstatus
  · exact fun h => ⟨s, rfl, h⟩

theorem not_usable_error (fault : Fault) : ¬ Usable (.error fault) := by
  rintro ⟨status, heq, -⟩
  cases heq

instance : DecidablePred Usable := fun answer =>
  match answer with
  | .ok _ => decidable_of_iff _ usable_ok_iff.symm
  | .error fault => .isFalse (not_usable_error fault)

theorem consistent_settled (answer : Except Fault Status) : (settled answer).Consistent := by
  have hnone : Consistent none := by decide
  cases answer with
  | error fault => exact hnone
  | ok status =>
    rw [settled]
    split
    · assumption
    · exact hnone

end Status

/-! ### Calls -/

/-- A question that a gate is asked, or a line that it is told to log. -/
inductive GateCall where
  | status | isDumping | isDumpingStatic | isDumpingDynamic | isUsing | isLogging | seed
  | logForm (label holder name : Text) (type : Session.Shown)
  | logSpecies (label className : Text)
deriving DecidableEq

/-- What a gate answers. -/
inductive GateAnswer where
  | status (status : Status)
  | truth (b : Bool)
  | seed (seed : Int64)
  | nothing
deriving DecidableEq

open Session

namespace GateCall

/-- Makes a call to a gate. -/
def perform (g : GateId) : GateCall → Act GateAnswer
  | status => do return .status (← gateStatus g)
  | isDumping => do return .truth (← gateStatus g).isDumping
  | isDumpingStatic => do return .truth (← gateStatus g).isDumpingStatic
  | isDumpingDynamic => do return .truth (← gateStatus g).isDumpingDynamic
  | isUsing => do return .truth (← gateStatus g).isUsing
  | isLogging => do return .truth (← gateStatus g).isLogging
  | seed => do return .seed (← gateSeed g)
  | logForm label holder name type => do
    Session.logForm g label holder name type
    return .nothing
  | logSpecies label className => do
    Session.logSpecies g label className
    return .nothing

/-- What a gate has to answer in a process of a status and a build. -/
def answer (frozen : Status) (build : Build) : GateCall → GateAnswer
  | status => .status frozen
  | isDumping => .truth frozen.isDumping
  | isDumpingStatic => .truth frozen.isDumpingStatic
  | isDumpingDynamic => .truth (frozen.isDumping && !frozen.isDumpingStatic)
  | isUsing => .truth frozen.isUsing
  | isLogging => .truth frozen.isLogging
  | seed => .seed (if frozen.isDumpingStatic then build.dumpSeed else 0)
  | logForm .. | logSpecies .. => .nothing

/-- The line that a call is about. -/
def line? : GateCall → Option Text
  | logForm label holder name type => some (formLine label holder name type)
  | logSpecies label className => some (speciesLine label className)
  | _ => none

end GateCall

/-- The lines that the sinks of a gate receive in a process of a status: one for each call that
logs, or none at all. -/
def received (frozen : Status) (calls : List GateCall) : List Text :=
  if frozen.isLogging then calls.filterMap GateCall.line? else []

namespace Session

/-- Makes calls to a gate, one after another. -/
def askAll (g : GateId) : List GateCall → Act (List GateAnswer)
  | [] => return []
  | call :: rest => do
    let answer ← call.perform g
    let answers ← askAll g rest
    return answer :: answers

/-- The session with lines given to sinks, one after another. -/
def deliverLines (s : Session) (lines : List Text) (sinks : List Sink) : Session :=
  lines.foldl (fun t line => t.deliverAll line sinks) s

section Delivery

variable {s : Session} {sinks : List Sink}

theorem deliverLines_append (lines more : List Text) :
    s.deliverLines (lines ++ more) sinks = (s.deliverLines lines sinks).deliverLines more sinks :=
  List.foldl_append

/-- Delivery reaches the recorded lines and the class lists with their files, and nothing else. -/
theorem deliverLines_frame {α : Type} (part : Session → α)
    (hpart : ∀ s lines files classLists,
      part { s with lines := lines, files := files, classLists := classLists } = part s)
    (s : Session) (lines : List Text) (sinks : List Sink) :
    part (s.deliverLines lines sinks) = part s := by
  induction lines generalizing s with
  | nil => rfl
  | cons line rest ih => exact (ih (s.deliverAll line sinks)).trans (deliverAll_frame hpart _ _ _)

theorem lines_deliverLines (lines : List Text) (gate : Gate) :
    (s.deliverLines lines gate.sinks).lines
      = s.lines ++ lines.flatMap (List.replicate gate.recordings) := by
  induction lines generalizing s with
  | nil => simp [deliverLines]
  | cons line rest ih =>
    have hfirst := s.lines_deliverAll line gate.sinks
    rw [deliverLines, List.foldl_cons]
    refine ih.trans ?_
    rw [hfirst, List.flatMap_cons, List.append_assoc, Gate.recordings]

end Delivery

/-! ### A gate that knows the status -/

section Known

variable {s : Session} {g : GateId} {b : BootId} {frozen : Status}

theorem gateStatus_of_known (h : (s.gateAt g).status = some frozen) :
    gateStatus g s = (frozen, s) := by
  rw [gateStatus, h]

theorem gateSeed_of_known (h : (s.gateAt g).status = some frozen)
    (hboot : (s.gateAt g).boot = some b) :
    gateSeed g s = (if frozen.isDumpingStatic then (s.bootAt b).build.dumpSeed else 0, s) := by
  rw [gateSeed, bind_apply, gateStatus_of_known h, bind_apply, get_apply]
  simp only [hboot]
  cases frozen.isDumpingStatic <;> rfl

theorem logLine_of_known (h : (s.gateAt g).status = some frozen) (line : Text) :
    logLine g line s
      = ((), s.deliverLines (if frozen.isLogging then [line] else []) (s.gateAt g).sinks) := by
  rw [logLine, bind_apply, gateStatus_of_known h]
  cases frozen.isLogging <;> rfl

theorem perform_of_known (h : (s.gateAt g).status = some frozen)
    (hboot : (s.gateAt g).boot = some b) (call : GateCall) :
    call.perform g s = (call.answer frozen (s.bootAt b).build,
      s.deliverLines (received frozen [call]) (s.gateAt g).sinks) := by
  have hquiet : call.line? = none →
      s.deliverLines (received frozen [call]) (s.gateAt g).sinks = s := by
    intro hline
    rw [received, List.filterMap_cons_none hline]
    cases frozen.isLogging <;> rfl
  cases call with
  | seed =>
    rw [hquiet rfl, GateCall.perform, bind_apply, gateSeed_of_known h hboot]
    rfl
  | logForm label holder name type =>
    rw [GateCall.perform, bind_apply, logForm, logLine_of_known h]
    rfl
  | logSpecies label className =>
    rw [GateCall.perform, bind_apply, logSpecies, logLine_of_known h]
    rfl
  | _ =>
    rw [hquiet rfl, GateCall.perform, bind_apply, gateStatus_of_known h]
    rfl

theorem received_cons (call : GateCall) (rest : List GateCall) :
    received frozen (call :: rest) = received frozen [call] ++ received frozen rest := by
  rw [received, received, received]
  cases frozen.isLogging with
  | false => rfl
  | true => exact List.filterMap_append (l := [call])

/-- **Calls to a gate that knows the status** are answered from it, and the sinks receive the lines.
-/
theorem askAll_of_known (h : (s.gateAt g).status = some frozen)
    (hboot : (s.gateAt g).boot = some b) (calls : List GateCall) :
    askAll g calls s = (calls.map (GateCall.answer frozen (s.bootAt b).build),
      s.deliverLines (received frozen calls) (s.gateAt g).sinks) := by
  induction calls generalizing s with
  | nil =>
    rw [received]
    cases frozen.isLogging <;> rfl
  | cons call rest ih =>
    have hgate : (s.deliverLines (received frozen [call]) (s.gateAt g).sinks).gateAt g
        = s.gateAt g := deliverLines_frame (gateAt · g) (fun _ _ _ _ => rfl) _ _ _
    have hbootAt : (s.deliverLines (received frozen [call]) (s.gateAt g).sinks).bootAt b
        = s.bootAt b := deliverLines_frame (bootAt · b) (fun _ _ _ _ => rfl) _ _ _
    have hrest := ih (by rw [hgate]; exact h) (by rw [hgate]; exact hboot)
    rw [hgate, hbootAt] at hrest
    rw [askAll, bind_apply, perform_of_known h hboot, bind_apply, hrest, received_cons call rest,
      deliverLines_append]
    rfl

end Known

/-! ### A gate that has not been asked -/

/-- What is reported about an answer of a bootstrap. -/
def complaints (answer : Except Fault Status) : List Text :=
  match judge answer with
  | .ok _ => []
  | .error message => [message]

/-- The session with the status of a gate asked for. -/
def asked (s : Session) (g : GateId) (b : BootId) : Session :=
  { s.updateBoot b Bootstrap.afterStatus with
    fatal := s.fatal ++ complaints (s.bootAt b).status }.fixStatus g
      (Status.settled (s.bootAt b).status)

section Unknown

variable {s : Session} {g : GateId} {b : BootId}

/-- An answer that is of no use is reported once, and no other is. -/
theorem length_complaints (answer : Except Fault Status) :
    (complaints answer).length = if Status.Usable answer then 0 else 1 := by
  cases answer with
  | error fault =>
    rw [if_neg (Status.not_usable_error fault)]
    rfl
  | ok status =>
    rw [complaints, judge]
    simp only [Status.usable_ok_iff, ← Status.flaw?_eq_none_iff]
    cases status.flaw? <;> rfl

theorem askStatus_eq (hboot : (s.gateAt g).boot = some b) :
    s.askStatus g = (Status.settled (s.bootAt b).status, s.asked g b) := by
  rw [askStatus, hboot, asked, complaints]
  simp only
  cases hanswer : (s.bootAt b).status with
  | error fault => rfl
  | ok status =>
    rw [judge]
    cases hflaw : status.flaw? with
    | none =>
      have hsettled : Status.settled (.ok status) = status :=
        if_pos (Status.flaw?_eq_none_iff.1 hflaw)
      simp only [hsettled, List.append_nil]
      rfl
    | some flaw =>
      have hsettled : Status.settled (.ok status) = Status.none :=
        if_neg fun h => by simp [Status.flaw?_eq_none_iff.2 h] at hflaw
      simp only [hsettled]
      rfl

theorem gateAt_asked (hg : g < s.gates.size) (b : BootId) :
    (s.asked g b).gateAt g
      = { s.gateAt g with status := some (Status.settled (s.bootAt b).status) } := by
  rw [asked, fixStatus, gateAt_updateGate, if_pos ⟨rfl, hg⟩]
  rfl

theorem bootAt_asked (g : GateId) (b : BootId) :
    (s.asked g b).bootAt b = (s.bootAt b).afterStatus := by
  refine (bootAt_updateBoot s b b Bootstrap.afterStatus).trans ?_
  split
  · rfl
  · rename_i hnot
    have hsize : s.boots.size ≤ b := by simpa using hnot
    rw [bootAt, Array.getElem?_eq_none hsize]
    rfl

theorem build_afterStatus (boot : Bootstrap) : boot.afterStatus.build = boot.build := by
  cases boot <;> rfl

/-- An operation does the same in two sessions in which its first part does. -/
theorem bind_apply_congr {α β : Type} {x : Act α} {f : α → Act β} {s s' : Session}
    (h : x s = x s') : (x >>= f) s = (x >>= f) s' := by
  rw [bind_apply, bind_apply, h]

/-- **Asking first makes no difference.** Every call begins with the question for the status. -/
theorem perform_asked (hg : g < s.gates.size) (hnew : (s.gateAt g).status = none)
    (hboot : (s.gateAt g).boot = some b) (call : GateCall) :
    call.perform g s = call.perform g (s.asked g b) := by
  have hstatus : gateStatus g s = gateStatus g (s.asked g b) := by
    have hknown : ((s.asked g b).gateAt g).status = some (Status.settled (s.bootAt b).status) := by
      rw [gateAt_asked hg]
    rw [gateStatus_of_known hknown, gateStatus, hnew]
    exact askStatus_eq hboot
  have hlog : ∀ line, logLine g line s = logLine g line (s.asked g b) := fun line =>
    bind_apply_congr hstatus
  cases call with
  | seed => exact bind_apply_congr (bind_apply_congr hstatus)
  | logForm label holder name type => exact bind_apply_congr (hlog _)
  | logSpecies label className => exact bind_apply_congr (hlog _)
  | _ => exact bind_apply_congr hstatus

/-- What calls to a gate that has not been asked yet give, if they are answered from one status. -/
structure AnswersFrom (frozen : Status) (g : GateId) (b : BootId) (calls : List GateCall)
    (s : Session) : Prop where
  /-- The status is the first answer of the bootstrap, and none if that is of no use. -/
  first : frozen = Status.settled (s.bootAt b).status
  answers : (askAll g calls s).1 = calls.map (GateCall.answer frozen (s.bootAt b).build)
  /-- The bootstrap is asked at most once. -/
  asked : (askAll g calls s).2.bootAt b
    = if calls = [] then s.bootAt b else (s.bootAt b).afterStatus
  /-- A first answer that is of no use is reported once. -/
  reported : ∃ reports, (askAll g calls s).2.fatal = s.fatal ++ reports ∧
    reports.length = if calls = [] ∨ Status.Usable (s.bootAt b).status then 0 else 1
  /-- The sinks receive the lines, and nothing else happens. -/
  delivered : (askAll g calls s).2
    = (if calls = [] then s else s.asked g b).deliverLines (received frozen calls)
        (s.gateAt g).sinks
  recorded : (askAll g calls s).2.lines
    = s.lines ++ (received frozen calls).flatMap (List.replicate (s.gateAt g).recordings)
  static : frozen.isDumpingStatic = true → frozen.isDumping = true
  /-- A seed is answered in a static dump only. -/
  seed : ∃ seed, GateCall.seed.answer frozen (s.bootAt b).build = .seed seed ∧
    (seed ≠ 0 ↔ frozen.isDumpingStatic = true) ∧
    (frozen.isDumpingStatic = true → seed = (s.bootAt b).build.dumpSeed)

theorem exists_seed (frozen : Status) (build : Build) :
    ∃ seed, GateCall.seed.answer frozen build = .seed seed ∧
      (seed ≠ 0 ↔ frozen.isDumpingStatic = true) ∧
      (frozen.isDumpingStatic = true → seed = build.dumpSeed) := by
  refine ⟨_, rfl, ?_, fun h => if_pos h⟩
  cases frozen.isDumpingStatic with
  | false => simp
  | true => simpa using build.dumpSeed_ne_zero

theorem askAll_asked (hg : g < s.gates.size) (hnew : (s.gateAt g).status = none)
    (hboot : (s.gateAt g).boot = some b) {calls : List GateCall} (hcalls : calls ≠ []) :
    askAll g calls s = (calls.map (GateCall.answer (Status.settled (s.bootAt b).status)
        (s.bootAt b).build),
      (s.asked g b).deliverLines (received (Status.settled (s.bootAt b).status) calls)
        (s.gateAt g).sinks) := by
  obtain ⟨call, rest, rfl⟩ := List.exists_cons_of_ne_nil hcalls
  have hgate := gateAt_asked (s := s) hg b
  have hfirst : askAll g (call :: rest) s = askAll g (call :: rest) (s.asked g b) :=
    bind_apply_congr (perform_asked hg hnew hboot call)
  have hknown : ((s.asked g b).gateAt g).status = some (Status.settled (s.bootAt b).status) := by
    rw [hgate]
  have hboot' : ((s.asked g b).gateAt g).boot = some b := by
    rw [hgate]
    exact hboot
  rw [hfirst, askAll_of_known hknown hboot', bootAt_asked, build_afterStatus, hgate]

/-- **A gate answers from one status.** Whatever is asked first, and however the answers of the
bootstrap change from one question to the next: all calls are answered from the first answer, if it
is consistent, and as if nothing were in use otherwise. -/
theorem answers_from_first_status (hg : g < s.gates.size) (hnew : (s.gateAt g).status = none)
    (hboot : (s.gateAt g).boot = some b) (calls : List GateCall) :
    AnswersFrom (Status.settled (s.bootAt b).status) g b calls s := by
  have hconsistent := Status.consistent_settled (s.bootAt b).status
  have hseed := exists_seed (Status.settled (s.bootAt b).status) (s.bootAt b).build
  by_cases hcalls : calls = []
  · subst hcalls
    have hnothing : received (Status.settled (s.bootAt b).status) [] = [] := by
      rw [received]
      split <;> rfl
    refine ⟨rfl, rfl, rfl, ⟨[], by simp [askAll]; rfl, by simp⟩, ?_, ?_, hconsistent.dumping, hseed⟩
    · rw [hnothing]
      rfl
    · rw [hnothing]
      exact (List.append_nil _).symm
  · have hall := askAll_asked hg hnew hboot hcalls
    have hsession := congrArg Prod.snd hall
    simp only at hsession
    refine ⟨rfl, by rw [hall], ?_, ⟨complaints (s.bootAt b).status, ?_, ?_⟩, ?_, ?_,
      hconsistent.dumping, hseed⟩
    · rw [hsession, if_neg hcalls]
      exact (deliverLines_frame (bootAt · b) (fun _ _ _ _ => rfl) _ _ _).trans
        (bootAt_asked g b)
    · rw [hsession]
      exact deliverLines_frame Session.fatal (fun _ _ _ _ => rfl) _ _ _
    · simp only [hcalls, false_or]
      exact length_complaints (s.bootAt b).status
    · rw [hsession, if_neg hcalls]
    · rw [hsession]
      exact lines_deliverLines _ _

/-- A process whose bootstrap announces a static dump with logging once, and a fault ever after. -/
def fickleSession : Session :=
  { Session.new default [] 0 with
    gates := #[⟨some 0, [.record], none⟩]
    boots := #[.synthetic { SyntheticBoot.new (.error (.of .notBootstrapped)) default with
      answer := fun asked => if asked = 0 then .ok ⟨11⟩ else .error (.of .notBootstrapped) }] }

/-- The line comes first, and what is asked later is answered from the same status. -/
theorem answers_from_first_status_fickleSession :
    (fickleSession.gateAt 0).status = none ∧ (fickleSession.gateAt 0).boot = some 0 ∧
      askAll 0 [.logForm "[LF]" "h" "n" .broken, .seed, .isUsing, .isDumping, .logSpecies "[S]" "c"]
        fickleSession
        = ([.nothing, .seed (default : Build).dumpSeed, .truth false, .truth true, .nothing],
          (fickleSession.asked 0 0).deliverLines ["[LF] h n ?", "[S] c"] [.record]) ∧
      ((fickleSession.asked 0 0).deliverLines ["[LF] h n ?", "[S] c"] [.record]).lines
        = ["[LF] h n ?", "[S] c"] := by
  have hfrozen : Status.settled (fickleSession.bootAt 0).status = ⟨11⟩ := by decide
  have hseed : GateCall.seed.answer ⟨11⟩ (fickleSession.bootAt 0).build
      = .seed (default : Build).dumpSeed := congrArg GateAnswer.seed (if_pos rfl)
  have hall := answers_from_first_status (s := fickleSession) (g := 0) (b := 0) (by decide) rfl rfl
    [.logForm "[LF]" "h" "n" .broken, .seed, .isUsing, .isDumping, .logSpecies "[S]" "c"]
  rw [hfrozen] at hall
  have hanswers := hall.answers
  simp only [List.map_cons, List.map_nil, hseed] at hanswers
  refine ⟨rfl, rfl, Prod.ext hanswers hall.delivered, ?_⟩
  exact (congrArg Session.lines hall.delivered).symm.trans hall.recorded

end Unknown

end Session

end ClassSharing
