import ClassSharing.Proofs.Machine.Pieces
import ClassSharing.Proofs.Session.Effect
import ClassSharing.Session.Init

/-!
# What running code leaves alone in a session

Whatever runs in a session, its machine evolves and nothing more: files, gates and bootstraps stay
where they are, a gate that knows the status keeps it, and a bootstrap keeps its records. Code that
neither requests a class nor restores one is *calm*: it moves no class, records no outcome and notes
nothing in the journal either.

The lemmas follow the code from the inside out, and go through it once for all relations that hold
of it piece by piece; calmness is one of them. What requests and restorations do is the subject of
other modules.

## Main definitions

* `Session.Evolves`: what everything that runs in a session satisfies
* `Session.Calm`: what code satisfies that neither requests nor restores
* `Session.Piecewise`: a relation that holds of calm code piece by piece

## Main results

* `Session.calm_gateStatus`: asking a gate for the status is calm
* `Session.calm_archivedSubgraph`: asking a bootstrap for a record is calm
* `Session.within_perform`: the actions of scripts other than requests and restorations
* `Session.within_makeCollections`, `Session.within_makeLocales`, `Session.within_fillIntegerCache`:
  the library initializers that request nothing
* `Session.within_commit`: committing a restoration
-/

namespace ClassSharing

namespace Session

/-! ### Looking at changed parts -/

theorem gateAt_updateGate (s : Session) (id other : GateId) (f : Gate → Gate) :
    (s.updateGate id f).gateAt other
      = if other = id ∧ id < s.gates.size then f (s.gateAt other) else s.gateAt other :=
  getD_modify s.gates id other f default

theorem bootAt_updateBoot (s : Session) (id other : BootId) (f : Bootstrap → Bootstrap) :
    (s.updateBoot id f).bootAt other
      = if other = id ∧ id < s.boots.size then f (s.bootAt other) else s.bootAt other :=
  getD_modify s.boots id other f .unopened

theorem graphAt_updateGraph (s : Session) (id other : GraphId) (f : Graph → Graph) :
    (s.updateGraph id f).graphAt other
      = if other = id ∧ id < s.graphs.size then f (s.graphAt other) else s.graphAt other :=
  getD_modify s.graphs id other f default

/-! ### Evolution -/

/-- What everything that runs in a session satisfies. -/
structure Evolves (s s' : Session) : Prop where
  machine : s.machine.Evolves s'.machine
  files : s'.files = s.files
  moduleSpecs : s'.moduleSpecs = s.moduleSpecs
  hook : s'.hook = s.hook
  graphCount : s'.graphs.size = s.graphs.size
  gateOf : ∀ g, (s'.graphAt g).gate = (s.graphAt g).gate
  gateCount : s'.gates.size = s.gates.size
  bootOf : ∀ id, (s'.gateAt id).boot = (s.gateAt id).boot
  /-- A gate that knows the status keeps it. -/
  status : ∀ id status, (s.gateAt id).status = some status → (s'.gateAt id).status = some status
  record : ∀ b name, (s'.bootAt b).subgraph name = (s.bootAt b).subgraph name

theorem Evolves.refl (s : Session) : s.Evolves s :=
  ⟨.refl s.machine, rfl, rfl, rfl, rfl, fun _ => rfl, rfl, fun _ => rfl, fun _ _ h => h,
    fun _ _ => rfl⟩

theorem Evolves.trans {s s' s'' : Session} (h : s.Evolves s') (h' : s'.Evolves s'') :
    s.Evolves s'' where
  machine := h.machine.trans h'.machine
  files := h'.files.trans h.files
  moduleSpecs := h'.moduleSpecs.trans h.moduleSpecs
  hook := h'.hook.trans h.hook
  graphCount := h'.graphCount.trans h.graphCount
  gateOf g := (h'.gateOf g).trans (h.gateOf g)
  gateCount := h'.gateCount.trans h.gateCount
  bootOf id := (h'.bootOf id).trans (h.bootOf id)
  status id status hs := h'.status id status (h.status id status hs)
  record b name := (h'.record b name).trans (h.record b name)

theorem stable_evolves : Stable Evolves := ⟨.refl, .trans⟩

/-- The parts of a session besides the machine that evolution is about. -/
def fixtures (s : Session) :
    FileTree × List ModuleSpec × Option GraphId × Array Graph × Array Gate × Array Bootstrap :=
  (s.files, s.moduleSpecs, s.hook, s.graphs, s.gates, s.boots)

section Evolution

variable {s s' s'' : Session}

theorem Evolves.of_fixtures_eq (hmachine : s.machine.Evolves s'.machine)
    (h : s'.fixtures = s.fixtures) : s.Evolves s' := by
  simp only [fixtures, Prod.mk.injEq] at h
  obtain ⟨hfiles, hspecs, hhook, hgraphs, hgates, hboots⟩ := h
  have hgraphAt : ∀ g, s'.graphAt g = s.graphAt g := fun g => by rw [graphAt, graphAt, hgraphs]
  have hgateAt : ∀ id, s'.gateAt id = s.gateAt id := fun id => by rw [gateAt, gateAt, hgates]
  have hbootAt : ∀ b, s'.bootAt b = s.bootAt b := fun b => by rw [bootAt, bootAt, hboots]
  exact ⟨hmachine, hfiles, hspecs, hhook, by rw [hgraphs], fun g => by rw [hgraphAt],
    by rw [hgates], fun id => by rw [hgateAt], fun id _ hs => by rw [hgateAt]; exact hs,
    fun b name => by rw [hbootAt]⟩

theorem evolves_note (s : Session) (e : Event) : s.Evolves (s.note e) :=
  .of_fixtures_eq (.refl s.machine) rfl

theorem evolves_move (s : Session) (c : ClassId) (state : InitState) : s.Evolves (s.move c state) :=
  .of_fixtures_eq (Machine.evolves_setState s.machine c state) rfl

/-! ### Calm -/

/-- What code satisfies that neither requests a class nor restores one. -/
structure Calm (s s' : Session) : Prop where
  evolves : s.Evolves s'
  states : ∀ c, s'.machine.stateOf c = s.machine.stateOf c
  graphs : s'.graphs = s.graphs
  journal : s'.journal = s.journal

theorem stable_calm : Stable Calm where
  refl s := ⟨.refl s, fun _ => rfl, rfl, rfl⟩
  trans h h' := ⟨h.evolves.trans h'.evolves, fun c => (h'.states c).trans (h.states c),
    h'.graphs.trans h.graphs, h'.journal.trans h.journal⟩

theorem Calm.of_fixtures_eq (hmachine : s.machine.Calm s'.machine) (h : s'.fixtures = s.fixtures)
    (hjournal : s'.journal = s.journal) : s.Calm s' := by
  refine ⟨.of_fixtures_eq hmachine.evolves h, hmachine.states, ?_, hjournal⟩
  exact congrArg (fun parts => parts.2.2.2.1) h

/-- Code that touches only the machine. -/
theorem Calm.withMachine {m : Machine} (h : s.machine.Calm m) : s.Calm (s.withMachine m) :=
  .of_fixtures_eq h rfl rfl

/-- Code that touches neither the machine nor what evolution is about. -/
theorem Calm.of_machine_eq (hmachine : s'.machine = s.machine) (h : s'.fixtures = s.fixtures)
    (hjournal : s'.journal = s.journal) : s.Calm s' :=
  .of_fixtures_eq (hmachine ▸ .refl s.machine) h hjournal

/-- A question that does not change the records of a bootstrap. -/
theorem calm_updateBoot (s : Session) (id : BootId) {f : Bootstrap → Bootstrap}
    (hf : ∀ b name, (f b).subgraph name = b.subgraph name) : s.Calm (s.updateBoot id f) := by
  refine ⟨⟨.refl s.machine, rfl, rfl, rfl, rfl, fun _ => rfl, rfl, fun _ => rfl, fun _ _ h => h,
    fun b name => ?_⟩, fun _ => rfl, rfl, rfl⟩
  rw [bootAt_updateBoot]
  split
  · exact hf _ name
  · rfl

theorem subgraph_afterStatus (b : Bootstrap) (name : Text) :
    b.afterStatus.subgraph name = b.subgraph name := by
  cases b <;> rfl

theorem subgraph_afterSubgraph (b : Bootstrap) (name : Text) :
    b.afterSubgraph.subgraph name = b.subgraph name := by
  cases b <;> rfl

/-- Fixing a status that was not known. -/
theorem calm_fixStatus {g : GateId} (h : (s.gateAt g).status = none) (status : Status) :
    s.Calm (s.fixStatus g status) := by
  refine ⟨⟨.refl s.machine, rfl, rfl, rfl, rfl, fun _ => rfl, Array.size_modify, fun id => ?_,
    fun id known hknown => ?_, fun _ _ => rfl⟩, fun _ => rfl, rfl, rfl⟩
  · rw [fixStatus, gateAt_updateGate]
    split <;> rfl
  · rw [fixStatus, gateAt_updateGate]
    split
    · rename_i hid
      rw [hid.1, h] at hknown
      cases hknown
    · exact hknown

theorem calm_reportFatal (s : Session) (message : Text) : s.Calm (s.reportFatal message) :=
  .of_machine_eq rfl rfl rfl

theorem calm_askStatus {g : GateId} (h : (s.gateAt g).status = none) :
    s.Calm (s.askStatus g).2 := by
  rw [askStatus]
  cases (s.gateAt g).boot with
  | none =>
    have hreport := s.calm_reportFatal (Cause.message .notBootstrapped)
    exact stable_calm.trans hreport (calm_fixStatus (s := s.reportFatal _) h _)
  | some b =>
    have hasked : s.Calm (s.updateBoot b Bootstrap.afterStatus) :=
      calm_updateBoot s b subgraph_afterStatus
    simp only
    cases judge (s.bootAt b).status with
    | ok status =>
      exact stable_calm.trans hasked (calm_fixStatus (s := s.updateBoot b _) h status)
    | error message =>
      have hreport := (s.updateBoot b Bootstrap.afterStatus).calm_reportFatal message
      exact stable_calm.trans (stable_calm.trans hasked hreport)
        (calm_fixStatus (s := (s.updateBoot b _).reportFatal message) h _)

theorem machine_gateStatus (g : GateId) (s : Session) :
    (gateStatus g s).2.machine = s.machine := by
  rw [gateStatus]
  split
  · rfl
  · rw [askStatus]
    split
    · rfl
    · simp only
      split <;> rfl

/-- **Asking a gate for the status.** -/
theorem calm_gateStatus (g : GateId) : Within Calm (gateStatus g) := by
  intro s
  rw [gateStatus]
  cases hstatus : (s.gateAt g).status with
  | some status => exact stable_calm.refl s
  | none => exact calm_askStatus hstatus

end Evolution

/-! ### Operations that answer without a change -/

section Answers

variable {R : Session → Session → Prop} {α β : Type}

theorem within_ofFault (h : Stable R) (x : Except Fault α) : Within R (Run.ofFault x) := by
  cases x
  · exact Within.throw h _
  · exact Within.exceptPure h _

theorem within_ofPanic (h : Stable R) (x : Except Panic α) : Within R (Run.ofPanic x) := by
  cases x
  · exact Within.throw h _
  · exact Within.exceptPure h _

theorem within_orPanic (h : Stable R) (x : Except OperandFlaw α) : Within R (orPanic x) := by
  cases x
  · exact Within.throw h _
  · exact Within.exceptPure h _

theorem within_machine (h : Stable R) : Within R Run.machine := fun s => h.refl s

/-- An operation that looks at the machine first. -/
theorem within_ofMachine {f : Machine → Run α} (hf : ∀ s, R s (f s.machine s).2) :
    Within R (Run.machine >>= f) := hf

theorem within_valueOf (h : Stable R) (operand : Operand) : Within R (valueOf operand) :=
  Within.exceptBind h (Within.exceptGet h) fun s => within_orPanic h (s.evaluate operand)

/-- An operation on what a name in a script stands for. -/
theorem within_named (h : Stable R) {find : Session → Except OperandFlaw α} {f : α → Run β}
    (hf : ∀ a, Within R (f a)) : Within R (do f (← orPanic (find (← get))) : Run β) :=
  Within.exceptBind h (Within.exceptGet h) fun s => .exceptBind h (within_orPanic h (find s)) hf

end Answers

/-! ### Calm code, piece by piece -/

/-- A relation that holds of calm code piece by piece: of code that leaves the machine alone, and of
each piece of what other code does to it. -/
structure Piecewise (R : Session → Session → Prop) : Prop where
  stable : Stable R
  aside : ∀ {s s'}, s.Calm s' → s'.machine = s.machine → R s s'
  piece : ∀ {s m}, s.machine.Piece m → R s (s.withMachine m)

theorem Piecewise.of_calm {R : Session → Session → Prop} (hstable : Stable R)
    (hcalm : ∀ {s s'}, s.Calm s' → R s s') : Piecewise R :=
  ⟨hstable, fun h _ => hcalm h, fun h => hcalm (.withMachine h.calm)⟩

theorem ofFault_eq {α : Type} (x : Except Fault α) :
    Run.ofFault x = Run.ofFailure (x.mapError .fault) := by
  cases x <;> rfl

theorem ofPanic_eq {α : Type} (x : Except Panic α) :
    Run.ofPanic x = Run.ofFailure (x.mapError .panic) := by
  cases x <;> rfl

theorem eq_ok_of_mapError_eq_ok {ε ε' α : Type} {f : ε → ε'} {x : Except ε α} {a : α}
    (h : x.mapError f = .ok a) : x = .ok a := by
  cases x with
  | error e => cases h
  | ok b => rw [Except.ok.inj h]

/-- Whether an action neither requests a class nor restores one. -/
def isCalm : Action → Bool
  | .request _ | .tryRequest _ | .restore _ _ => false
  | _ => true

/-- A calm action does not depend on how classes are requested. -/
theorem perform_eq_of_isCalm {action : Action} (h : isCalm action = true)
    (request request' : Requester) (c : ClassId) :
    perform request c action = perform request' c action := by
  cases action with
  | request name => cases h
  | tryRequest name => cases h
  | restore g name => cases h
  | _ => rfl

section Code

variable {R : Session → Session → Prop} {α : Type} (hR : Piecewise R)
include hR

/-! ### Changes of the machine -/

theorem within_traceLine (line : Text) : Within R (traceLine line) := fun _ =>
  hR.aside (.of_machine_eq rfl rfl rfl) rfl

/-- The machine is replaced by what an operation makes of it, unless the operation fails. -/
theorem within_replace {f : Machine → Except Failure Machine}
    (hf : ∀ m m', f m = .ok m' → m.Piece m') :
    Within R (Run.machine >>= fun m => Run.ofFailure (f m) >>= Run.setMachine) := by
  refine within_ofMachine fun s => ?_
  cases hmade : f s.machine with
  | error e => exact hR.stable.refl s
  | ok m => exact hR.piece (hf s.machine m hmade)

theorem within_setStatic (c : ClassId) (field : Text) (v : Value) :
    Within R (do Run.setMachine (← Run.ofFault ((← Run.machine).setStatic c field v)) :
      Run Unit) := by
  simp only [ofFault_eq]
  exact within_replace hR fun m m' h => Machine.piece_setStatic (eq_ok_of_mapError_eq_ok h)

theorem within_setAllStatics (c : ClassId) (values : List (Text × Value)) :
    Within R (do Run.setMachine (← Run.ofFault ((← Run.machine).setAllStatics c values)) :
      Run Unit) := by
  simp only [ofFault_eq]
  exact within_replace hR fun m m' h => Machine.piece_setAllStatics (eq_ok_of_mapError_eq_ok h)

/-! ### Scripts -/

/-- **One action of a script.** -/
theorem within_perform {action : Action} (h : isCalm action = true) (request : Requester)
    (c : ClassId) : Within R (perform request c action) := by
  have hstable := hR.stable
  cases action with
  | set field operand =>
    exact .exceptBind hstable (within_valueOf hstable operand) fun v =>
      within_setStatic hR c field v
  | setIfNil field operand =>
    refine .exceptBind hstable (within_machine hstable) fun m => ?_
    split
    · exact .exceptBind hstable (within_valueOf hstable operand) fun v =>
        within_setStatic hR c field v
    · exact .exceptPure hstable ()
  | setAll values =>
    refine .exceptBind hstable (.mapM hstable fun p => ?_) fun vs => within_setAllStatics hR c vs
    exact .exceptBind hstable (within_valueOf hstable p.2) fun v => .exceptPure hstable _
  | request name => cases h
  | tryRequest name => cases h
  | restore g name => cases h
  | see name =>
    refine within_named hstable fun k => ?_
    exact .exceptBind hstable (within_machine hstable) fun m => within_traceLine hR _
  | «show» field =>
    exact .exceptBind hstable (within_machine hstable) fun m => within_traceLine hR _
  | trace line => exact within_traceLine hR line
  | new name className =>
    refine within_named hstable fun k => ?_
    refine .exceptBind hstable (fun s => hR.piece (Machine.piece_allocate s.machine _)) fun o => ?_
    exact fun s => hR.aside (.of_machine_eq rfl rfl rfl) rfl
  | newIndexed name className size =>
    refine within_named hstable fun k => ?_
    refine within_ofMachine fun s => ?_
    cases hmade : s.machine.instantiateIndexed k size with
    | error p => exact hstable.refl s
    | ok made =>
      exact hstable.trans (hR.piece (Machine.piece_instantiateIndexed hmade))
        (hR.aside (.of_machine_eq rfl rfl rfl) rfl)
  | put name field operand =>
    refine within_named hstable fun o => ?_
    refine .exceptBind hstable (within_valueOf hstable operand) fun v => ?_
    exact within_replace hR fun m m' h => Machine.piece_setField h
  | putAt name i operand =>
    refine within_named hstable fun o => ?_
    refine .exceptBind hstable (within_valueOf hstable operand) fun v => ?_
    simp only [ofPanic_eq]
    exact within_replace hR fun m m' h => Machine.piece_setElement (eq_ok_of_mapError_eq_ok h)
  | traceText operand =>
    refine .exceptBind hstable (within_valueOf hstable operand) fun v => ?_
    exact .exceptBind hstable (within_ofPanic hstable _) fun t => within_traceLine hR t
  | fail text => exact .throw hstable _
  | panic text => exact .throw hstable _
  | panicFault text => exact .throw hstable _
  | spawn name =>
    refine within_named hstable fun k => ?_
    exact fun s => hR.aside (.of_machine_eq rfl rfl rfl) rfl

/-! ### Library initializers -/

theorem within_make (c : ClassId) (fields : List (Text × Value)) :
    Within R (Library.make c fields) := by
  have hstable := hR.stable
  refine .exceptBind hstable (fun s => hR.piece (Machine.piece_allocate s.machine _)) fun o => ?_
  refine .exceptBind hstable (.forIn hstable fun p b => ?_) fun _ => .exceptPure hstable o
  refine within_ofMachine fun s => ?_
  cases hset : s.machine.setField o p.1 p.2 with
  | error e => cases e <;> exact hstable.refl s
  | ok m => exact hR.piece (Machine.piece_setField hset)

theorem within_makeArray (values : List Value) : Within R (Library.makeArray values) :=
  fun s => hR.piece (Machine.piece_allocate s.machine _)

theorem within_archivedOr (c : ClassId) (name : Text) (size : Nat) {compute : Run ObjectId}
    (hcompute : Within R compute) : Within R (Library.archivedOr c name size compute) := by
  have hstable := hR.stable
  refine .exceptBind hstable (within_machine hstable) fun m => ?_
  split
  · exact .exceptPure hstable _
  · refine .exceptBind hstable hcompute fun o => ?_
    exact .exceptBind hstable (within_setStatic hR c name (.obj o)) fun _ => .exceptPure hstable _

theorem within_elementOf (array : Value) (i : Nat) : Within R (Library.elementOf array i) := by
  have hstable := hR.stable
  cases array with
  | obj o => exact .exceptBind hstable (within_machine hstable) fun m => within_ofPanic hstable _
  | nil => exact .throw hstable _
  | int n => exact .throw hstable _
  | bool b => exact .throw hstable _
  | str s => exact .throw hstable _

theorem within_newSet (set : ClassId) (elements : List Value) :
    Within R (Library.newSet set elements) := by
  have hstable := hR.stable
  refine .exceptBind hstable (within_machine hstable) fun m => ?_
  refine .exceptBind hstable (within_ofFault hstable _) fun table => ?_
  exact .exceptBind hstable (within_makeArray hR table) fun array => within_make hR set _

theorem within_fillIntegerCache (c integer : ClassId) :
    Within R (Library.fillIntegerCache c integer) := by
  have hstable := hR.stable
  refine .exceptBind hstable (within_archivedOr hR _ _ _ ?_) fun cache =>
    within_setAllStatics hR c _
  refine .exceptBind hstable (.mapM hstable fun i => ?_) fun boxes => within_makeArray hR boxes
  exact .exceptBind hstable (within_make hR integer _) fun o => .exceptPure hstable _

theorem within_gateStatus (g : GateId) : Within R (gateStatus g) := fun s =>
  hR.aside (calm_gateStatus g s) (machine_gateStatus g s)

theorem within_askSeed (seeds : SeedSource) : Within R (Library.askSeed seeds) := by
  have hstable := hR.stable
  cases seeds with
  | absent => exact .pure hstable _
  | constant seed => exact fun s => hR.aside (.of_machine_eq rfl rfl rfl) rfl
  | gate g =>
    refine .bind hstable (.bind hstable (within_gateStatus hR g) fun status => ?_) fun seed => ?_
    · refine .bind hstable (.get hstable) fun s => ?_
      split <;> exact .pure hstable _
    · exact fun s => hR.aside (.of_machine_eq rfl rfl rfl) rfl

theorem within_makeCollections (c set : ClassId) (seeds : SeedSource) :
    Within R (Library.makeCollections c set seeds) := by
  have hstable := hR.stable
  refine .exceptBind hstable (x := Run.act (Library.askSeed seeds)) (within_askSeed hR seeds)
    fun asked => ?_
  refine .exceptBind hstable (.exceptGet hstable) fun s => ?_
  refine .exceptBind hstable (within_archivedOr hR _ _ _ ?_) fun archived => ?_
  · refine .exceptBind hstable (within_makeArray hR _) fun emptyList => ?_
    exact .exceptBind hstable (within_newSet hR set _) fun emptySet => within_makeArray hR _
  · refine .exceptBind hstable (within_elementOf hR _ _) fun list => ?_
    exact .exceptBind hstable (within_elementOf hR _ _) fun set => within_setAllStatics hR c _

theorem within_makeLocales (c locale : ClassId) :
    Within R (Library.makeLocales c locale) := by
  have hstable := hR.stable
  refine .exceptBind hstable (within_archivedOr hR _ _ _ ?_) fun archived => ?_
  · refine .exceptBind hstable (.mapM hstable fun p => ?_) fun locales =>
      within_makeArray hR locales
    exact .exceptBind hstable (within_make hR locale _) fun o => .exceptPure hstable _
  · refine .exceptBind hstable (.mapM hstable fun p => ?_) fun statics =>
      within_setAllStatics hR c _
    exact .exceptBind hstable (within_elementOf hR _ _) fun v => .exceptPure hstable _

end Code

/-! ### Questions to the archive -/

theorem machine_isUsing (g : GraphId) (s : Session) : (isUsing g s).2.machine = s.machine :=
  machine_gateStatus (s.graphAt g).gate s

theorem calm_isUsing (g : GraphId) : Within Calm (isUsing g) := by
  have hstable := stable_calm
  refine .bind hstable (.get hstable) fun s => ?_
  exact .bind hstable (calm_gateStatus _) fun status => .pure hstable _

theorem machine_archivedSubgraph (g : GraphId) (name : Text) (s : Session) :
    (archivedSubgraph g name s).2.machine = s.machine := by
  rw [archivedSubgraph, exceptBind_apply (exceptGet_apply s)]
  cases (s.gateAt (s.graphAt g).gate).boot with
  | none => rfl
  | some b =>
    simp only
    cases (s.bootAt b).subgraph name <;> rfl

/-- **Asking a bootstrap for a record.** -/
theorem calm_archivedSubgraph (g : GraphId) (name : Text) :
    Within Calm (archivedSubgraph g name) := by
  intro s
  rw [archivedSubgraph, exceptBind_apply (exceptGet_apply s)]
  cases (s.gateAt (s.graphAt g).gate).boot with
  | none => exact stable_calm.refl s
  | some b =>
    have hasked : s.Calm (s.updateBoot b Bootstrap.afterSubgraph) :=
      calm_updateBoot s b subgraph_afterSubgraph
    simp only
    cases (s.bootAt b).subgraph name with
    | ok record => exact hasked
    | error fault => exact hasked

theorem within_isUsing {R : Session → Session → Prop} (hR : Piecewise R) (g : GraphId) :
    Within R (isUsing g) := fun s =>
  hR.aside (calm_isUsing g s) (machine_isUsing g s)

theorem within_archivedSubgraph {R : Session → Session → Prop} (hR : Piecewise R) (g : GraphId)
    (name : Text) : Within R (archivedSubgraph g name) := fun s =>
  hR.aside (calm_archivedSubgraph g name s) (machine_archivedSubgraph g name s)

/-! ### Assignments and outcomes -/

/-- **Committing a restoration** fails without a change, or puts the objects at the end of the heap,
assigns statics and notes it. -/
theorem commit_cases (g : GraphId) (c : ClassId) (objects : List Object)
    (values : List (Text × Value)) (s : Session) :
    (∃ fault, commit g c objects values s = (.error fault, s)) ∨
      ∃ m, s.machine.Calm m ∧ m.objects = s.machine.objects ++ objects.toArray ∧
        commit g c objects values s
          = (.ok (), (s.withMachine m).note (.assigned g c (classStates m objects))) := by
  rw [commit, exceptBind_apply (exceptGet_apply s)]
  cases hset : (s.machine.withObjects objects).setAllStatics c values with
  | error fault =>
    refine .inl ⟨fault, ?_⟩
    rw [Machine.withObjects] at hset
    simp only [hset]
    rfl
  | ok m =>
    have hcalm := (s.machine.calm_withObjects objects).trans
      (Machine.piece_setAllStatics hset).calm
    refine .inr ⟨m, hcalm, Machine.objects_setAllStatics hset, ?_⟩
    rw [Machine.withObjects] at hset
    simp only [hset]
    rfl

/-- Committing a restoration is made of pieces and of a note. -/
theorem within_commit {R : Session → Session → Prop} (hR : Piecewise R) {g : GraphId} {c : ClassId}
    (hnote : ∀ s built, R s (s.note (.assigned g c built))) (objects : List Object)
    (values : List (Text × Value)) : Within R (commit g c objects values) := by
  intro s
  rw [commit, exceptBind_apply (exceptGet_apply s)]
  cases hset : (s.machine.withObjects objects).setAllStatics c values with
  | error fault =>
    rw [Machine.withObjects] at hset
    simp only [hset]
    exact hR.stable.refl s
  | ok m =>
    have hplaced : R s (s.withMachine (s.machine.withObjects objects)) := hR.piece (.placed objects)
    have hassigned : R (s.withMachine (s.machine.withObjects objects)) (s.withMachine m) :=
      hR.piece (s := s.withMachine _) (Machine.piece_setAllStatics hset)
    rw [Machine.withObjects] at hset
    simp only [hset]
    exact hR.stable.trans (hR.stable.trans hplaced hassigned) (hnote _ _)

/-- **Recording an outcome** changes nothing if one is recorded. -/
theorem recordOutcome_cases (g : GraphId) (name : Text) (outcome : Outcome) (s : Session) :
    (∃ earlier, (s.graphAt g).results.get? name = some earlier ∧
        recordOutcome g name outcome s = (earlier, s)) ∨
      (s.graphAt g).results.get? name = none ∧
        recordOutcome g name outcome s = (outcome, s.withOutcome g name outcome) := by
  rw [recordOutcome]
  cases (s.graphAt g).results.get? name with
  | some earlier => exact .inl ⟨earlier, rfl, rfl⟩
  | none => exact .inr ⟨rfl, rfl⟩

theorem within_recordOutcome {R : Session → Session → Prop} (hR : Stable R) {g : GraphId}
    {name : Text} {outcome : Outcome} (h : ∀ s, R s (s.withOutcome g name outcome)) :
    Within R (recordOutcome g name outcome) := by
  intro s
  rcases recordOutcome_cases g name outcome s with ⟨earlier, -, heq⟩ | ⟨-, heq⟩
  · rw [heq]
    exact hR.refl s
  · rw [heq]
    exact h s

theorem evolves_withOutcome (s : Session) (g : GraphId) (name : Text) (outcome : Outcome) :
    s.Evolves (s.withOutcome g name outcome) := by
  refine ⟨.refl s.machine, rfl, rfl, rfl, Array.size_modify, fun other => ?_, rfl, fun _ => rfl,
    fun _ _ h => h, fun _ _ => rfl⟩
  rw [withOutcome]
  refine (congrArg Graph.gate (graphAt_updateGraph s g other _)).trans ?_
  split <;> rfl

end Session

end ClassSharing
