import ClassSharing.Proofs.Session.Frame

/-!
# Regimes

Initializing a class runs code that requests classes in turn, and the way in which it does so is a
parameter of the code. So whatever is to be proved of requests is assumed of the requests inside,
and has to be carried through scripts, library initializers and restorations. A *regime* is what is
carried: where operations start, which classes they request, and how they may change the session.
Calm code is allowed in every regime, piece by piece.

Two ways of requesting classes are compared at the same time. If they are *alike*, so that they do
the same wherever the regime holds, then so is all code over the one and over the other. With one
way of requesting in both places this is a statement about what the code keeps.

## Main definitions

* `Regime`, `Regime.Alike`
* `Regime.Indifferent`: a regime that allows restorations and their outcomes
* `Regime.everywhere`: the regime of all sessions, in which a relation is allowed
* `Session.Universal`: a relation that holds of whatever happens in a session

## Main results

* `Regime.alike_performAll`, `Regime.alike_runBody`: scripts and library initializers
* `Regime.alike_prepareClasses`, `Regime.alike_askRestore`: restorations
* `Regime.alike_runInitializer`: the initialization of a class
* `Session.Universal.request`, `Session.Universal.askRestore`: requests and restorations
* `Session.within_requestWithin`, `Session.within_request`: a request lets the session evolve
-/

namespace ClassSharing

open Session

/-- What is proved of operations: they start where the regime holds, request only classes that it
admits, and change the session only as it allows. -/
structure Regime where
  Holds : Session → Prop
  Admits : ClassId → Prop
  Allows : Session → Session → Prop
  code : Piecewise Allows
  keeps : ∀ {s s'}, Holds s → Allows s s' → Holds s'
  lookup : ∀ {s name c}, Holds s → s.machine.lookup name = some c → Admits c
  superclass : ∀ {s c parent}, Holds s → (s.machine.classAt c).superclass = some parent →
    Admits parent
  collections : ∀ {s c descriptor set collections}, Holds s →
    (s.machine.classAt c).initializer = .moduleGraph descriptor set collections →
    Admits collections

namespace Regime

theorem stable (ρ : Regime) : Stable ρ.Allows := ρ.code.stable

/-- Two operations do the same in a session, and the regime allows it. -/
structure AlikeAt (ρ : Regime) (s : Session) {α : Type} (x y : Session → α × Session) : Prop where
  eq : x s = y s
  allows : ρ.Allows s (y s).2

/-- Two operations do the same wherever the regime holds, and the regime allows it. -/
def Alike (ρ : Regime) {α : Type} (x y : Session → α × Session) : Prop :=
  ∀ s, ρ.Holds s → ρ.AlikeAt s x y

variable {ρ : Regime} {s : Session} {ε α β : Type}

theorem alikeAt_iff {x y : Session → α × Session} :
    ρ.AlikeAt s x y ↔ x s = y s ∧ ρ.Allows s (y s).2 :=
  ⟨fun h => ⟨h.eq, h.allows⟩, fun h => ⟨h.1, h.2⟩⟩

/-! ### Composition -/

theorem AlikeAt.holds {x y : Session → α × Session} (h : ρ.AlikeAt s x y) (hs : ρ.Holds s) :
    ρ.Holds (y s).2 :=
  ρ.keeps hs h.allows

theorem Alike.of_within {x : Session → α × Session} (h : Within ρ.Allows x) : ρ.Alike x x :=
  fun s _ => ⟨rfl, h s⟩

theorem AlikeAt.bind {x y : Act α} {f g : α → Act β} (hx : ρ.AlikeAt s x y)
    (hf : ρ.AlikeAt (y s).2 (f (y s).1) (g (y s).1)) : ρ.AlikeAt s (x >>= f) (y >>= g) where
  eq := by rw [bind_apply, bind_apply, hx.eq, hf.eq]
  allows := ρ.stable.trans hx.allows hf.allows

/-- **One operation after another.** -/
theorem Alike.bind {x y : Act α} {f g : α → Act β} (hx : ρ.Alike x y)
    (hf : ∀ a, ρ.Alike (f a) (g a)) : ρ.Alike (x >>= f) (y >>= g) :=
  fun s hs => (hx s hs).bind (hf _ _ ((hx s hs).holds hs))

/-- The second operations have to be alike only where the first ones leave off. -/
theorem AlikeAt.exceptBind {x y : ExceptT ε (StateM Session) α}
    {f g : α → ExceptT ε (StateM Session) β} (hx : ρ.AlikeAt s x y)
    (hf : ∀ a s', y s = (.ok a, s') → ρ.AlikeAt s' (f a) (g a)) :
    ρ.AlikeAt s (x >>= f) (y >>= g) := by
  have hallows := hx.allows
  rcases hy : y s with ⟨answer, s'⟩
  have hxs : x s = (answer, s') := hx.eq.trans hy
  rw [hy] at hallows
  cases answer with
  | error e =>
    refine ⟨by rw [exceptBind_apply_error hxs, exceptBind_apply_error hy], ?_⟩
    rw [exceptBind_apply_error hy]
    exact hallows
  | ok a =>
    refine ⟨by rw [exceptBind_apply hxs, exceptBind_apply hy, (hf a s' hy).eq], ?_⟩
    rw [exceptBind_apply hy]
    exact ρ.stable.trans hallows (hf a s' hy).allows

/-- **One operation after another, up to the first failure.** -/
theorem Alike.exceptBind {x y : ExceptT ε (StateM Session) α}
    {f g : α → ExceptT ε (StateM Session) β} (hx : ρ.Alike x y)
    (hf : ∀ a, ρ.Alike (f a) (g a)) : ρ.Alike (x >>= f) (y >>= g) := by
  intro s hs
  refine (hx s hs).exceptBind fun a s' hy => hf a s' ?_
  have hthen := (hx s hs).holds hs
  rw [hy] at hthen
  exact hthen

/-- An operation that cannot fail among operations that can. -/
theorem Alike.lift {x y : Act α} (h : ρ.Alike x y) :
    ρ.Alike (ExceptT.lift x : ExceptT ε (StateM Session) α) (ExceptT.lift y) := by
  intro s hs
  refine ⟨?_, (h s hs).allows⟩
  rw [lift_apply, lift_apply, (h s hs).eq]

/-- An operation that looks at the session first. -/
theorem Alike.get_bind {f g : Session → Act α} (h : ∀ s, ρ.Holds s → ρ.AlikeAt s (f s) (g s)) :
    ρ.Alike (get >>= f) (get >>= g) :=
  fun s hs => ⟨(h s hs).eq, (h s hs).allows⟩

/-- An operation that looks at the session first and can fail. -/
theorem Alike.exceptGet_bind {f g : Session → ExceptT ε (StateM Session) α}
    (h : ∀ s, ρ.Holds s → ρ.AlikeAt s (f s) (g s)) : ρ.Alike (get >>= f) (get >>= g) :=
  fun s hs => ⟨(h s hs).eq, (h s hs).allows⟩

theorem Alike.tryCatch {x y : ExceptT ε (StateM Session) α}
    {handler : ε → ExceptT ε (StateM Session) α} (hx : ρ.Alike x y)
    (hhandler : ∀ e, ρ.Alike (handler e) (handler e)) :
    ρ.Alike (ExceptT.tryCatch x handler) (ExceptT.tryCatch y handler) := by
  refine Alike.bind (x := x) (y := y) hx fun answer => ?_
  cases answer with
  | error e => exact hhandler e
  | ok a => exact .of_within (.exceptPure ρ.stable a)

theorem Alike.mapM {f g : α → ExceptT ε (StateM Session) β} (xs : List α)
    (hf : ∀ a, ρ.Alike (f a) (g a)) : ρ.Alike (xs.mapM f) (xs.mapM g) := by
  induction xs with
  | nil => exact .of_within (.exceptPure ρ.stable [])
  | cons x xs ih =>
    rw [List.mapM_cons, List.mapM_cons]
    refine (hf x).exceptBind fun y => ih.exceptBind fun ys => ?_
    exact .of_within (.exceptPure ρ.stable (y :: ys))

/-! ### Scripts -/

section Code

variable {r r' : Requester} {c : ClassId} {initializer : Initializer}

theorem alike_requestNamed (hrequest : ∀ c, ρ.Admits c → ρ.Alike (r c) (r' c)) (name : Text) :
    ρ.Alike (requestNamed r name) (requestNamed r' name) := by
  refine .get_bind fun s hs => ?_
  cases hlookup : s.machine.lookup name with
  | none => exact Alike.of_within (.pure ρ.stable _) s hs
  | some k => exact hrequest k (ρ.lookup hs hlookup) s hs

theorem eq_of_orPanic_classNamed {s s' : Session} {name : Text} {k : ClassId}
    (h : orPanic (s.classNamed name) s = (.ok k, s')) :
    s.machine.lookup name = some k ∧ s' = s := by
  rw [classNamed] at h
  cases hlookup : s.machine.lookup name with
  | none =>
    rw [hlookup] at h
    cases (Prod.mk.inj h).1
  | some k =>
    rw [hlookup] at h
    obtain ⟨hk, rfl⟩ := Prod.mk.inj h
    obtain rfl := Except.ok.inj hk
    exact ⟨rfl, rfl⟩

/-- **One action of a script.** -/
theorem alike_perform (hrequest : ∀ c, ρ.Admits c → ρ.Alike (r c) (r' c))
    (hask : ∀ g c, ρ.Admits c → ρ.Alike (askRestore r g c) (askRestore r' g c)) (c : ClassId)
    (action : Action) : ρ.Alike (perform r c action) (perform r' c action) := by
  have hstable := ρ.stable
  by_cases hcalm : isCalm action = true
  · rw [perform_eq_of_isCalm hcalm r r' c]
    exact .of_within (within_perform ρ.code hcalm r' c)
  cases action with
  | request name =>
    exact (alike_requestNamed hrequest name).lift.exceptBind fun answer =>
      .of_within (within_ofFault hstable answer)
  | tryRequest name =>
    refine (alike_requestNamed hrequest name).lift.exceptBind fun answer => ?_
    cases answer with
    | error fault => exact .of_within (within_traceLine ρ.code _)
    | ok _ => exact .of_within (within_traceLine ρ.code _)
  | restore g name =>
    refine .exceptGet_bind fun s hs => ?_
    have hnamed := Alike.of_within (ρ := ρ) (within_orPanic hstable (s.classNamed name)) s hs
    refine hnamed.exceptBind fun k s' hk => ?_
    obtain ⟨hlookup, rfl⟩ := eq_of_orPanic_classNamed hk
    exact (hask g k (ρ.lookup hs hlookup)).lift.exceptBind
      (fun outcome => .of_within (within_traceLine ρ.code _)) s' hs
  | _ => exact absurd rfl hcalm

theorem alike_performAll (hrequest : ∀ c, ρ.Admits c → ρ.Alike (r c) (r' c))
    (hask : ∀ g c, ρ.Admits c → ρ.Alike (askRestore r g c) (askRestore r' g c)) (c : ClassId)
    (actions : List Action) : ρ.Alike (performAll r c actions) (performAll r' c actions) := by
  induction actions with
  | nil => exact .of_within (.exceptPure ρ.stable ())
  | cons action rest ih => exact (alike_perform hrequest hask c action).exceptBind fun _ => ih

/-! ### Library initializers -/

theorem alike_archivedOr (c : ClassId) (name : Text) (size : Nat) {compute compute' : Run ObjectId}
    (h : ρ.Alike compute compute') :
    ρ.Alike (Library.archivedOr c name size compute) (Library.archivedOr c name size compute') := by
  refine Alike.exceptBind (.of_within (within_machine ρ.stable)) fun m => ?_
  split
  · exact .of_within (.exceptPure ρ.stable _)
  · refine h.exceptBind fun o => .of_within ?_
    exact .exceptBind ρ.stable (within_setStatic ρ.code c name (.obj o)) fun _ =>
      .exceptPure ρ.stable _

theorem alike_setOf (hrequest : ∀ c, ρ.Admits c → ρ.Alike (r c) (r' c)) {collections : ClassId}
    (hcollections : ρ.Admits collections) (set : ClassId) (elements : List Value) :
    ρ.Alike (Library.setOf r set collections elements)
      (Library.setOf r' set collections elements) := by
  have hstable := ρ.stable
  rw [Library.setOf, Library.setOf]
  split
  · refine ((hrequest collections hcollections).lift.exceptBind fun answer =>
      .of_within (within_ofFault hstable answer)).exceptBind fun _ => .of_within ?_
    exact .exceptBind hstable (within_machine hstable) fun m => .exceptPure hstable _
  · refine .of_within ?_
    exact .exceptBind hstable (within_newSet ρ.code set elements) fun o => .exceptPure hstable _

theorem alike_describeModule (hrequest : ∀ c, ρ.Admits c → ρ.Alike (r c) (r' c))
    {collections : ClassId} (hcollections : ρ.Admits collections) (descriptor set : ClassId)
    (spec : ModuleSpec) :
    ρ.Alike (Library.describeModule r descriptor set collections spec)
      (Library.describeModule r' descriptor set collections spec) := by
  have hstable := ρ.stable
  refine Alike.exceptBind (Alike.tryCatch (alike_setOf hrequest hcollections set _) fun e => ?_)
    fun packages => .of_within ?_
  · cases e <;> exact .of_within (.throw hstable _)
  · exact .exceptBind hstable (within_make ρ.code descriptor _) fun o => .exceptPure hstable _

theorem alike_resolveModuleGraph (hrequest : ∀ c, ρ.Admits c → ρ.Alike (r c) (r' c))
    {collections : ClassId} (hcollections : ρ.Admits collections) (c descriptor set : ClassId) :
    ρ.Alike (Library.resolveModuleGraph r c descriptor set collections)
      (Library.resolveModuleGraph r' c descriptor set collections) := by
  refine .exceptGet_bind fun s hs => ?_
  refine Alike.exceptBind (alike_archivedOr c _ _ ?_)
    (fun graph => .of_within (within_setStatic ρ.code c _ graph)) s hs
  refine Alike.exceptBind (.mapM _ fun spec => ?_) fun values =>
    .of_within (within_makeArray ρ.code values)
  exact alike_describeModule hrequest hcollections descriptor set spec

/-- **The static initializer of a class.** -/
theorem alike_runBody (hrequest : ∀ c, ρ.Admits c → ρ.Alike (r c) (r' c))
    (hask : ∀ g c, ρ.Admits c → ρ.Alike (askRestore r g c) (askRestore r' g c))
    (hs : ρ.Holds s) (hinitializer : (s.machine.classAt c).initializer = initializer) :
    ρ.Alike (runBody r c initializer) (runBody r' c initializer) := by
  cases initializer with
  | none => exact .of_within (.exceptPure ρ.stable ())
  | script actions => exact alike_performAll hrequest hask c actions
  | integerCache integer => exact .of_within (within_fillIntegerCache ρ.code c integer)
  | collections set seeds => exact .of_within (within_makeCollections ρ.code c set seeds)
  | moduleGraph descriptor set collections =>
    exact alike_resolveModuleGraph hrequest (ρ.collections hs hinitializer) c descriptor set
  | localeCache locale => exact .of_within (within_makeLocales ρ.code c locale)

/-! ### Restorations -/

theorem alike_prepareClasses (hrequest : ∀ c, ρ.Admits c → ρ.Alike (r c) (r' c))
    (allowed : Table ClassId) (names : List Text) :
    ρ.Alike (prepareClasses r allowed names) (prepareClasses r' allowed names) := by
  induction names generalizing allowed with
  | nil => exact .of_within (.exceptPure ρ.stable allowed)
  | cons name rest ih =>
    refine .exceptGet_bind fun s hs => ?_
    cases hlookup : s.machine.lookup name with
    | none => exact Alike.of_within (.throw ρ.stable _) s hs
    | some k =>
      refine (hrequest k (ρ.lookup hs hlookup)).lift.exceptBind (fun answer => ?_) s hs
      cases answer with
      | error fault => exact .of_within (.throw ρ.stable _)
      | ok _ => exact ih (allowed.insert name k)

/-- A regime that allows restorations to assign statics and to record outcomes. -/
structure Indifferent (ρ : Regime) : Prop where
  asked : ∀ s g c, ρ.Allows s (s.note (.asked g c))
  commit : ∀ g c objects values, Within ρ.Allows (commit g c objects values)
  record : ∀ g name outcome, Within ρ.Allows (recordOutcome g name outcome)

theorem alike_restore (hρ : ρ.Indifferent)
    (hrequest : ∀ c, ρ.Admits c → ρ.Alike (r c) (r' c)) (g : GraphId) (c : ClassId) :
    ρ.Alike (restore r g c) (restore r' g c) := by
  refine .exceptGet_bind fun s hs => ?_
  refine Alike.exceptBind (.of_within (within_archivedSubgraph ρ.code g _)) (fun record => ?_) s hs
  refine .exceptGet_bind fun s hs => ?_
  cases checkRecord s.machine c record with
  | error fault => exact Alike.of_within (.throw ρ.stable _) s hs
  | ok r =>
    refine Alike.exceptBind (alike_prepareClasses hrequest _ _) (fun allowed => ?_) s hs
    refine .exceptGet_bind fun s hs => ?_
    cases r.materialize s.machine allowed with
    | error fault => exact Alike.of_within (.throw ρ.stable _) s hs
    | ok made => exact ⟨rfl, hρ.commit g c made.1 made.2 s⟩

theorem alike_tryRestore (hρ : ρ.Indifferent)
    (hrequest : ∀ c, ρ.Admits c → ρ.Alike (r c) (r' c)) (g : GraphId) (c : ClassId) :
    ρ.Alike (tryRestore r g c) (tryRestore r' g c) := by
  refine Alike.bind (.of_within (within_isUsing ρ.code g)) fun inUse => ?_
  split
  · refine .get_bind fun s hs => ?_
    simp only
    split
    · exact Alike.of_within (.pure ρ.stable _) s hs
    · refine Alike.bind (x := (restore r g c).run) (y := (restore r' g c).run)
        (alike_restore hρ hrequest g c) (fun answer => ?_) s hs
      cases answer with
      | ok _ => exact fun s _ => ⟨rfl, hρ.record g _ .restored s⟩
      | error fault => exact fun s _ => ⟨rfl, hρ.record g _ .skipped s⟩
  · exact .of_within (.pure ρ.stable _)

/-- **A restoration that someone asks for.** -/
theorem alike_askRestore (hρ : ρ.Indifferent)
    (hrequest : ∀ c, ρ.Admits c → ρ.Alike (r c) (r' c)) (g : GraphId) (c : ClassId) :
    ρ.Alike (askRestore r g c) (askRestore r' g c) :=
  Alike.bind (fun s _ => ⟨rfl, hρ.asked s g c⟩) fun _ => alike_tryRestore hρ hrequest g c

/-! ### Initialization -/

theorem alike_requestSuperclass (hrequest : ∀ c, ρ.Admits c → ρ.Alike (r c) (r' c))
    (c : ClassId) : ρ.Alike (requestSuperclass r c) (requestSuperclass r' c) := by
  refine .get_bind fun s hs => ?_
  simp only
  cases hsuper : (s.machine.classAt c).superclass with
  | none => exact Alike.of_within (.pure ρ.stable _) s hs
  | some parent =>
    refine (hrequest parent (ρ.superclass hs hsuper)).bind (fun answer => ?_) s hs
    cases answer <;> exact .of_within (.pure ρ.stable _)

theorem alike_consultHook (hρ : ρ.Indifferent) (hnote : ∀ s e, ρ.Allows s (s.note e))
    (hrequest : ∀ c, ρ.Admits c → ρ.Alike (r c) (r' c)) (c : ClassId) :
    ρ.Alike (consultHook r c) (consultHook r' c) := by
  refine .get_bind fun s hs => ?_
  cases s.hook with
  | none => exact Alike.of_within (.pure ρ.stable _) s hs
  | some g =>
    refine Alike.bind (.of_within (within_isUsing ρ.code g)) (fun inUse => ?_) s hs
    split
    · refine Alike.bind (fun s _ => ⟨rfl, hnote s _⟩) fun _ => ?_
      exact (alike_tryRestore hρ hrequest g c).bind fun _ s _ => ⟨rfl, hnote s _⟩
    · exact .of_within (.pure ρ.stable _)

theorem alike_enterInitializer (hentered : ∀ s, ρ.Allows s (s.note (.entered c)))
    (hrequest : ∀ c, ρ.Admits c → ρ.Alike (r c) (r' c))
    (hask : ∀ g c, ρ.Admits c → ρ.Alike (askRestore r g c) (askRestore r' g c)) :
    ρ.Alike (enterInitializer r c) (enterInitializer r' c) := by
  refine .get_bind fun s hs => ?_
  have hbody : ρ.Alike (runBody r c (s.machine.classAt c).initializer)
      (runBody r' c (s.machine.classAt c).initializer) := alike_runBody hrequest hask hs rfl
  simp only
  generalize (s.machine.classAt c).initializer = initializer at hbody
  cases initializer with
  | none => exact Alike.of_within (.pure ρ.stable _) s hs
  | _ =>
    refine Alike.bind (fun s _ => ⟨rfl, hentered s⟩) (fun _ => ?_) s hs
    refine Alike.bind (x := (runBody r c _).run) (y := (runBody r' c _).run) hbody fun answer => ?_
    split <;> exact .of_within (.pure ρ.stable _)

/-- **The initialization of a class** is made of requests, of consulting the archive and of the
initializer. -/
theorem alike_runInitializer (hconsult : ρ.Alike (consultHook r c) (consultHook r' c))
    (hentered : ∀ s, ρ.Allows s (s.note (.entered c)))
    (hrequest : ∀ c, ρ.Admits c → ρ.Alike (r c) (r' c))
    (hask : ∀ g c, ρ.Admits c → ρ.Alike (askRestore r g c) (askRestore r' g c)) :
    ρ.Alike (runInitializer r c) (runInitializer r' c) := by
  refine (alike_requestSuperclass hrequest c).bind fun answer => ?_
  cases answer with
  | error fault => exact .of_within (.pure ρ.stable _)
  | ok _ => exact hconsult.bind fun _ => alike_enterInitializer hentered hrequest hask

/-- A regime that allows restorations allows the initialization of a class, if everything may be
noted. -/
theorem Indifferent.alike_runInitializer (hρ : ρ.Indifferent)
    (hnote : ∀ s e, ρ.Allows s (s.note e)) (hrequest : ∀ c, ρ.Admits c → ρ.Alike (r c) (r' c))
    (c : ClassId) : ρ.Alike (runInitializer r c) (runInitializer r' c) :=
  Regime.alike_runInitializer (alike_consultHook hρ hnote hrequest c) (fun s => hnote s _) hrequest
    fun g k _ => alike_askRestore hρ hrequest g k

end Code

/-! ### Regimes without conditions -/

/-- The regime of all sessions, in which a relation is allowed. -/
def everywhere {R : Session → Session → Prop} (hR : Piecewise R) : Regime where
  Holds _ := True
  Admits _ := True
  Allows := R
  code := hR
  keeps _ _ := trivial
  lookup _ _ := trivial
  superclass _ _ := trivial
  collections _ _ := trivial

end Regime

namespace Session

section Requests

variable {request : Requester}

/-! ### One request -/

section Step

variable {s s₁ : Session} {c : ClassId}

theorem requestStep_of_ready (h : s.machine.stateOf c = .ready) :
    requestStep request c s = (.ok (), s.note (.granted c)) := by
  rw [requestStep, bind_apply, get_apply]
  simp only [h]
  rfl

theorem requestStep_of_running (h : s.machine.stateOf c = .running) :
    requestStep request c s = (.ok (), s.note (.granted c)) := by
  rw [requestStep, bind_apply, get_apply]
  simp only [h]
  rfl

theorem requestStep_of_erroneous {cause : Fault} (h : s.machine.stateOf c = .erroneous cause) :
    requestStep request c s = (.error (.erroneousClass (s.machine.className c) cause), s) := by
  rw [requestStep, bind_apply, get_apply]
  simp only [h]
  rfl

theorem requestStep_of_uninitialized (h : s.machine.stateOf c = .uninitialized) :
    requestStep request c s
      = ((runInitializer request c (s.begin c)).1,
        (runInitializer request c (s.begin c)).2.finish c
          (runInitializer request c (s.begin c)).1) := by
  rw [requestStep, bind_apply, get_apply]
  simp only [h]
  rfl

/-- The initialization of a class after its superclass has been granted. -/
theorem runInitializer_eq (h : requestSuperclass request c s = (.ok (), s₁)) :
    runInitializer request c s = enterInitializer request c (consultHook request c s₁).2 := by
  rw [runInitializer, bind_apply, h]
  rfl

theorem runInitializer_of_error {fault : Fault}
    (h : requestSuperclass request c s = (.error fault, s₁)) :
    runInitializer request c s = (.error fault, s₁) := by
  rw [runInitializer, bind_apply, h]
  rfl

theorem requestSuperclass_of_none (h : (s.machine.classAt c).superclass = none) :
    requestSuperclass request c s = (.ok (), s) := by
  rw [requestSuperclass, bind_apply, get_apply]
  simp only [h]
  rfl

theorem requestSuperclass_eq {parent : ClassId}
    (hsuper : (s.machine.classAt c).superclass = some parent) :
    requestSuperclass request c s
      = ((request parent s).1.mapError (.within (.superclassOf (s.machine.className c))),
        (request parent s).2) := by
  rw [requestSuperclass, bind_apply, get_apply]
  simp only [hsuper]
  rw [bind_apply]
  cases (request parent s).1 <;> rfl

theorem requestSuperclass_of_some {parent : ClassId}
    (hsuper : (s.machine.classAt c).superclass = some parent)
    (h : request parent s = (.ok (), s₁)) : requestSuperclass request c s = (.ok (), s₁) := by
  rw [requestSuperclass_eq hsuper, h]
  rfl

theorem enterInitializer_of_none (h : (s.machine.classAt c).initializer = .none) :
    enterInitializer request c s = (.ok (), s) := by
  rw [enterInitializer, bind_apply, get_apply]
  simp only [h]
  rfl

/-- An initializer that there is. -/
theorem enterInitializer_snd (h : (s.machine.classAt c).initializer ≠ .none) :
    (enterInitializer request c s).2
      = (runBody request c (s.machine.classAt c).initializer (s.note (.entered c))).2 := by
  have hnote : (modify fun s => s.note (.entered c) : Act Unit) s = ((), s.note (.entered c)) := rfl
  rw [enterInitializer, bind_apply, get_apply]
  simp only
  generalize (s.machine.classAt c).initializer = initializer at h
  cases initializer with
  | none => exact absurd rfl h
  | _ =>
    rw [bind_apply, hnote, bind_apply, ExceptT.run]
    generalize runBody request c _ (s.note (.entered c)) = answered
    rcases answered with ⟨(fault | p) | _, s'⟩ <;> rfl

theorem consultHook_of_none (h : s.hook = none) : consultHook request c s = ((), s) := by
  rw [consultHook, bind_apply, get_apply]
  simp only [h]
  rfl

/-- Consulting a graph. -/
theorem consultHook_of_some {g : GraphId} (h : s.hook = some g) :
    consultHook request c s
      = if (isUsing g s).1 then
          ((), (tryRestore request g c ((isUsing g s).2.note (.consulting c))).2.note
            (.consulted c))
        else ((), (isUsing g s).2) := by
  rw [consultHook, bind_apply, get_apply]
  simp only [h]
  rw [bind_apply]
  split <;> rfl

end Step

end Requests

/-! ### Relations that hold of every request -/

/-- A relation that holds of whatever happens in a session: of calm code piece by piece, of what is
noted, of classes that move, and of outcomes that are recorded. -/
structure Universal (R : Session → Session → Prop) : Prop where
  code : Piecewise R
  note : ∀ s e, R s (s.note e)
  move : ∀ s c state, R s (s.move c state)
  outcome : ∀ s g name outcome, R s (s.withOutcome g name outcome)

section Universal

variable {R : Session → Session → Prop} {r : Requester}

theorem Universal.indifferent (hR : Universal R) : (Regime.everywhere hR.code).Indifferent where
  asked s g c := hR.note s (.asked g c)
  commit g c := within_commit hR.code fun s built => hR.note s (.assigned g c built)
  record g name outcome := within_recordOutcome hR.code.stable fun s => hR.outcome s g name outcome

theorem within_of_alike_everywhere {α : Type} {x : Session → α × Session} (hR : Universal R)
    (h : (Regime.everywhere hR.code).Alike x x) : Within R x :=
  fun s => (h s trivial).allows

theorem Universal.runInitializer (hR : Universal R) (hrequest : ∀ c, Within R (r c))
    (c : ClassId) : Within R (Session.runInitializer r c) :=
  within_of_alike_everywhere hR (hR.indifferent.alike_runInitializer hR.note
    (fun k _ => .of_within (hrequest k)) c)

theorem Universal.consultHook (hR : Universal R) (hrequest : ∀ c, Within R (r c))
    (c : ClassId) : Within R (Session.consultHook r c) :=
  within_of_alike_everywhere hR (Regime.alike_consultHook hR.indifferent hR.note
    (fun k _ => .of_within (hrequest k)) c)

theorem Universal.prepareClasses (hR : Universal R) (hrequest : ∀ c, Within R (r c))
    (allowed : Table ClassId) (names : List Text) :
    Within R (Session.prepareClasses r allowed names) :=
  within_of_alike_everywhere hR (Regime.alike_prepareClasses
    (fun k _ => .of_within (hrequest k)) allowed names)

theorem Universal.askRestore (hR : Universal R) (hrequest : ∀ c, Within R (r c))
    (g : GraphId) (c : ClassId) : Within R (Session.askRestore r g c) :=
  within_of_alike_everywhere hR (Regime.alike_askRestore hR.indifferent
    (fun k _ => .of_within (hrequest k)) g c)

/-- **It holds of one request, if it holds of the requests inside.** -/
theorem Universal.requestStep (hR : Universal R) (hrequest : ∀ c, Within R (r c))
    (c : ClassId) : Within R (Session.requestStep r c) := by
  have hstable := hR.code.stable
  refine .bind hstable (.get hstable) fun s => ?_
  split
  · exact fun s => hR.note s _
  · exact fun s => hR.note s _
  · exact .pure hstable _
  · refine .bind hstable (fun s => hR.move s c .running) fun _ => ?_
    refine .bind hstable (hR.runInitializer hrequest c) fun answer => ?_
    refine .bind hstable (fun s => ?_) fun _ => .pure hstable _
    cases answer with
    | ok _ => exact hstable.trans (hR.move s c .ready) (hR.note _ _)
    | error fault => exact hR.move s c (.erroneous fault)

/-- **A request within a bound on the depth.** -/
theorem Universal.requestWithin (hR : Universal R) (depth : Nat) (c : ClassId) :
    Within R (Session.requestWithin depth c) := by
  induction depth generalizing c with
  | zero => exact hR.requestStep (fun _ => .pure hR.code.stable _) c
  | succ depth ih => exact hR.requestStep ih c

theorem Universal.request (hR : Universal R) (c : ClassId) : Within R (request c) :=
  fun s => hR.requestWithin s.machine.uninitializedCount c s

end Universal

/-! ### Requests evolve the session -/

theorem universal_evolves : Universal Evolves where
  code := .of_calm stable_evolves fun h => h.evolves
  note := evolves_note
  move := evolves_move
  outcome := evolves_withOutcome

theorem within_consultHook {request : Requester}
    (hrequest : ∀ c, Within Evolves (request c)) (c : ClassId) :
    Within Evolves (consultHook request c) :=
  universal_evolves.consultHook hrequest c

theorem within_requestWithin (depth : Nat) (c : ClassId) :
    Within Evolves (requestWithin depth c) :=
  universal_evolves.requestWithin depth c

theorem within_request (c : ClassId) : Within Evolves (Session.request c) :=
  universal_evolves.request c

end Session

end ClassSharing
