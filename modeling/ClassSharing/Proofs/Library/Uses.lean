import ClassSharing.Proofs.Library.Lookups
import ClassSharing.Proofs.Library.Reading

/-!
# Using the library

A program that has the library installed may request its classes in any order and as often as it
likes, look things up, read the module graph, and even change the salt and the direction in which
sets are visited. What it finds never depends on what it did before. Each class with archived state
is either still to be requested, or its outcome is settled: the boxed integers, the empty
collections and the locales are there, and the module graph has been resolved or has been refused
because a module lists a package twice.

The same holds without an archive and with one, and for the same reasons. What differs is how a
class is initialized that nobody has requested. So that is a parameter here: a setting says what
goes with such a class, and that a request for it has the outcome that it should. The rest is common
to all settings: requests for classes that have been requested before, and everything else that a
program does.

## Main definitions

* `Library.Reached`: the states that a program reaches
* `Library.outcomes`: the classes with archived state and their outcomes
* `Library.Setting`: how classes are initialized that nobody has requested
* `Library.Standing`: every class is still to be requested, or its outcome is settled

## Main results

* `Library.Setting.exists_request_modules`, `Library.Setting.exists_request_refused`: requests for
  the module graph
* `Library.Setting.exists_descriptors`: the declared modules are read back
* `Library.Setting.of_reached`: every state that a program reaches is like this
-/

namespace ClassSharing

namespace Library

open Session

/-! ### What programs do -/

/-- Chooses another salt, and another direction in which sets are visited. -/
def resalt (lib : Library) (salt : Int64) (backwards : Bool) : Run Unit :=
  assignAll lib.collections [("salt", .int salt), ("reverse", .bool backwards)]

/-- The states that a program reaches from another one by what it may do with the library. Whether
it succeeds makes no difference. -/
inductive Reached (lib : Library) (s : Session) : Session → Prop where
  | start : Reached lib s s
  | requested {t : Session} {c : ClassId} (h : Reached lib s t) (hc : c ∈ lib.classes) :
    Reached lib s (Session.request c t).2
  | lookedUp {t : Session} (h : Reached lib s t) (l : Lookup) : Reached lib s (l.ask lib t).2
  | described {t : Session} (h : Reached lib s t) : Reached lib s (lib.descriptors t).2
  | resalted {t : Session} (h : Reached lib s t) (salt : Int64) (backwards : Bool) :
    Reached lib s (lib.resalt salt backwards t).2

/-- Requesting classes in order is a way to go on. -/
theorem Reached.requestEach {lib : Library} {classes : List ClassId} {s t : Session}
    (h : Reached lib s t) (hclasses : ∀ c ∈ classes, c ∈ lib.classes) :
    Reached lib s (Library.requestEach classes t).2 := by
  induction classes generalizing t with
  | nil => exact h
  | cons c rest ih =>
    obtain ⟨hc, hrest⟩ := List.forall_mem_cons.1 hclasses
    have hnext := h.requested hc
    cases hanswer : Session.request c t with
    | mk answer t' =>
      rw [hanswer] at hnext
      cases answer with
      | ok _ =>
        rw [requestEach_cons hanswer]
        exact ih hnext hrest
      | error fault =>
        have hfailed : Library.requestEach (c :: rest) t = (.error (.fault fault), t') :=
          exceptBind_apply_error (require_eq_error hanswer)
        rw [hfailed]
        exact hnext

/-! ### Outcomes -/

/-- The outcome of the module graph: it has been resolved, or a module lists a package twice. -/
inductive Resolution (specs : List ModuleSpec) (m : Machine) : Prop where
  | resolved (hspecs : ∀ spec ∈ specs, spec.packages.Nodup)
    (h : Settled .modules (HoldsGraph specs) m) : Resolution specs m
  | refused {spec : ModuleSpec} {fault : Fault} (hspec : spec ∈ specs)
    (hrepeats : Repeats spec fault)
    (h : m.stateOf 7 = .erroneous (.initializerFailed (installed.className 7) fault)) :
    Resolution specs m

/-- The classes with archived state and their outcomes. -/
def outcomes (specs : List ModuleSpec) : List (Holding × (Machine → Prop)) :=
  [(.integers, Settled .integers (HoldsRow 2 boxedRows)), (.collections, Serves),
    (.modules, Resolution specs), (.locales, Settled .locales (HoldsRow 8 localeRows))]

/-- The statics of the collections with another salt. -/
def saltValues (salt : Int64) (backwards : Bool) : List (Text × Value) :=
  [("salt", .int salt), ("reverse", .bool backwards)]

section Outcomes

variable {specs : List ModuleSpec} {p : Holding × (Machine → Prop)} {m m' : Machine}
  {cs : List ClassId}

theorem integers_mem_outcomes :
    (.integers, Settled .integers (HoldsRow 2 boxedRows)) ∈ outcomes specs := by simp [outcomes]

theorem collections_mem_outcomes : (.collections, Serves) ∈ outcomes specs := by simp [outcomes]

theorem modules_mem_outcomes : (.modules, Resolution specs) ∈ outcomes specs := by simp [outcomes]

theorem locales_mem_outcomes :
    (.locales, Settled .locales (HoldsRow 8 localeRows)) ∈ outcomes specs := by simp [outcomes]

theorem fst_mem_of_mem_outcomes (hp : p ∈ outcomes specs) : p.1 ∈ Holding.all := by
  have hfst : (outcomes specs).map Prod.fst = Holding.all := rfl
  exact hfst ▸ List.mem_map_of_mem hp

/-- A class has one outcome. -/
theorem eq_of_mem_outcomes (hp : p ∈ outcomes specs) {q : Holding × (Machine → Prop)}
    (hq : q ∈ outcomes specs) (h : q.1.classId = p.1.classId) : q = p := by
  have hdistinct : ((outcomes specs).map fun q => q.1.classId).Nodup := by
    show [(3 : ClassId), 5, 7, 9].Nodup
    decide
  exact List.inj_on_of_nodup_map hdistinct hq hp h

/-- An outcome stays while other classes are initialized. -/
theorem outcome_of_advances (hp : p ∈ outcomes specs) (hadvances : Machine.Advances cs m m')
    (hcs : p.1.classId ∉ cs) (h : p.2 m) : p.2 m' := by
  simp only [outcomes, List.mem_cons, List.not_mem_nil, or_false] at hp
  rcases hp with rfl | rfl | rfl | rfl
  · exact Settled.of_advances h (content_integers specs) hadvances hcs
  · exact Serves.of_advances h hadvances hcs
  · cases h with
    | resolved hspecs h =>
      exact .resolved hspecs (h.of_advances (content_graph specs) hadvances hcs)
    | refused hspec hrepeats h =>
      refine .refused hspec hrepeats ?_
      rcases hadvances.states 7 hcs with heq | ⟨-, huninitialized, -⟩
      · exact heq.trans h
      · rw [h] at huninitialized
        cases huninitialized
  · exact Settled.of_advances h (content_locales specs) hadvances hcs

theorem static_resalted (h : Fits m) (salt : Int64) (backwards : Bool) (name : Text) :
    (m.assigned 5 (saltValues salt backwards)).static 5 name
      = (Statics.lastIn name (saltValues salt backwards)).getD (m.static 5 name) := by
  have hdeclared : ∀ kv ∈ saltValues salt backwards, (m.classAt 5).statics.has kv.1 = true := by
    simp only [saltValues, List.forall_mem_cons, h.has]
    exact ⟨by decide, by decide, by simp⟩
  exact Machine.static_assigned_of_declared hdeclared name

/-- Another salt leaves the collections where they are. -/
theorem Serves.resalted (h : Serves m) (hfits : Fits m) (salt : Int64) (backwards : Bool) :
    Serves (m.assigned 5 (saltValues salt backwards)) := by
  have hfills := Machine.fills_assigned m 5 (saltValues salt backwards)
  refine ⟨⟨(hfills.states 5).trans h.settled.1, ?_⟩, salt, backwards,
    static_resalted hfits salt backwards "salt", static_resalted hfits salt backwards "reverse"⟩
  obtain ⟨-, root, hderived, hempties⟩ := h.settled
  refine ⟨root, fun p hp => ?_, hempties.carried (carries_of_grown ⟨_, hfills.objects⟩ root)⟩
  have hother : ∀ p ∈ Holding.collections.sources,
      Statics.lastIn p.1 (saltValues salt backwards) = none := by
    simp only [Holding.collections, List.forall_mem_cons]
    exact ⟨rfl, rfl, rfl, by simp⟩
  show (m.assigned 5 _).static 5 p.1 = _
  rw [static_resalted hfits, hother p hp, Option.getD_none]
  exact (hderived p hp).trans (by cases p.2 <;> rfl)

end Outcomes

/-! ### Settings -/

/-- The session goes on with the initialization of some classes. The other ones that nobody has
requested are still like that. -/
structure Goes (B : Session → Prop) (U : Holding → Session → Prop) (cs : List ClassId)
    (s s' : Session) : Prop where
  base : B s'
  advances : Machine.Advances cs s.machine s'.machine
  unrequested : ∀ holding ∈ Holding.all, holding.classId ∉ cs → U holding s → U holding s'

/-- **How classes are initialized that nobody has requested.** `B` is what is known of all sessions,
and `U` what is known of a class with archived state before the first request. -/
structure Setting (specs : List ModuleSpec) (B : Session → Prop) (U : Holding → Session → Prop) :
    Prop where
  fits : ∀ {s}, B s → Fits s.machine
  uninitialized : ∀ {s holding}, U holding s → s.machine.stateOf holding.classId = .uninitialized
  note : ∀ {s} e, B s → Goes B U [] s (s.note e)
  filled : ∀ {s m c objects}, B s → Machine.Fills c objects s.machine m →
    Goes B U [c] s (s.withMachine m)
  salted : ∀ {s} salt backwards, B s → U .collections s →
    U .collections (s.withMachine (s.machine.assigned 5 (saltValues salt backwards)))
  integers : ∀ {s}, B s → U .integers s →
    ∃ s', Session.request 3 s = (.ok (), s') ∧ Goes B U [3] s s' ∧
      Settled .integers (HoldsRow 2 boxedRows) s'.machine
  collections : ∀ {s}, B s → U .collections s →
    ∃ s', Session.request 5 s = (.ok (), s') ∧ Goes B U [5] s s' ∧ Serves s'.machine
  modules : ∀ {s}, B s → U .modules s → (U .collections s ∨ Serves s.machine) →
    (∀ spec ∈ specs, spec.packages.Nodup) →
    ∃ s', Session.request 7 s = (.ok (), s') ∧ Goes B U [5, 7] s s' ∧
      (U .collections s' ∨ Serves s'.machine) ∧ Settled .modules (HoldsGraph specs) s'.machine
  refused : ∀ {s}, B s → U .modules s → (U .collections s ∨ Serves s.machine) →
    (∃ spec ∈ specs, ¬ spec.packages.Nodup) →
    ∃ fault s', Session.request 7 s
        = (.error (.initializerFailed (installed.className 7) fault), s') ∧
      Goes B U [5, 7] s s' ∧ (U .collections s' ∨ Serves s'.machine) ∧
      s'.machine.stateOf 7 = .erroneous (.initializerFailed (installed.className 7) fault) ∧
      ∃ spec ∈ specs, Repeats spec fault
  locales : ∀ {s}, B s → U .locales s →
    ∃ s', Session.request 9 s = (.ok (), s') ∧ Goes B U [9] s s' ∧
      Settled .locales (HoldsRow 8 localeRows) s'.machine

/-- Every class with archived state is still to be requested, or its outcome is settled. -/
structure Standing (specs : List ModuleSpec) (B : Session → Prop) (U : Holding → Session → Prop)
    (s : Session) : Prop where
  base : B s
  classes : ∀ p ∈ outcomes specs, U p.1 s ∨ p.2 s.machine

section Settings

variable {specs : List ModuleSpec} {B : Session → Prop} {U : Holding → Session → Prop}
  {p : Holding × (Machine → Prop)} {s s' t : Session} {cs : List ClassId}

/-- A session in which nothing has been requested. -/
theorem standing_of_unrequested (h : B s) (hunrequested : ∀ holding ∈ Holding.all, U holding s) :
    Standing specs B U s :=
  ⟨h, fun p hp => .inl (hunrequested p.1 (fst_mem_of_mem_outcomes hp))⟩

/-- **A session that goes on stays like this** if the classes that it initializes do. -/
theorem Standing.of_goes (h : Standing specs B U s) (hgoes : Goes B U cs s s')
    (hcs : ∀ p ∈ outcomes specs, p.1.classId ∈ cs → U p.1 s' ∨ p.2 s'.machine) :
    Standing specs B U s' where
  base := hgoes.base
  classes p hp := by
    by_cases hmem : p.1.classId ∈ cs
    · exact hcs p hp hmem
    · exact (h.classes p hp).imp (hgoes.unrequested p.1 (fst_mem_of_mem_outcomes hp) hmem)
        (outcome_of_advances hp hgoes.advances hmem)

theorem Standing.collections (h : Standing specs B U s) : U .collections s ∨ Serves s.machine :=
  h.classes _ collections_mem_outcomes

theorem Standing.modules (h : Standing specs B U s) : U .modules s ∨ Resolution specs s.machine :=
  h.classes _ modules_mem_outcomes

/-- A class that is ready has its outcome. -/
theorem Setting.outcome (hw : Setting specs B U) (h : Standing specs B U s)
    (hp : p ∈ outcomes specs) (hready : s.machine.stateOf p.1.classId = .ready) :
    p.2 s.machine := by
  refine (h.classes p hp).resolve_left fun hunrequested => ?_
  rw [hw.uninitialized hunrequested] at hready
  cases hready

theorem Setting.noted (hw : Setting specs B U) (h : Standing specs B U s) (e : Event) :
    Standing specs B U (s.note e) :=
  h.of_goes (hw.note e h.base) (by simp)

/-! ### Requests -/

/-- A request for a class whose initializer always succeeds. -/
theorem Setting.exists_request (hw : Setting specs B U) (h : Standing specs B U s)
    (hp : p ∈ outcomes specs) (hready : p.2 s.machine → s.machine.stateOf p.1.classId = .ready)
    (hrequest : U p.1 s → ∃ s', Session.request p.1.classId s = (.ok (), s') ∧
      Goes B U [p.1.classId] s s' ∧ p.2 s'.machine) :
    ∃ s', Session.request p.1.classId s = (.ok (), s') ∧ Standing specs B U s' ∧ p.2 s'.machine ∧
      s.machine.Grown s'.machine := by
  rcases h.classes p hp with hunrequested | houtcome
  · obtain ⟨s', hgranted, hgoes, houtcome⟩ := hrequest hunrequested
    refine ⟨s', hgranted, h.of_goes hgoes fun q hq hmem => ?_, houtcome, hgoes.advances.objects⟩
    obtain rfl := eq_of_mem_outcomes hp hq (List.mem_singleton.1 hmem)
    exact .inr houtcome
  · exact ⟨s.note (.granted p.1.classId), requestWithin_of_ready _ (hready houtcome),
      hw.noted h _, houtcome, .refl _⟩

/-- **Whoever asks for the boxed integers gets them.** -/
theorem Setting.supplies_integers (hw : Setting specs B U) :
    Supplies Session.request 3 (Settled .integers (HoldsRow 2 boxedRows)) (Standing specs B U) where
  fits h := hw.fits h.base
  request h := hw.exists_request h integers_mem_outcomes And.left (hw.integers h.base)

/-- **Whoever asks for the collections gets them.** -/
theorem Setting.supplies_collections (hw : Setting specs B U) :
    Supplies Session.request 5 Serves (Standing specs B U) where
  fits h := hw.fits h.base
  request h := hw.exists_request h collections_mem_outcomes (fun hserves => hserves.settled.1)
    (hw.collections h.base)

/-- **Whoever asks for the locales gets them.** -/
theorem Setting.supplies_locales (hw : Setting specs B U) :
    Supplies Session.request 9 (Settled .locales (HoldsRow 8 localeRows)) (Standing specs B U) where
  fits h := hw.fits h.base
  request h := hw.exists_request h locales_mem_outcomes And.left (hw.locales h.base)

/-- The module graph has been resolved or refused. -/
theorem Standing.of_resolution (h : Standing specs B U s) (hgoes : Goes B U [5, 7] s s')
    (hcollections : U .collections s' ∨ Serves s'.machine) (h' : Resolution specs s'.machine) :
    Standing specs B U s' := by
  refine h.of_goes hgoes ?_
  simp only [outcomes, List.forall_mem_cons]
  exact ⟨fun hmem => absurd hmem (by decide), fun _ => hcollections, fun _ => .inr h',
    fun hmem => absurd hmem (by decide), by simp⟩

/-- **A request for the module graph** if no module lists a package twice. -/
theorem Setting.exists_request_modules (hw : Setting specs B U) (h : Standing specs B U s)
    (hspecs : ∀ spec ∈ specs, spec.packages.Nodup) :
    ∃ s', Session.request 7 s = (.ok (), s') ∧ Standing specs B U s' ∧
      Settled .modules (HoldsGraph specs) s'.machine := by
  rcases h.modules with hunrequested | houtcome
  · obtain ⟨s', hgranted, hgoes, hcollections, hsettled⟩ :=
      hw.modules h.base hunrequested h.collections hspecs
    exact ⟨s', hgranted, h.of_resolution hgoes hcollections (.resolved hspecs hsettled), hsettled⟩
  · cases houtcome with
    | resolved _ hsettled =>
      exact ⟨s.note (.granted 7), requestWithin_of_ready _ hsettled.1, hw.noted h _, hsettled⟩
    | refused hspec hrepeats _ => exact absurd (hspecs _ hspec) hrepeats.not_nodup

/-- **A request for the module graph** if a module lists a package twice. -/
theorem Setting.exists_request_refused (hw : Setting specs B U) (h : Standing specs B U s)
    (hspecs : ∃ spec ∈ specs, ¬ spec.packages.Nodup) :
    ∃ fault cause s', Session.request 7 s = (.error fault, s') ∧ Standing specs B U s' ∧
      s'.machine.stateOf 7 = .erroneous cause ∧ fault.wraps .duplicateElement = true ∧
      cause.wraps .duplicateElement = true := by
  rcases h.modules with hunrequested | houtcome
  · obtain ⟨fault, s', hrefused, hgoes, hcollections, herroneous, spec, hspec, hrepeats⟩ :=
      hw.refused h.base hunrequested h.collections hspecs
    have hwraps := hrepeats.wraps
    exact ⟨_, _, s', hrefused,
      h.of_resolution hgoes hcollections (.refused hspec hrepeats herroneous), herroneous,
      by simp [Fault.wraps, hwraps], by simp [Fault.wraps, hwraps]⟩
  · cases houtcome with
    | resolved hnodup _ =>
      obtain ⟨spec, hspec, hrepeats⟩ := hspecs
      exact absurd (hnodup spec hspec) hrepeats
    | refused _ hrepeats herroneous =>
      have hwraps := hrepeats.wraps
      exact ⟨_, _, s, requestWithin_of_erroneous _ herroneous, h, herroneous,
        by simp [Fault.wraps, hwraps], by simp [Fault.wraps, hwraps]⟩

/-- Whatever is requested, the session stays like this. -/
theorem Setting.requested (hw : Setting specs B U) (h : Standing specs B U s) {c : ClassId}
    (hc : c ∈ standard.classes) : Standing specs B U (Session.request c s).2 := by
  have hall : standard.classes = [3, 5, 7, 9] := rfl
  rw [hall] at hc
  simp only [List.mem_cons, List.not_mem_nil, or_false] at hc
  rcases hc with rfl | rfl | rfl | rfl
  · obtain ⟨s', hgranted, hs', -⟩ := hw.supplies_integers.request h
    exact hgranted ▸ hs'
  · obtain ⟨s', hgranted, hs', -⟩ := hw.supplies_collections.request h
    exact hgranted ▸ hs'
  · by_cases hspecs : ∀ spec ∈ specs, spec.packages.Nodup
    · obtain ⟨s', hgranted, hs', -⟩ := hw.exists_request_modules h hspecs
      exact hgranted ▸ hs'
    · push Not at hspecs
      obtain ⟨fault, cause, s', hrefused, hs', -⟩ := hw.exists_request_refused h hspecs
      exact hrefused ▸ hs'
  · obtain ⟨s', hgranted, hs', -⟩ := hw.supplies_locales.request h
    exact hgranted ▸ hs'

/-! ### Everything else that a program does -/

theorem Setting.lookedUp (hw : Setting specs B U) (h : Standing specs B U s) (l : Lookup) :
    Standing specs B U (l.ask standard s).2 := by
  have hserved : ∃ s', Session.request l.classId s = (.ok (), s') ∧ Standing specs B U s' ∧
      l.Served s'.machine := by
    cases l with
    | integer n =>
      obtain ⟨s', hgranted, hs', hsettled, -⟩ := hw.supplies_integers.request h
      exact ⟨s', hgranted, hs', hsettled⟩
    | locale language region =>
      obtain ⟨s', hgranted, hs', hsettled, -⟩ := hw.supplies_locales.request h
      exact ⟨s', hgranted, hs', hsettled⟩
  obtain ⟨s', hgranted, hs', hserved⟩ := hserved
  obtain ⟨o, objects, hasked, -⟩ := Lookup.exists_ask hgranted (hw.fits hs'.base) hserved
  rw [hasked]
  -- The root class has no archived state, so nothing is lost if objects are counted to it.
  refine hs'.of_goes (hw.filled hs'.base (Machine.fills_withObjects _ 0 objects))
    fun p hp hmem => ?_
  have hzero := List.mem_singleton.1 hmem
  exact absurd (hzero ▸ by decide : p.1.classId ∈ plainClasses)
    (not_mem_plainClasses (fst_mem_of_mem_outcomes hp))

/-- **The declared modules are read back** if none of them lists a package twice. -/
theorem Setting.exists_descriptors (hw : Setting specs B U) (h : Standing specs B U s)
    (hspecs : ∀ spec ∈ specs, spec.packages.Nodup) :
    ∃ s', standard.descriptors s = (.ok (specs.map ModuleSpec.sorted), s') ∧
      Standing specs B U s' := by
  obtain ⟨s₁, hgranted, hs₁, hsettled⟩ := hw.exists_request_modules h hspecs
  obtain ⟨s', hread, hs', -⟩ := hw.supplies_collections.exists_descriptors hs₁ hgranted hsettled
  exact ⟨s', hread, hs'⟩

theorem Setting.described (hw : Setting specs B U) (h : Standing specs B U s) :
    Standing specs B U (standard.descriptors s).2 := by
  by_cases hspecs : ∀ spec ∈ specs, spec.packages.Nodup
  · obtain ⟨s', hread, hs'⟩ := hw.exists_descriptors h hspecs
    exact hread ▸ hs'
  · push Not at hspecs
    obtain ⟨fault, cause, s', hrefused, hs', -⟩ := hw.exists_request_refused h hspecs
    have hread : standard.descriptors s = (.error (.fault fault), s') :=
      exceptBind_apply_error (require_eq_error hrefused)
    exact hread ▸ hs'

theorem Setting.resalted (hw : Setting specs B U) (h : Standing specs B U s) (salt : Int64)
    (backwards : Bool) : Standing specs B U (standard.resalt salt backwards s).2 := by
  have hfits := hw.fits h.base
  have hassign : standard.resalt salt backwards s
      = (.ok (), s.withMachine (s.machine.assigned 5 (saltValues salt backwards))) := by
    refine Holding.assignAll_eq ?_
    simp only [List.forall_mem_cons, hfits.has]
    exact ⟨by decide, by decide, by simp⟩
  rw [hassign]
  refine h.of_goes (hw.filled h.base (Machine.fills_assigned _ 5 (saltValues salt backwards))) ?_
  simp only [outcomes, List.forall_mem_cons]
  exact ⟨fun hmem => absurd hmem (by decide), fun _ => h.collections.imp
      (hw.salted salt backwards h.base) fun hserves => hserves.resalted hfits salt backwards,
    fun hmem => absurd hmem (by decide), fun hmem => absurd hmem (by decide), by simp⟩

/-- **Every state that a program reaches is like this.** -/
theorem Setting.of_reached (hw : Setting specs B U) (h : Standing specs B U s)
    (hreached : Reached standard s t) : Standing specs B U t := by
  induction hreached with
  | start => exact h
  | requested _ hc ih => exact hw.requested ih hc
  | lookedUp _ l ih => exact hw.lookedUp ih l
  | described _ ih => exact hw.described ih
  | resalted _ salt backwards ih => exact hw.resalted ih salt backwards

end Settings

end Library

end ClassSharing
