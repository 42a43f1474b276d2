import ClassSharing.Proofs.Library.Reading
import ClassSharing.Proofs.Session.Lifecycle

/-!
# Sessions without an archive

A session that uses no archive computes the state of the library, and how it came to use none makes
no difference: no graph is consulted, or the graph has a gate without a bootstrap, or the bootstrap
says so, or says something that no process can be. Nor does it matter where the seed comes from that
the salt is made of. So nothing is assumed here about the gates and graphs of the session, and the
library may have been installed with any source of seeds.

The first request settles that no archive is in use. Before it, a gate may not have been asked yet,
and what its bootstrap would answer could change; asking fixes the answer. Every request asks before
it does anything else, since it begins with the root class.

## Main definitions

* `Library.Unarchived`: a session that uses no archive
* `Library.Vacant`: a class with archived state that nobody has requested
* `Library.Makes`: what an initializer does where nothing is archived
* `Library.Enters`: how a session enters the initializer of a class

## Main results

* `Library.Unarchived.exists_enters`, `Library.Unarchived.exists_request_eq`: a request for a class
  with archived state
* `Library.Unarchived.exists_request_made`: a request whose initializer succeeds
* `Library.Unarchived.exists_request_modules`, `Library.Unarchived.exists_request_refused`: a
  request for the module graph
-/

namespace ClassSharing

namespace Library

open Session

/-! ### The installed library -/

theorem fits_installedWith (seeds : SeedSource) : Fits (installedWith seeds) := by
  have h := reseeded_installedWith seeds
  have hrooted : (installedWith seeds).Rooted := ⟨by rw [h.size]; decide, rfl⟩
  have hsuper : ∀ c ∈ slotted, (installed.classAt c).superclass = some Machine.objectClass ∧
      Machine.objectClass < c := by decide
  refine ⟨?_, fun c hc => ?_, fun c hc name => ?_, fun c name => ?_⟩
  · rw [h.eq Class.slotCount fun _ _ => rfl]
    exact fits_installed.array
  · rw [h.eq Class.slotCount fun _ _ => rfl]
    exact fits_installed.slotCount c hc
  · rw [hrooted.slotIndex? (hsuper c hc).2, h.eq Class.instanceVariables fun _ _ => rfl]
    rw [h.eq Class.superclass fun _ _ => rfl]
    exact (hsuper c hc).1
  · rw [h.eq Class.statics fun _ _ => rfl]

/-- What the four classes with archived state have to do. -/
def initializerOf (seeds : SeedSource) (holding : Holding) : Initializer :=
  ((installedWith seeds).classAt holding.classId).initializer

section Holdings

variable {holding : Holding} {seeds : SeedSource} {m : Machine}

theorem initializerOf_ne_none (hmem : holding ∈ Holding.all) :
    initializerOf seeds holding ≠ .none := by
  simp only [Holding.all, List.mem_cons, List.not_mem_nil, or_false] at hmem
  rcases hmem with rfl | rfl | rfl | rfl <;> exact Initializer.noConfusion

theorem Holding.lt_size_of_seeds (hmem : holding ∈ Holding.all)
    (h : (installedWith seeds).Evolves m) : holding.classId < m.classes.size := by
  rw [h.size, (reseeded_installedWith seeds).size]
  exact Holding.lt_size hmem (.refl installed)

theorem superclass_eq_of_seeds (hmem : holding ∈ Holding.all)
    (h : (installedWith seeds).Evolves m) : (m.classAt holding.classId).superclass = some 0 := by
  rw [h.superclass, (reseeded_installedWith seeds).eq Class.superclass fun _ _ => rfl]
  exact superclass_eq hmem

/-- A class with archived state that nobody has requested. -/
structure Vacant (holding : Holding) (m : Machine) : Prop where
  uninitialized : m.stateOf holding.classId = .uninitialized
  empty : m.static holding.classId holding.field = .nil

theorem vacant_installedWith (seeds : SeedSource) (hmem : holding ∈ Holding.all) :
    Vacant holding (installedWith seeds) := by
  have h := reseeded_installedWith seeds
  have hvacant : ∀ holding ∈ Holding.all, installed.stateOf holding.classId = .uninitialized ∧
      installed.static holding.classId holding.field = .nil := by
    simp only [Holding.all, List.forall_mem_cons]
    exact ⟨by decide, by decide, by decide, by decide, by simp⟩
  refine ⟨(h.eq Class.state (fun _ _ => rfl) _).trans (hvacant holding hmem).1, ?_⟩
  rw [Machine.static, h.eq Class.statics fun _ _ => rfl]
  exact (hvacant holding hmem).2

theorem Vacant.of_advances {m' : Machine} {cs : List ClassId} (h : Vacant holding m)
    (hmem : holding ∈ Holding.all) (hm : (installedWith seeds).Evolves m)
    (hadvances : Machine.Advances cs m m') (hcs : holding.classId ∉ cs) : Vacant holding m' where
  uninitialized := by
    rcases hadvances.states _ hcs with heq | ⟨hnone, -, -⟩
    · rw [heq, h.uninitialized]
    · rw [hm.initializer] at hnone
      exact absurd hnone (initializerOf_ne_none hmem)
  empty := (hadvances.static hcs _).trans h.empty

end Holdings

/-! ### Requests -/

/-- A session that uses no archive, with the library installed. -/
structure Unarchived (seeds : SeedSource) (s : Session) : Prop where
  evolves : (installedWith seeds).Evolves s.machine
  unused : s.Offline ∨ s.inUse = false ∧ s.machine.stateOf 0 = .uninitialized
  idle : s.machine.stateOf 0 = .uninitialized ∨ s.machine.stateOf 0 = .ready

/-- How a session enters the initializer of a class that is requested in another session: no archive
is in use, which has been asked for by now, and nothing has been done to the class. -/
structure Enters (seeds : SeedSource) (holding : Holding) (depth : Nat) (s t : Session) : Prop where
  unarchived : Unarchived seeds t
  offline : t.Offline
  count_le : t.machine.uninitializedCount ≤ depth
  evolves : s.Evolves t
  advances : Machine.Advances [holding.classId] s.machine t.machine
  static : ∀ name, t.machine.static holding.classId name = s.machine.static holding.classId name

section Requests

variable {seeds : SeedSource} {holding : Holding} {s s' : Session} {bound depth : Nat}

theorem Unarchived.inUse_eq_false (h : Unarchived seeds s) : s.inUse = false :=
  h.unused.elim inUse_of_offline And.left

theorem Unarchived.fits (h : Unarchived seeds s) : Fits s.machine :=
  (fits_installedWith seeds).of_evolves h.evolves

/-- A session that has moved on after it was settled that no archive is in use. -/
theorem Unarchived.of_advances {cs : List ClassId} (h : Unarchived seeds s) (hoffline : s'.Offline)
    (hadvances : Machine.Advances cs s.machine s'.machine) (hcs : 0 ∉ cs) : Unarchived seeds s' :=
  ⟨h.evolves.trans hadvances.evolves, .inl hoffline, hadvances.idle hcs h.idle⟩

/-- What changes neither the gates nor the root class. -/
theorem Unarchived.of_evolves (h : Unarchived seeds s) (hevolves : s.Evolves s')
    (hgraphs : s'.graphs = s.graphs) (hgates : s'.gates = s.gates) (hboots : s'.boots = s.boots)
    (hroot : s'.machine.stateOf 0 = s.machine.stateOf 0) : Unarchived seeds s' where
  evolves := h.evolves.trans hevolves.machine
  unused := by
    rw [inUse_congr hevolves.hook hgraphs hgates hboots, hroot]
    exact h.unused.imp_left hevolves.offline
  idle := by
    rw [hroot]
    exact h.idle

theorem Unarchived.note (h : Unarchived seeds s) (e : Event) : Unarchived seeds (s.note e) :=
  h.of_evolves (evolves_note s e) rfl rfl rfl rfl

theorem Unarchived.begin (h : Unarchived seeds s) {c : ClassId} (hc : c ≠ 0) :
    Unarchived seeds (s.begin c) := by
  refine h.of_evolves (evolves_move s c .running) rfl rfl rfl ?_
  show (s.machine.setState c .running).stateOf 0 = s.machine.stateOf 0
  rw [Machine.stateOf_setState, if_neg fun heq => hc heq.1.symm]

/-- **A request for the root class** asks whether an archive is in use. -/
theorem Unarchived.exists_request_root (h : Unarchived seeds s)
    (hdepth : s.machine.uninitializedCount ≤ depth) :
    ∃ s', requestWithin depth 0 s = (.ok (), s') ∧ s'.Offline ∧ s.machine.Readied s'.machine := by
  rcases h.idle with huninitialized | hready
  · have hlt : 0 < s.machine.classes.size := by
      rw [h.evolves.size, (reseeded_installedWith seeds).size]
      decide
    have hnone : (s.machine.classAt 0).initializer = .none := h.evolves.initializer 0
    have hless := Machine.uninitializedCount_setState_running hlt huninitialized
    obtain ⟨depth, rfl⟩ : ∃ d, depth = d + 1 := ⟨depth - 1, by omega⟩
    have hbegun : (s.begin 0).inUse = s.inUse := inUse_congr rfl rfl rfl rfl
    obtain ⟨s₁, hconsult, hmachine, hoffline, -⟩ :=
      exists_consultHook_of_not_inUse (requestWithin depth) 0 (hbegun.trans h.inUse_eq_false)
    have hsuper : requestSuperclass (requestWithin depth) 0 (s.begin 0) = (.ok (), s.begin 0) := by
      refine requestSuperclass_of_none ?_
      show ((s.machine.setState 0 .running).classAt 0).superclass = none
      rw [(Machine.evolves_setState _ _ _).superclass]
      exact h.evolves.superclass 0
    have hrun : runInitializer (requestWithin depth) 0 (s.begin 0) = (.ok (), s₁) := by
      rw [runInitializer_eq hsuper, hconsult]
      refine enterInitializer_of_none ?_
      rw [hmachine]
      exact ((Machine.evolves_setState s.machine 0 .running).initializer 0).trans hnone
    refine ⟨s₁.finish 0 (.ok ()), ?_, ?_, ?_⟩
    · rw [requestWithin_of_uninitialized depth huninitialized, hrun]
    · exact (evolves_note _ _).offline ((evolves_move s₁ 0 .ready).offline hoffline)
    · refine Machine.Readied.of_setState hlt hnone huninitialized ?_
      rw [hmachine]
      exact .refl _
  · have hoffline : s.Offline := h.unused.resolve_right fun hboth => by
      rw [hboth.2] at hready
      cases hready
    exact ⟨s.note (.granted 0), requestWithin_of_ready depth hready,
      (evolves_note s _).offline hoffline, .refl _⟩

/-- **A request for a class with archived state** gets to its initializer, and what the initializer
answers is the answer of the request. -/
theorem Unarchived.exists_enters (h : Unarchived seeds s) (hmem : holding ∈ Holding.all)
    (hbefore : s.machine.stateOf holding.classId = .uninitialized)
    (hbound : s.machine.uninitializedCount ≤ bound) :
    ∃ depth t, Enters seeds holding depth s (t.note (.entered holding.classId)) ∧
      ∀ {answer s'}, enterInitializer (requestWithin depth) holding.classId t = (answer, s') →
        requestWithin bound holding.classId s = (answer, s'.finish holding.classId answer) := by
  have hlt := Holding.lt_size_of_seeds hmem h.evolves
  have hless := Machine.uninitializedCount_setState_running hlt hbefore
  obtain ⟨depth, rfl⟩ : ∃ depth, bound = depth + 1 := ⟨bound - 1, by omega⟩
  have hne : holding.classId ≠ 0 := fun heq => not_mem_plainClasses hmem (heq ▸ by decide)
  have hbegun : Machine.Advances [holding.classId] s.machine (s.begin holding.classId).machine :=
    Machine.advances_setState _ _ List.mem_cons_self
  have hle : (s.begin holding.classId).machine.uninitializedCount ≤ depth :=
    Nat.lt_succ_iff.1 (hless.trans_le hbound)
  -- The superclass asks whether an archive is in use, and the class is told so again.
  obtain ⟨s₁, hgranted, hoffline₁, hreadied⟩ := (h.begin hne).exists_request_root hle
  obtain ⟨s₂, hconsult, hmachine, hoffline₂, hconsulted⟩ :=
    exists_consultHook_of_not_inUse (requestWithin depth) holding.classId
      (inUse_of_offline hoffline₁)
  have hsuper : requestSuperclass (requestWithin depth) holding.classId (s.begin holding.classId)
      = (.ok (), s₁) := by
    refine requestSuperclass_of_some ?_ hgranted
    exact superclass_eq_of_seeds hmem (h.evolves.trans hbegun.evolves)
  have hadvances : Machine.Advances [holding.classId] s.machine s₂.machine := by
    rw [hmachine]
    exact hbegun.trans hreadied.advances
  have hentering : s.Evolves s₂ := by
    have hrequested := within_requestWithin depth 0 (s.begin holding.classId)
    rw [hgranted] at hrequested
    exact (evolves_move s holding.classId .running).trans (hrequested.trans hconsulted)
  have henters : Enters seeds holding depth s (s₂.note (.entered holding.classId)) := {
    unarchived := (h.of_advances hoffline₂ hadvances fun heq =>
      hne (List.mem_singleton.1 heq).symm).note _
    offline := (evolves_note _ _).offline hoffline₂
    count_le := by
      show s₂.machine.uninitializedCount ≤ depth
      rw [hmachine]
      exact hreadied.uninitializedCount_le.trans hle
    evolves := hentering.trans (evolves_note _ _)
    advances := hadvances
    static := fun name => by
      show s₂.machine.static holding.classId name = s.machine.static holding.classId name
      rw [hmachine, hreadied.static]
      exact congrArg (Statics.get · name) (Machine.statics_setState s.machine _ _ _) }
  refine ⟨depth, s₂, henters, fun hentered => ?_⟩
  rw [requestWithin_of_uninitialized depth hbefore, runInitializer_eq hsuper, hconsult, hentered]

/-- **The answer is up to the body of the initializer.** -/
theorem Unarchived.exists_request_eq (h : Unarchived seeds s) (hmem : holding ∈ Holding.all)
    (hbefore : s.machine.stateOf holding.classId = .uninitialized)
    (hbound : s.machine.uninitializedCount ≤ bound) :
    ∃ depth t, Enters seeds holding depth s t ∧
      (∀ {s' : Session},
        runBody (requestWithin depth) holding.classId (initializerOf seeds holding) t
          = (.ok (), s') →
        requestWithin bound holding.classId s = (.ok (), s'.finish holding.classId (.ok ()))) ∧
      ∀ {s' : Session} {fault : Fault},
        runBody (requestWithin depth) holding.classId (initializerOf seeds holding) t
          = (.error (.fault fault), s') →
        requestWithin bound holding.classId s
          = (.error (.initializerFailed (installed.className holding.classId) fault),
            s'.finish holding.classId
              (.error (.initializerFailed (installed.className holding.classId) fault))) := by
  obtain ⟨depth, t, henters, hanswer⟩ := h.exists_enters hmem hbefore hbound
  have hevolves : (installedWith seeds).Evolves t.machine := henters.unarchived.evolves
  have hinitializer : (t.machine.classAt holding.classId).initializer
      = initializerOf seeds holding := hevolves.initializer holding.classId
  have hname : t.machine.className holding.classId = installed.className holding.classId :=
    (hevolves.className _).trans
      ((reseeded_installedWith seeds).eq Class.fullName (fun _ _ => rfl) holding.classId)
  refine ⟨depth, _, henters, fun hbody => ?_, fun hbody => ?_⟩
  · exact hanswer (enterInitializer_of_ok hinitializer (initializerOf_ne_none hmem) hbody)
  · have hfailed := enterInitializer_of_fault hinitializer (initializerOf_ne_none hmem) hbody
    rw [hname] at hfailed
    exact hanswer hfailed

end Requests

/-! ### Initializers -/

/-- What an initializer does where nothing is archived: it fills the class, and something is known
of the archived array. -/
structure Makes (holding : Holding) (C : Machine → ObjectId → Prop) (body : Run Unit)
    (s s' : Session) : Prop where
  body : body s = (.ok (), s')
  evolves : s.Evolves s'
  fills : ∃ objects, Machine.Fills holding.classId objects s.machine s'.machine
  held : ∃ root, holding.Derived s'.machine root ∧ C s'.machine root

section Making

variable {holding : Holding} {C : Machine → ObjectId → Prop} {s : Session} {l : Layout}
  {compute : Run ObjectId}

/-- An array is computed, and what goes with it is assigned. -/
theorem exists_makes (specs : List ModuleSpec) (hmem : holding ∈ Holding.all) (h : Fits s.machine)
    (hnil : s.machine.static holding.classId holding.field = .nil)
    (hstart : l.start = s.machine.objects.size) (hsize : l.elements.length = holding.size specs)
    (hcompute : compute s = (.ok l.root, s.withMachine (s.machine.withObjects l.objects)))
    {assigns : Value → Run Unit}
    (hassigns : ∀ t : Session, Fits t.machine → holding.Has specs t.machine l.root →
      ∃ m, assigns (.obj l.root) t = (.ok (), t.withMachine m) ∧
        Machine.Fills holding.classId [] t.machine m ∧ holding.Derived m l.root)
    (hC : ∀ m : Machine, m.objects = s.machine.objects ++ l.objects.toArray → C m l.root) :
    ∃ s', Makes holding C (archivedOr holding.classId holding.field (holding.size specs) compute
      >>= assigns) s s' := by
  have hmade := Machine.fills_withObjects s.machine holding.classId l.objects
  obtain ⟨harchived, hfield⟩ := Holding.archivedOr_of_nil hnil hcompute
    (Holding.has_field hmem (h.of_evolves hmade.evolves))
  set t := s.withMachine ((s.machine.withObjects l.objects).assigned holding.classId
    [(holding.field, .obj l.root)])
  have hput : Machine.Fills holding.classId _ s.machine t.machine :=
    hmade.trans (Machine.fills_assigned _ _ _)
  rw [List.append_nil] at hput
  have hroot := objectAt_root hput hstart.symm
  have hhas : holding.Has specs t.machine l.root :=
    ⟨hfield, by rw [hroot]; rfl, by rw [hroot]; exact hsize⟩
  obtain ⟨m, hassign, hfills, hderived⟩ := hassigns t (h.of_evolves hput.evolves) hhas
  have hall := hput.trans hfills
  rw [List.append_nil] at hall
  exact ⟨t.withMachine m, (exceptBind_apply harchived).trans hassign,
    .of_fixtures_eq hall.evolves rfl, ⟨_, hall⟩, l.root, hderived, hC m hall.objects⟩

theorem exists_makes_integers (h : Fits s.machine)
    (hnil : s.machine.static 3 "archivedCache" = .nil) :
    ∃ s', Makes .integers (HoldsRow 2 boxedRows) (fillIntegerCache 3 2) s s' :=
  exists_makes [] Holding.integers_mem h hnil rfl (length_row _ _)
    (compute_integers_eq request [] h)
    (fun _ hfits hhas => Holding.exists_assign_integers hfits hhas)
    fun _ hobjects => holdsRow_integersLayout hobjects

theorem exists_makes_locales (h : Fits s.machine)
    (hnil : s.machine.static 9 "archivedLocales" = .nil) :
    ∃ s', Makes .locales (HoldsRow 8 localeRows) (makeLocales 9 8) s s' :=
  exists_makes [] Holding.locales_mem h hnil rfl (length_row _ _) (compute_locales_eq request [] h)
    (fun _ hfits hhas => Holding.exists_assign_locales hfits hhas)
    fun _ hobjects => holdsRow_localesLayout hobjects

theorem machine_askSeed (seeds : SeedSource) (s : Session) :
    (askSeed seeds s).2.machine = s.machine := by
  cases seeds with
  | absent => rfl
  | constant seed => rfl
  | gate g =>
    have hseed : (gateSeed g s).2.machine = s.machine := by
      rw [gateSeed, bind_apply, bind_apply, get_apply]
      simp only
      cases (gateStatus g s).1.isDumpingStatic <;>
        cases ((gateStatus g s).2.gateAt g).boot <;> exact machine_gateStatus g s
    exact hseed

/-- The collections are made whatever the source of seeds answers. -/
theorem exists_makes_collections (seeds : SeedSource) (h : Fits s.machine)
    (hnil : s.machine.static 5 "archivedObjects" = .nil) :
    ∃ s', Makes .collections HoldsEmpties (makeCollections 5 4 seeds) s s' := by
  set seed := (askSeed seeds s).1
  set t := (askSeed seeds s).2
  have hmachine : t.machine = s.machine := machine_askSeed seeds s
  have hseed : Run.act (askSeed seeds) s = (.ok seed, t) := lift_apply _ s
  set salt := saltOf (if seed = 0 then t.entropy else seed)
  rw [← hmachine] at h hnil
  have hmakes : ∃ s', Makes .collections HoldsEmpties (do
      let archived ← archivedOr 5 "archivedObjects" 2 (Holding.collections.compute request [])
      let list ← elementOf archived 0
      let set ← elementOf archived 1
      assignAll 5 [("salt", .int salt), ("reverse", .bool (salt &&& 1 = 0)), ("emptyList", list),
        ("emptySet", set)]) t s' :=
    exists_makes [] Holding.collections_mem h hnil rfl rfl (compute_collections_eq request [] h)
      (fun _ hfits hhas => Holding.exists_assign_collections hfits hhas salt _)
      fun _ hobjects => holdsEmpties_of_layout hobjects
  obtain ⟨s', hmakes⟩ := hmakes
  have hasked : s.Evolves t := within_askSeed universal_evolves.code seeds s
  refine ⟨s', ?_, hasked.trans hmakes.evolves, hmachine ▸ hmakes.fills, hmakes.held⟩
  rw [makeCollections, exceptBind_apply hseed, exceptBind_apply (exceptGet_apply t)]
  exact hmakes.body

end Making

/-! ### Requests for the four classes -/

section Granting

variable {seeds : SeedSource} {holding : Holding} {C : Machine → ObjectId → Prop}
  {specs : List ModuleSpec} {s t : Session} {bound depth : Nat}

theorem Enters.vacant (h : Enters seeds holding depth s t) (hvacant : Vacant holding s.machine) :
    t.machine.static holding.classId holding.field = .nil :=
  (h.static _).trans hvacant.empty

/-- The class is finished, and the session is still known to use no archive. -/
theorem offline_finish (h : s.Offline) (c : ClassId) (answer : Except Fault Unit) :
    (s.finish c answer).Offline := by
  cases answer with
  | ok _ => exact (evolves_note _ _).offline ((evolves_move s c .ready).offline h)
  | error fault => exact (evolves_move s c (.erroneous fault)).offline h

theorem advances_finish {cs : List ClassId} (s : Session) {c : ClassId} (hc : c ∈ cs)
    (answer : Except Fault Unit) :
    Machine.Advances cs s.machine (s.finish c answer).machine := by
  cases answer with
  | ok _ => exact Machine.advances_setState s.machine .ready hc
  | error fault => exact Machine.advances_setState s.machine (.erroneous fault) hc

/-- **A request whose initializer succeeds.** -/
theorem Unarchived.exists_request_made (h : Unarchived seeds s) (hmem : holding ∈ Holding.all)
    (hC : Content holding specs C) (hvacant : Vacant holding s.machine)
    (hbound : s.machine.uninitializedCount ≤ bound)
    (hmakes : ∀ depth t, Fits t.machine → t.machine.static holding.classId holding.field = .nil →
      ∃ t', Makes holding C
        (runBody (requestWithin depth) holding.classId (initializerOf seeds holding)) t t') :
    ∃ depth t t', Makes holding C
        (runBody (requestWithin depth) holding.classId (initializerOf seeds holding)) t t' ∧
      requestWithin bound holding.classId s = (.ok (), t'.finish holding.classId (.ok ())) ∧
      (t'.finish holding.classId (.ok ())).Offline ∧
      Machine.Advances [holding.classId] s.machine (t'.finish holding.classId (.ok ())).machine ∧
      Settled holding C (t'.finish holding.classId (.ok ())).machine := by
  obtain ⟨depth, t, henters, hanswer, -⟩ :=
    h.exists_request_eq hmem hvacant.uninitialized hbound
  obtain ⟨t', hmade⟩ := hmakes depth t henters.unarchived.fits (henters.vacant hvacant)
  have hgranted := hanswer hmade.body
  obtain ⟨objects, hfills⟩ := hmade.fills
  obtain ⟨root, hderived, hheld⟩ := hmade.held
  have hevolves : (installedWith seeds).Evolves t'.machine :=
    henters.unarchived.evolves.trans hfills.evolves
  refine ⟨depth, t, t', hmade, hgranted, offline_finish (hmade.evolves.offline henters.offline) _ _,
    ?_, hC.settled_finish (Holding.lt_size_of_seeds hmem hevolves) hderived hheld⟩
  exact (henters.advances.trans (hfills.advances List.mem_cons_self)).trans
    (advances_finish t' List.mem_cons_self _)

/-- **The collections become ready**, with a salt. -/
theorem Unarchived.exists_request_collections (h : Unarchived seeds s)
    (hvacant : Vacant .collections s.machine) (hbound : s.machine.uninitializedCount ≤ bound) :
    ∃ s', requestWithin bound 5 s = (.ok (), s') ∧ s'.Offline ∧
      Machine.Advances [5] s.machine s'.machine ∧ Serves s'.machine := by
  obtain ⟨_, t, t', hmade, hgranted, hoffline, hadvances, hsettled⟩ :=
    h.exists_request_made Holding.collections_mem (content_empties []) hvacant hbound
      fun _ _ hfits hnil => exists_makes_collections seeds hfits hnil
  have hfinished : t'.machine.Evolves (t'.finish 5 (.ok ())).machine :=
    Machine.evolves_setState t'.machine 5 .ready
  have hfits : Fits t'.machine := (fits_installedWith seeds).of_evolves
    ((h.evolves.trans hadvances.evolves).trans hfinished.symm)
  obtain ⟨salt, backwards, hsalt, hreverse⟩ := salted_of_makeCollections hfits hmade.body
  exact ⟨_, hgranted, hoffline, hadvances, hsettled, salt, backwards,
    (static_finish t' 5 5 "salt").trans hsalt, (static_finish t' 5 5 "reverse").trans hreverse⟩

/-! ### The module graph -/

/-- What the session may turn into while it resolves the module graph with requests of some
depth. -/
structure Turns (depth : Nat) (s t : Session) : Prop where
  evolves : s.Evolves t
  advances : Machine.Advances [5, 7] s.machine t.machine
  collections : Vacant .collections t.machine ∧ t.machine.uninitializedCount ≤ depth ∨
    Serves t.machine

/-- A session in which the initializer of the module graph has been entered. -/
theorem Enters.turns (h : Enters seeds .modules depth s t) (hs : Unarchived seeds s)
    (hcollections : Vacant .collections s.machine ∨ Serves s.machine) : Turns depth t t where
  evolves := .refl t
  advances := (Machine.Readied.refl _).advances
  collections := hcollections.imp
    (fun hvacant => ⟨hvacant.of_advances Holding.collections_mem hs.evolves h.advances
      (by decide), h.count_le⟩)
    fun hserves => hserves.of_advances h.advances (by decide)

/-- **Whoever asks for the collections gets them.** -/
theorem Turns.supplies (h : Unarchived seeds s) (hoffline : s.Offline) :
    Supplies (requestWithin depth) 5 Serves (Turns depth s) where
  fits ht := (fits_installedWith seeds).of_evolves (h.evolves.trans ht.advances.evolves)
  request := by
    intro t ht
    rcases ht.collections with ⟨hvacant, hcount⟩ | hserves
    · have hunarchived : Unarchived seeds t :=
        h.of_advances (ht.evolves.offline hoffline) ht.advances (by decide)
      obtain ⟨t', hgranted, -, hadvances, hserves⟩ :=
        hunarchived.exists_request_collections hvacant hcount
      have hevolves := within_requestWithin depth 5 t
      rw [hgranted] at hevolves
      exact ⟨t', hgranted, ⟨ht.evolves.trans hevolves,
        ht.advances.trans (hadvances.mono (by decide)), .inr hserves⟩, hserves, hadvances.objects⟩
    · exact ⟨t.note (.granted 5), requestWithin_of_ready depth hserves.settled.1,
        ⟨ht.evolves.trans (evolves_note t _), ht.advances, .inr hserves⟩, hserves, .refl _⟩

theorem Turns.of_fills {objects : List Object} {m : Machine} (h : Unarchived seeds s)
    (ht : Turns depth s t) (hfills : Machine.Fills 7 objects t.machine m) :
    Turns depth s (t.withMachine m) where
  evolves := ht.evolves.trans (.of_fixtures_eq hfills.evolves rfl)
  advances := ht.advances.trans (hfills.advances (by decide))
  collections := by
    have hadvances : Machine.Advances [7] t.machine m := hfills.advances List.mem_cons_self
    refine ht.collections.imp (fun ⟨hvacant, hcount⟩ => ⟨?_, ?_⟩) fun hserves =>
      hserves.of_advances hadvances (by decide)
    · exact hvacant.of_advances Holding.collections_mem
        (h.evolves.trans ht.advances.evolves) hadvances (by decide)
    · refine (Machine.uninitializedCount_le hfills.evolves.size fun c hc => ?_).trans hcount
      rw [← hfills.states]
      exact hc

theorem Turns.fillable (h : Unarchived seeds s) : Fillable (Turns depth s) := fun objects ht =>
  ht.of_fills h (Machine.fills_withObjects _ 7 objects)

/-- What is left of a request for the module graph when it is over. -/
structure Resolves (s s' : Session) : Prop where
  offline : s'.Offline
  advances : Machine.Advances [5, 7] s.machine s'.machine
  collections : Vacant .collections s'.machine ∨ Serves s'.machine

theorem Turns.resolves {s₀ : Session} (h : Enters seeds .modules depth s₀ s) (ht : Turns depth s t)
    (answer : Except Fault Unit) : Resolves s₀ (t.finish 7 answer) := by
  have hfinished : Machine.Advances [7] t.machine (t.finish 7 answer).machine :=
    advances_finish t List.mem_cons_self answer
  refine ⟨offline_finish (ht.evolves.offline h.offline) 7 answer, ?_, ?_⟩
  · exact ((h.advances.mono (by decide)).trans ht.advances).trans (hfinished.mono (by decide))
  · exact ht.collections.imp
      (fun hboth => hboth.1.of_advances Holding.collections_mem
        (h.unarchived.evolves.trans ht.advances.evolves) hfinished (by decide))
      fun hserves => hserves.of_advances hfinished (by decide)

/-- **The module graph is resolved** if no module lists a package twice. -/
theorem Unarchived.exists_request_modules (h : Unarchived seeds s)
    (hvacant : Vacant .modules s.machine)
    (hcollections : Vacant .collections s.machine ∨ Serves s.machine)
    (hspecs : ∀ spec ∈ s.moduleSpecs, spec.packages.Nodup)
    (hbound : s.machine.uninitializedCount ≤ bound) :
    ∃ s', requestWithin bound 7 s = (.ok (), s') ∧ Resolves s s' ∧
      Settled .modules (HoldsGraph s.moduleSpecs) s'.machine := by
  obtain ⟨depth, t, henters, hanswer, -⟩ :=
    h.exists_request_eq Holding.modules_mem hvacant.uninitialized hbound
  obtain ⟨u, m, objects, root, hbody, hturns, hfills, hderived, hgraph⟩ :=
    (Turns.supplies henters.unarchived henters.offline).exists_resolve
      (Turns.fillable henters.unarchived) (henters.turns h hcollections) (henters.vacant hvacant)
      (by rw [henters.evolves.moduleSpecs]; exact hspecs)
  rw [henters.evolves.moduleSpecs] at hgraph
  have hevolves : (installedWith seeds).Evolves m :=
    (henters.unarchived.evolves.trans hturns.advances.evolves).trans hfills.evolves
  refine ⟨(u.withMachine m).finish 7 (.ok ()), hanswer hbody,
    (hturns.of_fills henters.unarchived hfills).resolves henters _, ?_⟩
  exact (content_graph s.moduleSpecs).settled_finish (s := u.withMachine m)
    (Holding.lt_size_of_seeds Holding.modules_mem hevolves) hderived hgraph

/-- **A module that lists a package twice** makes the class of the module graph erroneous. -/
theorem Unarchived.exists_request_refused (h : Unarchived seeds s)
    (hvacant : Vacant .modules s.machine)
    (hcollections : Vacant .collections s.machine ∨ Serves s.machine)
    (hspecs : ∃ spec ∈ s.moduleSpecs, ¬ spec.packages.Nodup)
    (hbound : s.machine.uninitializedCount ≤ bound) :
    ∃ fault s', requestWithin bound 7 s
        = (.error (.initializerFailed (installed.className 7) fault), s') ∧ Resolves s s' ∧
      s'.machine.stateOf 7 = .erroneous (.initializerFailed (installed.className 7) fault) ∧
      ∃ spec ∈ s.moduleSpecs, Repeats spec fault := by
  obtain ⟨depth, t, henters, -, hanswer⟩ :=
    h.exists_request_eq Holding.modules_mem hvacant.uninitialized hbound
  obtain ⟨fault, u, hbody, hturns, hrepeats⟩ :=
    (Turns.supplies henters.unarchived henters.offline).exists_resolve_refused
      (Turns.fillable henters.unarchived) (henters.turns h hcollections) (henters.vacant hvacant)
      (by rw [henters.evolves.moduleSpecs]; exact hspecs)
  rw [henters.evolves.moduleSpecs] at hrepeats
  have hlt := Holding.lt_size_of_seeds Holding.modules_mem
    (henters.unarchived.evolves.trans hturns.advances.evolves)
  exact ⟨fault, _, hanswer hbody, hturns.resolves henters _,
    (Machine.stateOf_setState u.machine _ _ _).trans (if_pos ⟨rfl, hlt⟩), hrepeats⟩

end Granting

end Library

end ClassSharing
