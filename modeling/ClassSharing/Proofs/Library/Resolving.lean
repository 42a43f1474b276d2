import ClassSharing.Proofs.Library.Describing

/-!
# Resolving the module graph

A process that is asked for its modules initializes the module graph, and on the way the shared
empty collections if a module has no packages. Each of the two classes is computed or restored,
independently of the other: an archive may have a record of one of them only. In every case the
module graph holds the descriptors of the modules, and the collections serve whoever asks for them
next.

A module graph is resolved without an archive only if every module can be described. So a process
that has done it has shown that every other one can.

## Main definitions

* `Library.Offers`: where a process gets the archived array of a class from
* `Library.Available`: the collections can be had
* `Library.EntersGraph`: how the initializer of the module graph is entered

## Main results

* `Library.exists_request_offered`: a class whose array is offered becomes ready
* `Library.exists_request_modules`, `Library.exists_request_refused`: the module graph is resolved,
  or refused because a module lists a package twice
* `Library.nodup_of_request_modules`: the modules of a graph that was resolved
-/

namespace ClassSharing

namespace Library

open Session

/-! ### Where archived arrays come from -/

/-- A process gets the archived array of a class from its initializer, as the archive has no record
of it, or from the record of a machine on which something was known of it. -/
def Offers (b : MappedBoot) (holding : Holding) (C : Machine → ObjectId → Prop) : Prop :=
  (∃ fault, b.subgraph (installed.className holding.classId) = .error fault) ∨
    b.status.isUsing = true ∧ ∃ m kept, installed.Evolves m ∧ Recorded b holding m ∧
      holding.Derived m kept ∧ C m kept

section Requests

variable {b : MappedBoot} {specs : List ModuleSpec} {holding : Holding} {s s' : Session}
  {bound depth : Nat} {C : Machine → ObjectId → Prop}

/-- **A class is restored from the record of a machine on which something was known of it.** -/
theorem exists_request_recorded (hmem : holding ∈ Holding.all) (hC : Content holding specs C)
    (h : Underway b specs s) (huntouched : Untouched b holding s)
    (hbound : s.machine.uninitializedCount ≤ bound) (husing : b.status.isUsing = true)
    {m : Machine} {kept : ObjectId} (hm : installed.Evolves m) (hrecorded : Recorded b holding m)
    (hderived : holding.Derived m kept) (hkept : C m kept) :
    ∃ s', requestWithin bound holding.classId s = (.ok (), s') ∧
      Advances b specs [holding.classId] s s' ∧ Settled holding C s'.machine := by
  obtain ⟨s', objects, hgranted, hmoves, hready, hrestored⟩ :=
    exists_request_restored hmem husing h huntouched hbound hrecorded hm
      (hC.held hmem hderived hkept)
  exact ⟨s', hgranted, hmoves.advances List.mem_cons_self,
    hrestored.settled hready hC hm (h.evolves.trans hmoves.evolves) hkept⟩

/-- **A class gets what it is offered**, computed or restored. -/
theorem exists_request_offered (hmem : holding ∈ Holding.all) (hC : Content holding specs C)
    (h : Underway b specs s) (huntouched : Untouched b holding s) (hoffers : Offers b holding C)
    (hbound : s.machine.uninitializedCount ≤ bound) {l : Layout}
    (hstart : s.machine.objects.size = l.start) (hsize : l.elements.length = holding.size specs)
    (hcomputes : ∀ depth s₀, Moves b specs holding.classId [] s s₀ →
      Computes holding b specs (holding.compute (requestWithin depth) specs) l s₀)
    (hlayout : ∀ m : Machine, m.objects = s.machine.objects ++ l.objects.toArray → C m l.root) :
    ∃ s', requestWithin bound holding.classId s = (.ok (), s') ∧
      Advances b specs [holding.classId] s s' ∧ Settled holding C s'.machine := by
  rcases hoffers with ⟨fault, hrecord⟩ | ⟨husing, m, kept, hm, hrecorded, hderived, hkept⟩
  · obtain ⟨s', hgranted, hmoves, hready, hderived⟩ :=
      exists_request_computed hmem h huntouched hbound hrecord hstart hsize hcomputes
    exact ⟨s', hgranted, hmoves.advances List.mem_cons_self, hready, _, hderived,
      hlayout _ hmoves.objects⟩
  · exact exists_request_recorded hmem hC h huntouched hbound husing hm hrecorded hderived hkept

/-- **The boxed integers become ready.** -/
theorem exists_request_integers (h : Underway b specs s) (huntouched : Untouched b .integers s)
    (hoffers : Offers b .integers (HoldsRow 2 boxedRows))
    (hbound : s.machine.uninitializedCount ≤ bound) :
    ∃ s', requestWithin bound 3 s = (.ok (), s') ∧ Advances b specs [3] s s' ∧
      Settled .integers (HoldsRow 2 boxedRows) s'.machine :=
  exists_request_offered Holding.integers_mem (content_integers specs) h huntouched hoffers hbound
    rfl (length_row _ _)
    (fun _ _ hmoves => hmoves.start_eq rfl ▸
      computes_integers _ hmoves.hooked (h.evolves.trans hmoves.evolves))
    fun _ hobjects => holdsRow_integersLayout hobjects

/-- **The locales become ready.** -/
theorem exists_request_locales (h : Underway b specs s) (huntouched : Untouched b .locales s)
    (hoffers : Offers b .locales (HoldsRow 8 localeRows))
    (hbound : s.machine.uninitializedCount ≤ bound) :
    ∃ s', requestWithin bound 9 s = (.ok (), s') ∧ Advances b specs [9] s s' ∧
      Settled .locales (HoldsRow 8 localeRows) s'.machine :=
  exists_request_offered Holding.locales_mem (content_locales specs) h huntouched hoffers hbound rfl
    (length_row _ _)
    (fun _ _ hmoves => hmoves.start_eq rfl ▸
      computes_locales _ hmoves.hooked (h.evolves.trans hmoves.evolves))
    fun _ hobjects => holdsRow_localesLayout hobjects

/-! ### The collections -/

/-- What an initializer that has ended with an assignment has put in a field. -/
theorem static_of_assignAll {c : ClassId} {values : List (Text × Value)} {name : Text} {v : Value}
    (h : Fits s'.machine) (hassign : assignAll c values s = (.ok (), s'))
    (hdeclared : ∀ kv ∈ values, (installed.classAt c).statics.has kv.1 = true)
    (hlast : Statics.lastIn name values = some v) : s'.machine.static c name = v := by
  rw [assignAll, exceptBind_apply (machine_apply s)] at hassign
  cases hset : s.machine.setAllStatics c values with
  | error fault =>
    rw [hset] at hassign
    cases hassign
  | ok m =>
    rw [hset, exceptBind_apply (ofFault_apply m s), setMachine_apply] at hassign
    obtain ⟨-, rfl⟩ := Prod.mk.inj hassign
    have hbefore : Fits s.machine :=
      h.of_evolves (Machine.piece_setAllStatics hset).calm.evolves.symm
    have hhas : ∀ kv ∈ values, (s.machine.classAt c).statics.has kv.1 = true := by
      intro kv hkv
      rw [hbefore.has]
      exact hdeclared kv hkv
    rw [Machine.setAllStatics_eq_ok hhas] at hset
    obtain rfl := Except.ok.inj hset
    rw [machine_withMachine, Machine.static_assigned_of_declared hhas, hlast]
    rfl

/-- **An initializer of the collections that has succeeded has chosen a salt.** -/
theorem salted_of_makeCollections {seeds : SeedSource} (h : Fits s'.machine)
    (hmade : makeCollections 5 4 seeds s = (.ok (), s')) : Salted s'.machine := by
  obtain ⟨asked, s₁, -, hmade⟩ := exists_of_exceptBind_eq_ok hmade
  obtain ⟨there, s₂, -, hmade⟩ := exists_of_exceptBind_eq_ok hmade
  obtain ⟨archived, s₃, -, hmade⟩ := exists_of_exceptBind_eq_ok hmade
  obtain ⟨list, s₄, -, hmade⟩ := exists_of_exceptBind_eq_ok hmade
  obtain ⟨set, s₅, -, hassign⟩ := exists_of_exceptBind_eq_ok hmade
  have hdeclared : ∀ {salt list set : Value} {backwards : Bool}, ∀ kv ∈ [(("salt" : Text), salt),
      ("reverse", .bool backwards), ("emptyList", list), ("emptySet", set)],
        (installed.classAt 5).statics.has kv.1 = true := by
    simp only [List.forall_mem_cons]
    exact ⟨by decide, by decide, by decide, by decide, by simp⟩
  exact ⟨_, _, static_of_assignAll h hassign hdeclared rfl,
    static_of_assignAll h hassign hdeclared rfl⟩

/-- **The collections become ready**, computed or restored. -/
theorem exists_request_collections (h : Underway b specs s)
    (huntouched : Untouched b .collections s) (hoffers : Offers b .collections HoldsEmpties)
    (hbound : s.machine.uninitializedCount ≤ bound) :
    ∃ s', requestWithin bound 5 s = (.ok (), s') ∧ Advances b specs [5] s s' ∧
      Serves s'.machine := by
  obtain ⟨s', hgranted, hadvances, hsettled⟩ := exists_request_offered Holding.collections_mem
    (content_empties specs) h huntouched hoffers hbound rfl rfl
    (fun _ _ hmoves => hmoves.start_eq rfl ▸
      computes_collections _ hmoves.hooked (h.evolves.trans hmoves.evolves))
    fun _ hobjects => holdsEmpties_of_layout hobjects
  refine ⟨s', hgranted, hadvances, hsettled, ?_⟩
  obtain ⟨_, s₁, s₂, s₃, -, -, hbody, rfl⟩ :=
    exists_body_of_request Holding.collections_mem h huntouched.uninitialized hbound hgranted
  have hfinished : s₃.machine.Evolves (s₃.finish 5 (.ok ())).machine :=
    Machine.evolves_setState s₃.machine 5 .ready
  obtain ⟨salt, backwards, hsalt, hreverse⟩ :=
    salted_of_makeCollections
      (fits_of_evolves ((h.evolves.trans hadvances.evolves).trans hfinished.symm)) hbody
  exact ⟨salt, backwards, (static_finish s₃ 5 5 "salt").trans hsalt,
    (static_finish s₃ 5 5 "reverse").trans hreverse⟩

end Requests

/-! ### Having the collections -/

/-- The process can get the collections with requests of some depth. -/
structure Available (b : MappedBoot) (specs : List ModuleSpec) (depth : Nat) (s : Session) : Prop
    where
  underway : Underway b specs s
  offers : Offers b .collections HoldsEmpties
  collections : Untouched b .collections s ∧ s.machine.uninitializedCount ≤ depth ∨
    Serves s.machine

section Resolving

variable {b : MappedBoot} {specs : List ModuleSpec} {s s' : Session} {depth : Nat}

theorem not_mem_plain_resolving : ∀ k ∈ plainClasses, k ∉ [(5 : ClassId), 7] := by decide

/-- Collections that nobody has requested are not touched by the module graph. -/
theorem Untouched.collections_of_advances (h : Untouched b .collections s)
    (hevolves : installed.Evolves s.machine) (hadvances : Advances b specs [7] s s') :
    Untouched b .collections s' := by
  refine h.of_advances Holding.collections_mem hevolves hadvances (by decide) fun c hc => ?_
  rw [List.mem_singleton.1 hc]
  exact className_ne Holding.modules_mem Holding.collections_mem
    (by decide)

/-- Putting objects on the heap keeps the collections where they are. -/
theorem Available.of_filled {objects : List Object} (h : Available b specs depth s)
    (hfilled : Holding.modules.Filled b specs objects s s') : Available b specs depth s' := by
  have hadvances : Advances b specs [7] s s' :=
    (Moves.of_filled hfilled).advances List.mem_cons_self
  refine ⟨h.underway.of_advances hadvances (by decide), h.offers, ?_⟩
  rcases h.collections with ⟨huntouched, hdepth⟩ | hserves
  · refine .inl ⟨huntouched.collections_of_advances h.underway.evolves hadvances, ?_⟩
    refine (Machine.uninitializedCount_le hfilled.fills.evolves.size fun c hc => ?_).trans hdepth
    rw [← hfilled.fills.states]
    exact hc
  · exact .inr (hserves.of_advances hadvances.toAdvances (by decide))

/-- **Whoever asks for the collections gets them.** -/
theorem Available.exists_request (h : Available b specs depth s) :
    ∃ s', requestWithin depth 5 s = (.ok (), s') ∧ Advances b specs [5] s s' ∧
      Serves s'.machine := by
  rcases h.collections with ⟨huntouched, hdepth⟩ | hserves
  · exact exists_request_collections h.underway huntouched h.offers hdepth
  · have hnoted : Moves b specs 5 [] s (s.note (.granted 5)) :=
      moves_of_machine_eq (h.underway.hooked.note _) rfl rfl
    exact ⟨s.note (.granted 5), requestWithin_of_ready depth hserves.settled.1,
      hnoted.advances List.mem_cons_self, hserves⟩

theorem Available.of_request (h : Available b specs depth s) (hadvances : Advances b specs [5] s s')
    (hserves : Serves s'.machine) : Available b specs depth s' :=
  ⟨h.underway.of_advances hadvances (by decide), h.offers, .inr hserves⟩

/-- Objects that the module graph puts on the heap. -/
theorem Available.advances_of_filled {objects : List Object}
    (hfilled : Holding.modules.Filled b specs objects s s') : Advances b specs [5, 7] s s' :=
  (Moves.of_filled hfilled).advances (List.mem_cons_of_mem _ List.mem_cons_self)

/-- What a process that can get the collections may turn into while it resolves the module graph. -/
def Available.Turns (b : MappedBoot) (specs : List ModuleSpec) (depth : Nat) (s t : Session) :
    Prop :=
  Advances b specs [5, 7] s t ∧ Available b specs depth t

theorem Available.turns (h : Available b specs depth s) : Turns b specs depth s s :=
  ⟨(moves_of_machine_eq h.underway.hooked rfl rfl).advances List.mem_cons_self, h⟩

/-- **It goes on having the collections.** -/
theorem Available.supplies (s : Session) :
    Supplies (requestWithin depth) 5 Serves (Turns b specs depth s) where
  fits ht := fits_of_evolves ht.2.underway.evolves
  request := by
    rintro t ⟨hadvances, havailable⟩
    obtain ⟨t', hgranted, hasked, hserves⟩ := havailable.exists_request
    exact ⟨t', hgranted, ⟨hadvances.trans (hasked.mono (by decide)),
      havailable.of_request hasked hserves⟩, hserves, hasked.objects⟩

/-- It goes on making objects. -/
theorem Available.fillable (s : Session) : Fillable (Turns b specs depth s) := by
  rintro t objects ⟨hadvances, havailable⟩
  have hfilled : Holding.modules.Filled b specs objects t _ :=
    filled_withObjects havailable.underway.hooked objects
  exact ⟨hadvances.trans (advances_of_filled hfilled), havailable.of_filled hfilled⟩

/-! ### The module graph -/

/-- The collections may have been requested, or not. -/
def Unspoiled (b : MappedBoot) (s : Session) : Prop :=
  Untouched b .collections s ∨ Serves s.machine

theorem Available.unspoiled (h : Available b specs depth s) : Unspoiled b s :=
  h.collections.imp_left And.left

theorem Unspoiled.of_advances (h : Unspoiled b s) (hevolves : installed.Evolves s.machine)
    (hadvances : Advances b specs [7] s s') : Unspoiled b s' :=
  h.imp (fun huntouched => huntouched.collections_of_advances hevolves hadvances)
    fun hserves => hserves.of_advances hadvances.toAdvances (by decide)

/-- How a process enters the initializer of the module graph if the archive has no record of it. -/
structure EntersGraph (b : MappedBoot) (specs : List ModuleSpec) (depth : Nat) (s t : Session) :
    Prop where
  advances : Advances b specs [7] s t
  available : Available b specs depth t
  empty : t.machine.static 7 "archivedGraph" = .nil

variable {bound : Nat} {fault : Fault}

/-- **A request for a module graph that the archive does not have**: the answer is up to the
initializer. -/
theorem exists_entersGraph (h : Underway b specs s) (huntouched : Untouched b .modules s)
    (hcollections : Unspoiled b s) (hoffers : Offers b .collections HoldsEmpties)
    (hrecord : b.subgraph (installed.className 7) = .error fault)
    (hbound : s.machine.uninitializedCount ≤ bound) :
    ∃ depth t, EntersGraph b specs depth s t ∧
      (∀ {s' : Session}, resolveModuleGraph (requestWithin depth) 7 6 4 5 t = (.ok (), s') →
        requestWithin bound 7 s = (.ok (), s'.finish 7 (.ok ()))) ∧
      ∀ {s' : Session} {fault : Fault},
        resolveModuleGraph (requestWithin depth) 7 6 4 5 t = (.error (.fault fault), s') →
        requestWithin bound 7 s
          = (.error (.initializerFailed (installed.className 7) fault),
            s'.finish 7 (.error (.initializerFailed (installed.className 7) fault))) := by
  obtain ⟨depth, s₁, hdepth, hquiet, hanswer⟩ :=
    exists_request_eq Holding.modules_mem h huntouched.uninitialized hbound
  have hbegun : Moves b specs 7 [] s s₁ := moves_begin h.hooked hquiet
  obtain ⟨s₂, hconsult, hconsulted, hmachine⟩ :=
    exists_consult_unrecorded depth hquiet.hooked (h.evolves.trans hbegun.evolves) hrecord
  have hnoted : Moves b specs 7 [] s₂ (s₂.note (.entered 7)) :=
    moves_of_machine_eq (hconsulted.hooked.note _) rfl rfl
  have hadvances : Advances b specs [7] s (s₂.note (.entered 7)) :=
    ((hbegun.trans hconsulted).trans hnoted).advances List.mem_cons_self
  have hevolves : installed.Evolves s₂.machine := h.evolves.trans hadvances.evolves
  have hinitializer : (s₂.machine.classAt 7).initializer = (installed.classAt 7).initializer :=
    hevolves.initializer 7
  have hsome := initializer_ne_none Holding.modules_mem
  refine ⟨depth, s₂.note (.entered 7), ⟨hadvances, ⟨h.of_advances hadvances (by decide), hoffers,
    ?_⟩, ?_⟩, fun hresolve => ?_, fun hresolve => ?_⟩
  · refine (hcollections.of_advances h.evolves hadvances).imp_left fun huntouched =>
      ⟨huntouched, ?_⟩
    show s₂.machine.uninitializedCount ≤ depth
    rw [hmachine]
    exact hdepth
  · show s₂.machine.static 7 "archivedGraph" = .nil
    rw [hmachine]
    exact huntouched.nil_of_quiet hquiet
  · exact hanswer hconsult (enterInitializer_of_ok hinitializer hsome hresolve)
  · have hfailed := enterInitializer_of_fault hinitializer hsome hresolve
    rw [hevolves.className] at hfailed
    exact hanswer hconsult hfailed

/-- **The module graph is resolved**, computed or restored. -/
theorem exists_request_modules (h : Underway b specs s)
    (huntouched : Untouched b .modules s) (hcollections : Unspoiled b s)
    (hofferEmpties : Offers b .collections HoldsEmpties)
    (hofferGraph : Offers b .modules (HoldsGraph specs))
    (hspecs : ∀ spec ∈ specs, spec.packages.Nodup)
    (hbound : s.machine.uninitializedCount ≤ bound) :
    ∃ s', requestWithin bound 7 s = (.ok (), s') ∧ Advances b specs [5, 7] s s' ∧
      Settled .modules (HoldsGraph specs) s'.machine ∧ Unspoiled b s' := by
  rcases hofferGraph with ⟨fault, hrecord⟩ | ⟨husing, m, kept, hm, hrecorded, hderived, hkept⟩
  · obtain ⟨depth, t, henters, hanswer, -⟩ :=
      exists_entersGraph h huntouched hcollections hofferEmpties hrecord hbound
    have hsame := henters.available.underway.hooked.moduleSpecs
    obtain ⟨u, m, objects, root, hresolve, ⟨hadvances, havailable⟩, hfills, hderived, hgraph⟩ :=
      (Available.supplies t).exists_resolve (Available.fillable t) henters.available.turns
        henters.empty (by rw [hsame]; exact hspecs)
    rw [hsame] at hgraph
    have hfilled : Holding.modules.Filled b specs objects u (u.withMachine m) :=
      ⟨havailable.underway.hooked.withMachine m, rfl, hfills⟩
    have havailable' := havailable.of_filled hfilled
    have hall : Advances b specs [5, 7] s (u.withMachine m) :=
      ((henters.advances.mono (by decide)).trans hadvances).trans
        (Available.advances_of_filled hfilled)
    have hfinished : Advances b specs [7] (u.withMachine m)
        ((u.withMachine m).finish 7 (.ok ())) :=
      (moves_of_machine_eq hfilled.hooked rfl rfl).finish.advances List.mem_cons_self
    exact ⟨_, hanswer hresolve, hall.trans (hfinished.mono (by decide)),
      (content_graph specs).settled_finish (s := u.withMachine m)
        (Holding.lt_size Holding.modules_mem havailable'.underway.evolves) hderived hgraph,
      havailable'.unspoiled.of_advances havailable'.underway.evolves hfinished⟩
  · obtain ⟨s', hgranted, hadvances, hsettled⟩ := exists_request_recorded Holding.modules_mem
      (content_graph specs) h huntouched hbound husing hm hrecorded hderived hkept
    exact ⟨s', hgranted, hadvances.mono (by decide), hsettled,
      hcollections.of_advances h.evolves hadvances⟩

/-- **A module that lists a package twice** makes the class of the module graph erroneous. -/
theorem exists_request_refused (h : Underway b specs s) (huntouched : Untouched b .modules s)
    (hcollections : Unspoiled b s) (hoffers : Offers b .collections HoldsEmpties)
    (hrecord : b.subgraph (installed.className 7) = .error fault)
    (hspecs : ∃ spec ∈ specs, ¬ spec.packages.Nodup)
    (hbound : s.machine.uninitializedCount ≤ bound) :
    ∃ fault s', requestWithin bound 7 s
        = (.error (.initializerFailed (installed.className 7) fault), s') ∧
      Advances b specs [5, 7] s s' ∧ Unspoiled b s' ∧
      s'.machine.stateOf 7 = .erroneous (.initializerFailed (installed.className 7) fault) ∧
      ∃ spec ∈ specs, Repeats spec fault := by
  obtain ⟨depth, t, henters, -, hanswer⟩ :=
    exists_entersGraph h huntouched hcollections hoffers hrecord hbound
  have hsame := henters.available.underway.hooked.moduleSpecs
  obtain ⟨fault, u, hresolve, ⟨hadvances, havailable⟩, hrepeats⟩ :=
    (Available.supplies t).exists_resolve_refused (Available.fillable t) henters.available.turns
      henters.empty (by rw [hsame]; exact hspecs)
  rw [hsame] at hrepeats
  have hfinished : Advances b specs [7] u
      (u.finish 7 (.error (.initializerFailed (installed.className 7) fault))) :=
    (moves_move hadvances.hooked 7 _).advances List.mem_cons_self
  have hlt := Holding.lt_size Holding.modules_mem havailable.underway.evolves
  exact ⟨fault, _, hanswer hresolve,
    ((henters.advances.mono (by decide)).trans hadvances).trans (hfinished.mono (by decide)),
    havailable.unspoiled.of_advances havailable.underway.evolves hfinished,
    (Machine.stateOf_setState u.machine _ _ _).trans (if_pos ⟨rfl, hlt⟩), hrepeats⟩

/-! ### Graphs that were resolved -/

/-- **A module graph that was resolved without an archive** has no module that lists a package
twice. -/
theorem nodup_of_request_modules (h : Underway b specs s) (huntouched : Untouched b .modules s)
    (hcollections : Unspoiled b s) (hoffers : Offers b .collections HoldsEmpties)
    (hrecord : b.subgraph (installed.className 7) = .error fault)
    (hbound : s.machine.uninitializedCount ≤ bound)
    (hgranted : requestWithin bound 7 s = (.ok (), s')) :
    ∀ spec ∈ specs, spec.packages.Nodup := by
  by_contra hspecs
  push Not at hspecs
  obtain ⟨fault, t, hrefused, -⟩ :=
    exists_request_refused h huntouched hcollections hoffers hrecord hspecs hbound
  cases hrefused.symm.trans hgranted

end Resolving

end Library

end ClassSharing
