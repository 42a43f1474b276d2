import ClassSharing.Proofs.Library.Layout
import ClassSharing.Proofs.Library.Startup

/-!
# Computing the library's state

A process without an archive in use computes the state of the library, and what it computes depends
on the modules alone: neither the build nor the salt nor the files have a part in it. So any two
such processes have the same archived arrays, object by object.

## Main definitions

* `Library.Computes`: an operation puts the objects of a layout on the heap
* `Library.Computed`: a machine has the objects of a layout, and the statics that go with them

## Main results

* `Library.exists_requestAll_computed`: initializing the classes computes all layouts
-/

namespace ClassSharing

namespace Library

open Session

/-! ### Making the objects of a layout -/

/-- An operation puts the objects of a layout on the heap and answers the array. -/
def Computes (holding : Holding) (b : MappedBoot) (specs : List ModuleSpec)
    (compute : Run ObjectId) (l : Layout) (s : Session) : Prop :=
  ∃ s₁, compute s = (.ok l.root, s₁) ∧ holding.Filled b specs l.objects s s₁

section Making

variable {holding : Holding} {b : MappedBoot} {specs : List ModuleSpec} {s s₁ : Session}
  {l : Layout}

theorem filled_withObjects (h : Hooked b specs s) (objects : List Object) :
    holding.Filled b specs objects s (s.withMachine (s.machine.withObjects objects)) :=
  ⟨h.withMachine _, rfl, Machine.fills_withObjects _ _ _⟩

/-- The array follows its members. -/
theorem computes_of_members {members : Run (List Value)} (h : Fits s.machine)
    (hstart : s.machine.objects.size = l.start) (hmembers : members s = (.ok l.elements, s₁))
    (hfilled : holding.Filled b specs l.members s s₁) :
    Computes holding b specs (members >>= makeArray) l s := by
  have hsize : s₁.machine.objects.size = l.root := by
    rw [hfilled.fills.size, hstart, Layout.root]
  refine ⟨s₁.withMachine (s₁.machine.withObjects [arrayOf l.elements]), ?_, ?_⟩
  · rw [exceptBind_apply hmembers, makeArray_eq (h.of_evolves hfilled.fills.evolves), hsize]
  · exact hfilled.trans (filled_withObjects hfilled.hooked _)

theorem box_eq (h : Fits s.machine) (n : Int64) :
    box 2 n s = (.ok s.machine.objects.size,
      s.withMachine (s.machine.withObjects [instanceOf 2 [.int n]])) :=
  make_eq h (by decide) [("value", .int n)] rfl

theorem newLocale_eq (h : Fits s.machine) (language region : Text) :
    newLocale 8 language region s = (.ok s.machine.objects.size,
      s.withMachine (s.machine.withObjects [instanceOf 8 [.str language, .str region]])) :=
  make_eq h (by decide) [("language", .str language), ("region", .str region)] rfl

/-- An object for every member of a list, and the array of them. -/
theorem makeRow_eq {α : Type} {xs : List α} {f : α → Run Value} {object : α → Object}
    (hf : ∀ x s, Fits s.machine → f x s = (.ok (.obj s.machine.objects.size),
      s.withMachine (s.machine.withObjects [object x])))
    (h : Fits s.machine) (hstart : s.machine.objects.size = l.start)
    (hmembers : l.members = xs.map object) (helements : l.elements = row l.start xs.length) :
    (xs.mapM f >>= makeArray) s
      = (.ok l.root, s.withMachine (s.machine.withObjects l.objects)) := by
  have hsize : (s.machine.withObjects l.members).objects.size = l.root := by
    rw [Machine.size_withObjects, hstart, Layout.root]
  have hrow : xs.mapM f s = (.ok l.elements, s.withMachine (s.machine.withObjects l.members)) := by
    rw [mapM_eq hf h, hstart, hmembers, helements, row]
  rw [exceptBind_apply hrow, makeArray_eq (h.of_evolves (Machine.evolves_withObjects _ _)),
    machine_withMachine, withMachine_withMachine, Machine.withObjects_withObjects, hsize]
  rfl

theorem compute_integers_eq (request : Requester) (specs : List ModuleSpec) (h : Fits s.machine) :
    Holding.integers.compute request specs s
      = (.ok (integersLayout s.machine.objects.size).root, s.withMachine
        (s.machine.withObjects (integersLayout s.machine.objects.size).objects)) :=
  makeRow_eq (fun i _ hs => exceptBind_apply (box_eq hs (Int64.ofInt (cacheLow + i)))) h rfl rfl
    (by rw [List.length_range]; rfl)

theorem compute_locales_eq (request : Requester) (specs : List ModuleSpec) (h : Fits s.machine) :
    Holding.locales.compute request specs s
      = (.ok (localesLayout s.machine.objects.size).root, s.withMachine
        (s.machine.withObjects (localesLayout s.machine.objects.size).objects)) :=
  makeRow_eq (fun known _ hs => exceptBind_apply (newLocale_eq hs known.2.1 known.2.2)) h rfl rfl
    rfl

/-- The empty list, the empty set and the array of both. -/
theorem compute_collections_eq (request : Requester) (specs : List ModuleSpec)
    (h : Fits s.machine) :
    Holding.collections.compute request specs s
      = (.ok (collectionsLayout s.machine.objects.size).root, s.withMachine
        (s.machine.withObjects (collectionsLayout s.machine.objects.size).objects)) := by
  have hfits : ∀ objects, Fits (s.machine.withObjects objects) := fun objects =>
    h.of_evolves (Machine.evolves_withObjects _ _)
  have hset := newSet_eq (s := s.withMachine (s.machine.withObjects [arrayOf []])) (hfits _)
    (fun _ => rfl : ∀ describe, SetTable.ofElements describe [] = .ok [])
  rw [machine_withMachine, withMachine_withMachine, Machine.withObjects_withObjects,
    Machine.size_withObjects] at hset
  have harray := makeArray_eq
    (s := s.withMachine (s.machine.withObjects (collectionsLayout s.machine.objects.size).members))
    (hfits _) (collectionsLayout s.machine.objects.size).elements
  rw [machine_withMachine, withMachine_withMachine, Machine.withObjects_withObjects,
    Machine.size_withObjects] at harray
  refine (exceptBind_apply (makeArray_eq h [])).trans ?_
  rw [exceptBind_apply hset]
  exact harray

/-- What is made where it can be said at once. -/
theorem Computes.of_eq {compute : Run ObjectId} (h : Hooked b specs s)
    (heq : compute s = (.ok l.root, s.withMachine (s.machine.withObjects l.objects))) :
    Computes holding b specs compute l s :=
  ⟨_, heq, filled_withObjects h _⟩

theorem computes_integers (request : Requester) (h : Hooked b specs s)
    (hevolves : installed.Evolves s.machine) :
    Computes .integers b specs (Holding.integers.compute request specs)
      (integersLayout s.machine.objects.size) s :=
  .of_eq h (compute_integers_eq request specs (fits_of_evolves hevolves))

theorem computes_collections (request : Requester) (h : Hooked b specs s)
    (hevolves : installed.Evolves s.machine) :
    Computes .collections b specs (Holding.collections.compute request specs)
      (collectionsLayout s.machine.objects.size) s :=
  .of_eq h (compute_collections_eq request specs (fits_of_evolves hevolves))

theorem computes_locales (request : Requester) (h : Hooked b specs s)
    (hevolves : installed.Evolves s.machine) :
    Computes .locales b specs (Holding.locales.compute request specs)
      (localesLayout s.machine.objects.size) s :=
  .of_eq h (compute_locales_eq request specs (fits_of_evolves hevolves))

/-! ### Modules -/

/-- What a module needs to be described: the shared empty set is there. -/
structure SharesSet (m : Machine) : Prop where
  evolves : installed.Evolves m
  ready : m.stateOf 5 = .ready
  field : m.static 5 "emptySet" = .obj sharedSet

theorem SharesSet.of_filled {objects : List Object} (h : SharesSet s.machine)
    (hfilled : Holding.modules.Filled b specs objects s s₁) : SharesSet s₁.machine where
  evolves := h.evolves.trans hfilled.fills.evolves
  ready := by rw [hfilled.fills.states]; exact h.ready
  field := by rw [hfilled.fills.static (by decide)]; exact h.field

theorem emptySet_eq (depth : Nat) (h : SharesSet s.machine) :
    emptySet (requestWithin depth) 5 s = (.ok (some sharedSet), s.note (.granted 5)) := by
  have hrequire := require_eq (requestWithin_of_ready depth h.ready)
  have hfield : (s.note (.granted 5)).machine.static 5 "emptySet" = .obj sharedSet := h.field
  rw [emptySet, exceptBind_apply hrequire, exceptBind_apply (machine_apply _), hfield]
  rfl

/-- The packages of a module. -/
theorem exists_setOf (depth : Nat) {spec : ModuleSpec} (hspec : spec.packages.Nodup)
    (h : Hooked b specs s) (hshares : SharesSet s.machine) :
    ∃ objects packages s₁,
      setOf (requestWithin depth) 4 5 (spec.packages.map Value.str) s = (.ok (some packages), s₁) ∧
      Holding.modules.Filled b specs objects s s₁ ∧
      objects ++ [descriptorOf spec packages] = moduleObjects s.machine.objects.size spec := by
  rw [setOf, List.isEmpty_map]
  by_cases hempty : spec.packages.isEmpty = true
  · refine ⟨[], sharedSet, s.note (.granted 5), ?_, ⟨h.note _, rfl, Machine.fills_refl _ _⟩, ?_⟩
    · rw [if_pos hempty]
      exact emptySet_eq depth hshares
    · rw [moduleObjects, if_pos hempty]
      rfl
  · have hset := newSet_eq (fits_of_evolves hshares.evolves) (packageTable_eq hspec).1
    rw [List.length_map] at hset
    refine ⟨[arrayOf (packageTable spec),
      instanceOf 4 [.obj s.machine.objects.size, .int (Int64.ofNat spec.packages.length)]],
      s.machine.objects.size + 1, _, ?_, filled_withObjects h _, ?_⟩
    · rw [if_neg hempty]
      exact exceptBind_apply hset
    · rw [moduleObjects, if_neg hempty]
      rfl

/-- The descriptor of a module. -/
theorem exists_describeModule (depth : Nat) {spec : ModuleSpec} (hspec : spec.packages.Nodup)
    (h : Hooked b specs s) (hshares : SharesSet s.machine) :
    ∃ s₁, describeModule (requestWithin depth) 6 4 5 spec s
        = (.ok (.obj (s.machine.objects.size
          + (moduleObjects s.machine.objects.size spec).length - 1)), s₁) ∧
      Holding.modules.Filled b specs (moduleObjects s.machine.objects.size spec) s s₁ := by
  obtain ⟨objects, packages, s₁, hset, hfilled, hobjects⟩ := exists_setOf depth hspec h hshares
  have hmake := make_eq (fits_of_evolves (hshares.of_filled hfilled).evolves) (c := 6) (by decide)
    [("name", .str spec.name), ("loader", .str spec.loader.name), ("packages", .obj packages)] rfl
  refine ⟨s₁.withMachine (s₁.machine.withObjects [descriptorOf spec packages]), ?_, ?_⟩
  · have hlength : s.machine.objects.size + (moduleObjects s.machine.objects.size spec).length - 1
        = s₁.machine.objects.size := by
      rw [← hobjects, hfilled.fills.size, List.length_append, List.length_singleton]
      rfl
    rw [hlength, describeModule, exceptBind_apply (tryCatch_apply hset)]
    exact exceptBind_apply hmake
  · rw [← hobjects]
    exact hfilled.trans (filled_withObjects hfilled.hooked _)

/-- The descriptors of modules, one after another. -/
theorem exists_describeModules (depth : Nat) {modules : List ModuleSpec}
    (hmodules : ∀ spec ∈ modules, spec.packages.Nodup) (h : Hooked b specs s)
    (hshares : SharesSet s.machine) :
    ∃ s₁, modules.mapM (describeModule (requestWithin depth) 6 4 5) s
        = (.ok (descriptorsFrom s.machine.objects.size modules), s₁) ∧
      Holding.modules.Filled b specs (modulesFrom s.machine.objects.size modules) s s₁ := by
  induction modules generalizing s with
  | nil => exact ⟨s, rfl, Holding.filled_refl h⟩
  | cons spec rest ih =>
    obtain ⟨hspec, hrest⟩ := List.forall_mem_cons.1 hmodules
    obtain ⟨s₁, hfirst, hfilled⟩ := exists_describeModule depth hspec h hshares
    obtain ⟨s₂, hothers, hfilled₂⟩ := ih hrest hfilled.hooked (hshares.of_filled hfilled)
    rw [hfilled.fills.size] at hothers hfilled₂
    refine ⟨s₂, ?_, hfilled.trans hfilled₂⟩
    rw [List.mapM_cons, exceptBind_apply hfirst, exceptBind_apply hothers]
    rfl

theorem computes_modules (depth : Nat) (hspecs : ∀ spec ∈ specs, spec.packages.Nodup)
    (h : Hooked b specs s) (hshares : SharesSet s.machine)
    (hstart : s.machine.objects.size = (modulesLayout specs).start) :
    Computes .modules b specs (Holding.modules.compute (requestWithin depth) specs)
      (modulesLayout specs) s := by
  obtain ⟨s₁, hmembers, hfilled⟩ := exists_describeModules depth hspecs h hshares
  rw [hstart] at hmembers hfilled
  exact computes_of_members (fits_of_evolves hshares.evolves) hstart hmembers hfilled

/-! ### Initializing a class -/

/-- The array of a layout that has been put on the heap. -/
theorem objectAt_root {m m' : Machine} {c : ClassId} (h : Machine.Fills c l.objects m m')
    (hstart : m.objects.size = l.start) : m'.objectAt l.root = arrayOf l.elements := by
  rw [Layout.root, ← hstart, Machine.objectAt_append h.objects, Layout.objects,
    List.getElem?_append_right (Nat.le_refl _)]
  simp

theorem provides_of_computes (hmem : holding ∈ Holding.all) {compute : Run ObjectId}
    (h : installed.Evolves s.machine)
    (hnil : s.machine.static holding.classId holding.field = .nil)
    (hstart : s.machine.objects.size = l.start) (hsize : l.elements.length = holding.size specs)
    (hcomputes : Computes holding b specs compute l s) :
    holding.Provides b specs compute l.objects l.root s := by
  obtain ⟨s₁, hcompute, hfilled⟩ := hcomputes
  have hroot := objectAt_root hfilled.fills hstart
  refine Holding.provides_of_nil hmem (fits_of_evolves h) hnil hcompute hfilled ?_ ?_
  · rw [hroot]
    rfl
  · rw [hroot]
    exact hsize

/-- Consulting the archive about a class that it does not have. -/
theorem exists_consult_unrecorded (depth : Nat) (h : Hooked b specs s)
    (hevolves : installed.Evolves s.machine) {c : ClassId} {fault : Fault}
    (hrecord : b.subgraph (installed.className c) = .error fault) :
    ∃ s', consultHook (requestWithin depth) c s = ((), s') ∧ Moves b specs c [] s s' ∧
      s'.machine = s.machine := by
  obtain ⟨s', hconsult, hhooked, hmachine, houtcomes⟩ :=
    consultHook_of_no_record (requestWithin depth) h (c := c)
      (by rw [hevolves.className]; exact hrecord)
  exact ⟨s', hconsult, moves_of_outcomes_eq hhooked hmachine houtcomes, hmachine⟩

/-- A class whose initialization has begun is still empty when the archive has been consulted. -/
theorem Untouched.nil_of_quiet (h : Untouched b holding s)
    (hquiet : Quiet b specs (s.begin holding.classId) s₁) :
    s₁.machine.static holding.classId holding.field = .nil := by
  have hbegun : (s.begin holding.classId).machine.static holding.classId holding.field = .nil :=
    (congrArg (Statics.get · holding.field) (Machine.statics_setState s.machine _ _ _)).trans
      h.empty
  rw [hquiet.readied.static, hbegun]

/-- **A request for a class with archived state that the archive does not have.** -/
theorem exists_request_computed {bound : Nat} (hmem : holding ∈ Holding.all)
    (h : Underway b specs s) (huntouched : Untouched b holding s)
    (hbound : s.machine.uninitializedCount ≤ bound) {fault : Fault}
    (hrecord : b.subgraph (installed.className holding.classId) = .error fault)
    (hstart : s.machine.objects.size = l.start) (hsize : l.elements.length = holding.size specs)
    (hcomputes : ∀ depth s₀, Moves b specs holding.classId [] s s₀ →
      Computes holding b specs (holding.compute (requestWithin depth) specs) l s₀) :
    ∃ s', requestWithin bound holding.classId s = (.ok (), s') ∧
      Moves b specs holding.classId l.objects s s' ∧
      s'.machine.stateOf holding.classId = .ready ∧ holding.Derived s'.machine l.root := by
  obtain ⟨depth, s₁, -, hquiet, hfinish⟩ :=
    exists_request hmem h huntouched.uninitialized hbound
  have hbegun : Moves b specs holding.classId [] s s₁ := moves_begin h.hooked hquiet
  obtain ⟨s₂, hconsult, hconsulted, hmachine⟩ :=
    exists_consult_unrecorded depth hquiet.hooked (h.evolves.trans hbegun.evolves) hrecord
  have hmoves : Moves b specs holding.classId [] s s₂ := hbegun.trans hconsulted
  have hnil : s₂.machine.static holding.classId holding.field = .nil := by
    rw [hmachine]
    exact huntouched.nil_of_quiet hquiet
  have hstart₂ : s₂.machine.objects.size = l.start := by
    rw [hmoves.objects]
    simpa using hstart
  have hprovides : ∀ s₀, Hooked b specs s₀ → s₀.machine = s₂.machine → s₀.graphs = s₂.graphs →
      holding.Provides b specs (holding.compute (requestWithin depth) specs) l.objects l.root
        s₀ := by
    intro s₀ hhooked₀ hmachine₀ hgraphs₀
    have hmoves₀ : Moves b specs holding.classId [] s s₀ :=
      hmoves.trans (moves_of_machine_eq hhooked₀ hmachine₀ hgraphs₀)
    exact provides_of_computes hmem (h.evolves.trans hmoves₀.evolves) (by rw [hmachine₀, hnil])
      (by rw [hmachine₀, hstart₂]) hsize (hcomputes depth s₀ hmoves₀)
  have hinitializes := Holding.initializes (s := s₂.note (.entered holding.classId)) hmem
    (hmoves.hooked.note _) (h.evolves.trans hmoves.evolves) hprovides
  obtain ⟨s', hgranted, hall, -, -, hrest⟩ := hfinish hconsult hconsulted hinitializes
  exact ⟨s', hgranted, hall, hrest⟩

end Making

/-! ### Initializing all classes -/

/-- The class is ready, its archived array and the other objects of its layout are in their places,
and its statics are the ones that go with the array. -/
structure Computed (holding : Holding) (l : Layout) (m : Machine) : Prop where
  ready : m.stateOf holding.classId = .ready
  derived : holding.Derived m l.root
  placed : ∀ node ∈ l.nodes, m.objectAt node.2 = node.1
  bound : l.stop ≤ m.objects.size

/-- The classes with archived state and their layouts. -/
def layouts (specs : List ModuleSpec) : List (Holding × Layout) :=
  [(.integers, integersLayout 0), (.collections, collectionsLayout 257),
    (.modules, modulesLayout specs), (.locales, localesLayout (modulesLayout specs).stop)]

section All

variable {holding : Holding} {b : MappedBoot} {specs : List ModuleSpec} {s s' : Session}
  {l : Layout} {c : ClassId} {objects : List Object}

theorem sound_layouts (h : Resolvable specs) : ∀ p ∈ layouts specs, p.2.Sound := by
  simp only [layouts, List.forall_mem_cons]
  exact ⟨sound_integersLayout _, sound_collectionsLayout _, sound_modulesLayout h,
    sound_localesLayout _, by simp⟩

theorem Layout.Sound.lt_stop (h : l.Sound) {node : Object × ObjectId} (hnode : node ∈ l.nodes) :
    node.2 < l.stop := by
  rcases Layout.mem_nodes.1 (List.mem_map_of_mem hnode) with ⟨-, hlt⟩ | hshared
  · exact hlt
  · obtain ⟨other, hother, heq⟩ := List.mem_map.1 hshared
    rw [← heq]
    exact (h.earlier other hother).trans_le ((Nat.le_add_right _ _).trans (Nat.le_succ _))

/-- The archived field leads to the objects of the layout. -/
theorem Computed.spans {m : Machine} (h : Computed holding l m) (hsound : l.Sound) :
    m.Spans l.nodes l.root where
  placed := h.placed
  root := Layout.mem_nodes.2 (.inl ⟨Nat.le_add_right _ _, Nat.lt_succ_self _⟩)
  closed := hsound.closed

theorem Computed.field {m : Machine} (h : Computed holding l m) (hmem : holding ∈ Holding.all) :
    [holding.field].map (m.static holding.classId) = [.obj l.root] :=
  congrArg (fun v => [v]) (h.derived _ (Holding.field_mem_sources hmem))

/-- Every object behind the archived field has a class of the library. -/
theorem Computed.made {m : Machine} (h : Computed holding l m) (hsound : l.Sound) {o : ObjectId}
    (ho : m.Reaches [.obj l.root] o) : Made (m.objectAt o) :=
  hsound.made _ ((h.spans hsound).object_mem ho)

/-- The objects of a class stay in their places while other classes are initialized. -/
theorem Computed.of_moves (h : Computed holding l s.machine) (hsound : l.Sound)
    (hmoves : Moves b specs c objects s s') (hne : holding.classId ≠ c) :
    Computed holding l s'.machine where
  ready := hmoves.ready hne h.ready
  derived := hmoves.derived hne (Nat.lt_of_lt_of_le (Nat.lt_succ_self _) h.bound) h.derived
  placed node hnode := by
    rw [hmoves.objectAt ((hsound.lt_stop hnode).trans_le h.bound)]
    exact h.placed node hnode
  bound := h.bound.trans hmoves.size_le

/-- **One class after another.** A class is computed if what its objects share is there, and the
classes that are pending besides it still are. -/
theorem exists_step_computed {rest : List Holding} (hsuffix : holding :: rest <:+ Holding.all)
    (hunmapped : ∀ name, ∃ fault, b.subgraph name = .error fault)
    (h : Pending b specs (holding :: rest) s)
    (hstart : s.machine.objects.size = l.start) (hsize : l.elements.length = holding.size specs)
    (hsound : l.Sound) (hshared : ∀ node ∈ l.shared, s.machine.objectAt node.2 = node.1)
    (hcomputes : ∀ depth s₀, Moves b specs holding.classId [] s s₀ →
      Computes holding b specs (holding.compute (requestWithin depth) specs) l s₀) :
    ∃ s', request holding.classId s = (.ok (), s') ∧
      Moves b specs holding.classId l.objects s s' ∧ Pending b specs rest s' ∧
      Computed holding l s'.machine ∧ s'.machine.objects.size = l.stop := by
  obtain ⟨fault, hrecord⟩ := hunmapped (installed.className holding.classId)
  obtain ⟨s', hgranted, hmoves, hready, hderived⟩ :=
    exists_request_computed (hsuffix.subset List.mem_cons_self) h.toUnderway
      (h.untouched holding List.mem_cons_self) (Nat.le_refl _) hrecord hstart hsize hcomputes
  have hstop : s'.machine.objects.size = l.stop := by
    rw [hmoves.objects, Array.size_append, hstart, List.size_toArray, Layout.length_objects]
    rfl
  refine ⟨s', hgranted, hmoves, h.of_moves hsuffix hmoves, ⟨hready, hderived, ?_, hstop.ge⟩, hstop⟩
  intro node hnode
  rcases List.mem_append.1 hnode with hnode | hnode
  · obtain ⟨hle, hget⟩ := List.mem_zipIdx_iff_le_and_getElem?_sub.1 hnode
    have hobject := Machine.objectAt_append hmoves.objects (node.2 - l.start)
    rw [hstart, Nat.add_sub_cancel' hle, hget] at hobject
    exact hobject
  · rw [hmoves.objectAt (hstart ▸ hsound.earlier node hnode)]
    exact hshared node hnode

/-- What the computed collections share with the modules. -/
theorem Computed.sharesSet {m : Machine} (h : Computed .collections (collectionsLayout 257) m)
    (hevolves : installed.Evolves m) : SharesSet m where
  evolves := hevolves
  ready := h.ready
  field := by
    have hroot :
        m.objectAt (collectionsLayout 257).root = arrayOf (collectionsLayout 257).elements :=
      h.placed (arrayOf (collectionsLayout 257).elements, 260) (by decide)
    have hfield := h.derived ("emptySet", .element 1) (by decide)
    rw [Source.value, hroot] at hfield
    exact hfield

theorem stop_integersLayout : (integersLayout 0).stop = 257 := by
  rw [Layout.stop, Layout.root, integersLayout, List.length_map, List.length_range]
  decide

theorem shared_subset {node : Object × ObjectId} (h : node ∈ (modulesLayout specs).shared) :
    node ∈ (collectionsLayout 257).nodes := by
  rw [modulesLayout] at h
  split at h
  · simp only [List.mem_cons, List.not_mem_nil, or_false] at h
    rcases h with rfl | rfl <;> decide
  · cases h

theorem Moves.sharesSet (h : Moves b specs c objects s s') (hc : 5 ≠ c)
    (hshares : SharesSet s.machine) : SharesSet s'.machine where
  evolves := hshares.evolves.trans h.evolves
  ready := h.ready hc hshares.ready
  field := by rw [Machine.static, h.statics 5 hc]; exact hshares.field

theorem Moves.start_eq {start : ObjectId} (h : Moves b specs c [] s s')
    (hstart : s.machine.objects.size = start) : s'.machine.objects.size = start := by
  rw [h.objects]
  simpa using hstart

/-- **A process without an archive computes the state of the library**, and what it computes depends
on the modules alone. -/
theorem exists_requestAll_computed (hspecs : Resolvable specs)
    (hunmapped : ∀ name, ∃ fault, b.subgraph name = .error fault)
    (h : Pending b specs Holding.all s) (hempty : s.machine.objects.size = 0) :
    ∃ s', requestAll standard s = (.ok (), s') ∧ Pending b specs [] s' ∧
      s'.machine.linkage = s.machine.linkage ∧
      ∀ p ∈ layouts specs, Computed p.1 p.2 s'.machine := by
  have hsound := sound_layouts hspecs
  simp only [layouts, List.forall_mem_cons] at hsound
  obtain ⟨hintegers, hcollections, hmodules, hlocales, -⟩ := hsound
  -- The integers and the collections are the same in every process.
  obtain ⟨s₁, hgranted₁, hmoves₁, h₁, hcomputed₁, hstop₁⟩ :=
    exists_step_computed List.suffix_rfl hunmapped h hempty (length_row _ _) hintegers
      (by simp [integersLayout]) fun _ _ hmoves =>
        hmoves.start_eq hempty ▸
          computes_integers _ hmoves.hooked (h.evolves.trans hmoves.evolves)
  rw [stop_integersLayout] at hstop₁
  obtain ⟨s₂, hgranted₂, hmoves₂, h₂, hcomputed₂, hstop₂⟩ :=
    exists_step_computed ⟨[.integers], rfl⟩ hunmapped h₁ hstop₁ rfl hcollections
      (by simp [collectionsLayout]) fun _ _ hmoves =>
        hmoves.start_eq hstop₁ ▸
          computes_collections _ hmoves.hooked (h₁.evolves.trans hmoves.evolves)
  -- The modules may share the empty set, which is ready now.
  have hshares : SharesSet s₂.machine := hcomputed₂.sharesSet h₂.evolves
  obtain ⟨s₃, hgranted₃, hmoves₃, h₃, hcomputed₃, hstop₃⟩ :=
    exists_step_computed ⟨[.integers, .collections], rfl⟩ hunmapped h₂ hstop₂
      (length_descriptorsFrom _ _) hmodules
      (fun node hnode => hcomputed₂.placed node (shared_subset hnode)) fun depth _ hmoves =>
        computes_modules depth (fun spec hspec => (hspecs.describable spec hspec).distinct)
          hmoves.hooked (hmoves.sharesSet (by decide) hshares) (hmoves.start_eq hstop₂)
  obtain ⟨s₄, hgranted₄, hmoves₄, h₄, hcomputed₄, -⟩ :=
    exists_step_computed ⟨[.integers, .collections, .modules], rfl⟩ hunmapped h₃ hstop₃
      (length_row _ _) hlocales (by simp [localesLayout]) fun _ _ hmoves =>
        hmoves.start_eq hstop₃ ▸
          computes_locales _ hmoves.hooked (h₃.evolves.trans hmoves.evolves)
  refine ⟨s₄, ?_, h₄, ?_, ?_⟩
  · refine (requestEach_cons hgranted₁).trans ((requestEach_cons hgranted₂).trans ?_)
    exact (requestEach_cons hgranted₃).trans (requestEach_cons hgranted₄)
  · rw [hmoves₄.linkage, hmoves₃.linkage, hmoves₂.linkage, hmoves₁.linkage]
  · simp only [layouts, List.forall_mem_cons]
    refine ⟨?_, ?_, ?_, hcomputed₄, by simp⟩
    · exact ((hcomputed₁.of_moves hintegers hmoves₂ (by decide)).of_moves hintegers hmoves₃
        (by decide)).of_moves hintegers hmoves₄ (by decide)
    · exact (hcomputed₂.of_moves hcollections hmoves₃ (by decide)).of_moves hcollections hmoves₄
        (by decide)
    · exact hcomputed₃.of_moves hmodules hmoves₄ (by decide)

end All

end Library

end ClassSharing
