import ClassSharing.Proofs.Library.Computing

/-!
# Restoring the library's state

A process that uses an archive of the library's state restores the archived arrays, and its
initializers keep them. The classes that the records need have nothing to do when they are
initialized, so what is restored is what was archived.

## Main definitions

* `Library.Archives`: the archive has the state of the library as a machine had it
* `Library.Restored`: a class has been restored from the archive

## Main results

* `Library.exists_requestAll_restored`: initializing the classes restores all of them
-/

namespace ClassSharing

open Image

open Cbor (maxLength)

namespace Library

open Session

/-! ### Archives of the library -/

/-- The archived field of a class holds an array of the right size, and only objects of the library
are behind it. -/
structure Held (holding : Holding) (specs : List ModuleSpec) (m : Machine) (root : ObjectId) :
    Prop where
  has : holding.Has specs m root
  shaped : ∀ o, m.Reaches [.obj root] o → Shaped (m.objectAt o)

/-- The archive has the archived array of a class as it was on the machine `m`. -/
def Recorded (b : MappedBoot) (holding : Holding) (m : Machine) : Prop :=
  ∃ found r, m.Collected holding.classId [holding.field] found r ∧ found.length ≤ maxLength ∧
    b.subgraph (installed.className holding.classId) = .ok (some r)

/-- The archive has the archived arrays as they were on the machine `m`, and nothing about the
classes of the library's objects. -/
structure Archives (b : MappedBoot) (m : Machine) : Prop where
  recorded : ∀ holding ∈ Holding.all, Recorded b holding m
  unrecorded : ∀ k ∈ plainClasses, ∃ fault, b.subgraph (installed.className k) = .error fault

section Restoring

variable {holding : Holding} {b : MappedBoot} {specs : List ModuleSpec} {s : Session} {l : Layout}
  {m : Machine} {kept : ObjectId}

/-- Requests for classes that have nothing to do are granted. -/
theorem exists_granted (depth : Nat) {names : List Text}
    (hnames : ∀ name ∈ names, ∃ k ∈ plainClasses, installed.lookup name = some k)
    (h : Hooked b specs s) (hdepth : s.machine.uninitializedCount ≤ depth)
    (hevolves : installed.Evolves s.machine) (hplain : ∀ k ∈ plainClasses, Plain b s.machine k) :
    ∃ prepared, Granted (requestWithin depth) names s prepared ∧ Quiet b specs s prepared := by
  induction names generalizing s with
  | nil => exact ⟨s, .nil s, quiet_of_machine_eq h rfl rfl⟩
  | cons name rest ih =>
    obtain ⟨⟨k, hk, hlookup⟩, hrest⟩ := List.forall_mem_cons.1 hnames
    obtain ⟨s₁, hgranted, hquiet, -⟩ := exists_request_plain h hdepth (hplain k hk)
      (superclass_plain hevolves hk (hplain 0 (by decide)))
    obtain ⟨prepared, hothers, hquiet'⟩ := ih hrest hquiet.hooked
      (hquiet.readied.uninitializedCount_le.trans hdepth) (hevolves.trans hquiet.readied.evolves)
      fun k hk => (hplain k hk).of_readied hquiet.readied
    refine ⟨prepared, .cons ?_ hgranted hothers, hquiet.trans hquiet'⟩
    rw [hevolves.lookup, hlookup]

theorem lookup_plain {k : ClassId} (hk : k ∈ plainClasses) :
    installed.lookup (installed.className k) = some k := by
  have hlookup : ∀ k ∈ plainClasses, installed.lookup (installed.className k) = some k := by decide
  exact hlookup k hk

theorem mem_plainClasses_of_made {k : ClassId} (hk : k ∈ madeClasses) : k ∈ plainClasses :=
  List.mem_cons_of_mem 0 hk

/-- What has been computed is held. -/
theorem Computed.held (h : Computed holding l m) (hmem : holding ∈ Holding.all) (hsound : l.Sound)
    (hsize : l.elements.length = holding.size specs) : Held holding specs m l.root := by
  have harray : m.objectAt l.root = arrayOf l.elements := by
    refine h.placed (arrayOf l.elements, l.root) (List.mem_append_left _ ?_)
    refine List.mem_zipIdx_iff_le_and_getElem?_sub.2 ⟨Nat.le_add_right _ _, ?_⟩
    simp [Layout.root, Layout.objects]
  refine ⟨⟨h.derived _ (Holding.field_mem_sources hmem), ?_, ?_⟩, fun o ho => ?_⟩
  · rw [harray]
    rfl
  · rw [harray]
    exact hsize
  · exact (h.made hsound ho).shaped

theorem Held.roots (h : Held holding specs m kept) :
    [holding.field].map (m.static holding.classId) = [.obj kept] :=
  congrArg (fun v => [v]) h.has.field

/-- The class of an object of the library. -/
theorem Shaped.exists_class {o : ObjectId} (h : Shaped (m.objectAt o))
    (hevolves : installed.Evolves m) :
    ∃ k ∈ plainClasses, m.classNameOf o = installed.className k ∧
      (installed.classAt k).slotCount = (m.objectAt o).slots.length := by
  obtain ⟨k, hk, hclass, hslots⟩ := h
  refine ⟨k, mem_plainClasses_of_made hk, ?_, hslots.symm⟩
  rw [Machine.classNameOf, hclass]
  exact hevolves.className k

/-- The names of the classes that a record needs are names of classes that have nothing to do. -/
theorem Held.plain_of_mem_classes (h : Held holding specs m kept) (hevolves : installed.Evolves m)
    {found : List ObjectId} {r : Subgraph}
    (hcollected : m.Collected holding.classId [holding.field] found r) :
    ∀ name ∈ r.classes.getD [], ∃ k ∈ plainClasses, installed.lookup name = some k := by
  intro name hname
  obtain ⟨-, o, ho, rfl⟩ := (hcollected.mem_classes name).1 hname
  rw [hcollected.mem_found, h.roots] at ho
  obtain ⟨k, hk, hclass, -⟩ := (h.shaped o ho).exists_class hevolves
  exact ⟨k, hk, by rw [hclass, lookup_plain hk]⟩

/-- **A process that uses the archive accepts the records of the library.** -/
theorem exists_accepts (depth : Nat) (hmem : holding ∈ Holding.all)
    (husing : b.status.isUsing = true) (h : Hooked b specs s)
    (hdepth : s.machine.uninitializedCount ≤ depth)
    (hevolves : installed.Evolves s.machine) (hplain : ∀ k ∈ plainClasses, Plain b s.machine k)
    (hfresh : s.outcome (installed.className holding.classId) = none)
    (hm : installed.Evolves m) (hheld : Held holding specs m kept)
    {found : List ObjectId} {r : Subgraph}
    (hcollected : m.Collected holding.classId [holding.field] found r)
    (hrecord : b.subgraph (installed.className holding.classId) = .ok (some r)) :
    ∃ prepared, Quiet b specs s prepared ∧ Accepts (requestWithin depth) 0 s holding.classId m
      holding.classId [holding.field] r prepared := by
  obtain ⟨s₁, hasked, hhooked₁, hmachine₁, hgraphs₁⟩ := h.isUsing
  obtain ⟨s₂, hsubgraph, hhooked₂, hmachine₂, hgraphs₂⟩ :=
    hhooked₁.archivedSubgraph (installed.className holding.classId)
  have hmachine : s₂.machine = s.machine := hmachine₂.trans hmachine₁
  have hname : m.className holding.classId = installed.className holding.classId :=
    hm.className holding.classId
  obtain ⟨prepared, hgranted, hquiet⟩ := exists_granted depth
    (hheld.plain_of_mem_classes hm hcollected) hhooked₂
    (by rw [hmachine]; exact hdepth)
    (by rw [hmachine]; exact hevolves) (by rw [hmachine]; exact hplain)
  have hquiet' : Quiet b specs s prepared :=
    (quiet_of_machine_eq hhooked₂ hmachine (hgraphs₂.trans hgraphs₁)).trans hquiet
  refine ⟨prepared, hquiet', ?_⟩
  constructor
  · rw [hasked]
    exact husing
  · rw [hasked, hname, hsubgraph, hrecord]
  · rw [hname]
    exact hfresh
  · exact hevolves.wellNamed wellNamed_installed
  · rw [hname, hevolves.lookup, lookup_holding hmem]
  · intro name hfield
    rw [List.mem_singleton.1 hfield]
    exact Holding.has_field hmem (fits_of_evolves hevolves)
  · intro o ho
    rw [hheld.roots] at ho
    obtain ⟨k, hk, hclass, hslots⟩ := (hheld.shaped o ho).exists_class hm
    refine ⟨k, by rw [hclass, hevolves.lookup, lookup_plain hk], ?_⟩
    rw [hevolves.slotCount, hslots]
  · rw [hasked, hname, hsubgraph]
    exact hgranted
  · intro outcome houtcome
    have hunrecorded := (hquiet'.outcomes _ _ hrecord).trans hfresh
    rw [hname] at houtcome
    rw [Session.outcome, houtcome] at hunrecorded
    cases hunrecorded

/-! ### Restoring a class -/

/-- The graph behind an object of the machine `m'` is the one that is kept on `m`. -/
structure Mirrors (m : Machine) (kept : ObjectId) (m' : Machine) (root : ObjectId) : Prop where
  same : ∃ f, Machine.SameGraph m m' [.obj kept] [.obj root] f
  bounded : ∀ o, m'.Reaches [.obj root] o → o < m'.objects.size

/-- What is on the heap stays there. -/
theorem Moves.mirrors {c : ClassId} {objects : List Object} {s' : Session} {root : ObjectId}
    (h : Moves b specs c objects s s') (hmirrors : Mirrors m kept s.machine root) :
    Mirrors m kept s'.machine root := by
  obtain ⟨f, hsame⟩ := hmirrors.same
  have hobjects : ∀ o, s.machine.Reaches [.obj root] o →
      s'.machine.objectAt o = s.machine.objectAt o := fun o ho => h.objectAt (hmirrors.bounded o ho)
  have hstays := Machine.SameGraph.of_agree hobjects fun o ho =>
    Machine.classNameOf_eq h.evolves.className (hobjects o ho)
  refine ⟨⟨_, hsame.trans hstays⟩, fun o ho => ?_⟩
  obtain ⟨p, hp, rfl⟩ := hstays.bijOn.surjOn ho
  exact (hmirrors.bounded p hp).trans_le h.size_le

/-- A restored array is one that the initializer keeps. -/
theorem Holding.Has.of_sameGraph {m' : Machine} {root : ObjectId} {f : ObjectId → ObjectId}
    (h : holding.Has specs m kept) (hm : installed.Evolves m) (hm' : installed.Evolves m')
    (hfield : m'.static holding.classId holding.field = .obj root)
    (hsame : Machine.SameGraph m m' [.obj kept] [.obj root] f) : holding.Has specs m' root := by
  have hroot : root = f kept := hsame.root_eq
  have hreached : m.Reaches [.obj kept] kept := .root List.mem_cons_self
  refine ⟨hfield, ?_, ?_⟩
  · rw [hroot]
    exact classId_of_classNameOf hm hm' (by decide) h.classId (hsame.classNames kept hreached)
  · rw [← h.size, hroot, Object.elementList, Object.elementList, hsame.elements kept hreached]
    cases (m.objectAt kept).elements <;> simp

/-- What restoration puts at the end of the heap mirrors what was archived. -/
theorem Held.exists_mirrors {m' : Machine} {start : Nat} {found : List ObjectId} {r : Subgraph}
    (h : Held holding specs m kept)
    (hcollected : m.Collected holding.classId [holding.field] found r)
    (hsame : Machine.SameGraph m m' ([holding.field].map (m.static holding.classId))
      ([holding.field].map (m'.static holding.classId)) (Machine.placedAt start found))
    (hsize : m'.objects.size = start + found.length) :
    ∃ root, m'.static holding.classId holding.field = .obj root ∧ Mirrors m kept m' root := by
  rw [h.roots] at hsame
  have hfield : m'.static holding.classId holding.field
      = .obj (Machine.placedAt start found kept) := List.singleton_inj.1 hsame.renamed
  rw [List.map_singleton, hfield] at hsame
  refine ⟨_, hfield, ⟨_, hsame⟩, fun o ho => ?_⟩
  -- Everything behind the root has been built, so it lies where the new objects are.
  obtain ⟨p, hp, rfl⟩ := hsame.bijOn.surjOn ho
  have hfound : p ∈ found := by
    rw [hcollected.mem_found, h.roots]
    exact hp
  rw [hsize]
  exact Nat.add_lt_add_left (List.idxOf_lt_length_of_mem hfound) start

/-- **Consulting the archive about a class with archived state.** The archived array is restored,
and the outcome recorded. -/
theorem exists_consult (depth : Nat) (hmem : holding ∈ Holding.all)
    (husing : b.status.isUsing = true) (h : Hooked b specs s)
    (hdepth : s.machine.uninitializedCount ≤ depth)
    (hevolves : installed.Evolves s.machine) (hplain : ∀ k ∈ plainClasses, Plain b s.machine k)
    (hfresh : s.outcome (installed.className holding.classId) = none)
    (hrecorded : Recorded b holding m) (hm : installed.Evolves m)
    (hheld : Held holding specs m kept) :
    ∃ s' objects root, consultHook (requestWithin depth) holding.classId s = ((), s') ∧
      Moves b specs holding.classId objects s s' ∧
      s'.outcome (installed.className holding.classId) = some .restored ∧
      s'.machine.static holding.classId holding.field = .obj root ∧
      Mirrors m kept s'.machine root := by
  obtain ⟨found, r, hcollected, hlimit, hrecord⟩ := hrecorded
  obtain ⟨s₁, hhooked, hmachine, hgraphs, hconsult⟩ :=
    consultHook_of_using (requestWithin depth) holding.classId h husing
  have hfresh₁ : s₁.outcome (installed.className holding.classId) = none := by
    rw [outcome_eq_of_graphs_eq hgraphs, hfresh]
  obtain ⟨prepared, hquiet, haccepts⟩ := exists_accepts depth hmem husing hhooked
    (by rw [hmachine]; exact hdepth) (by rw [hmachine]; exact hevolves)
    (by rw [hmachine]; exact hplain) hfresh₁ hm hheld hcollected hrecord
  obtain ⟨allowed, m', event, hm', -, hsame, htry⟩ :=
    tryRestore_of_accepts (within_requestWithin depth) hcollected hlimit haccepts
  rw [hm.className] at htry
  have hfills := Machine.fills_rebuilt m holding.classId [holding.field] found allowed
    prepared.machine holding.classId
  rw [← hm'] at hfills
  have hsize : m'.objects.size = prepared.machine.objects.size + found.length := by
    rw [hfills.size, List.length_map]
  obtain ⟨root, hfield, hmirrors⟩ := hheld.exists_mirrors hcollected hsame hsize
  obtain ⟨s₂, hs₂, hhooked₂, hmachine₂, houtcome, hothers⟩ :=
    ((hquiet.hooked.withMachine m').note event).recordOutcome
      (installed.className holding.classId) .restored
  rw [← htry] at hs₂
  have hmachine' : s₂.machine = m' := hmachine₂
  have hclass : prepared.machine.className holding.classId
      = installed.className holding.classId := by
    rw [hquiet.readied.evolves.className, hmachine, hevolves.className]
  rw [← hmachine'] at hfills hfield hmirrors
  have hrestored := moves_of_fills hhooked₂ hfills fun name hne => hothers name (hclass ▸ hne)
  have hall := (moves_of_machine_eq hhooked hmachine hgraphs).trans
    ((Moves.of_quiet hquiet).trans hrestored)
  -- The requests for the classes of the record have recorded no outcome for this class.
  have hfirst : ((prepared.withMachine m').note event).outcome
      (installed.className holding.classId) = none :=
    (hquiet.outcomes _ _ hrecord).trans hfresh₁
  rw [hfirst] at houtcome
  refine ⟨s₂.note (.consulted holding.classId), _, root, ?_,
    hall.trans (moves_of_machine_eq (hhooked₂.note _) rfl rfl), houtcome, hfield, hmirrors⟩
  rw [hconsult, hs₂]

/-- The class has been restored from the archive, and its statics go with the restored array. -/
structure Restored (m : Machine) (holding : Holding) (kept : ObjectId) (s : Session) : Prop where
  outcome : s.outcome (installed.className holding.classId) = some .restored
  graph : ∃ root, holding.Derived s.machine root ∧ Mirrors m kept s.machine root

theorem Restored.of_moves {c : ClassId} {objects : List Object} {s' : Session} {r : Option Subgraph}
    (h : Restored m holding kept s) (hmoves : Moves b specs c objects s s')
    (hevolves : installed.Evolves s.machine)
    (hrecord : b.subgraph (installed.className holding.classId) = .ok r)
    (hne : installed.className holding.classId ≠ installed.className c) :
    Restored m holding kept s' := by
  obtain ⟨root, hderived, hmirrors⟩ := h.graph
  have hroot : root < s.machine.objects.size := hmirrors.bounded root (.root List.mem_cons_self)
  refine ⟨?_, root, hmoves.derived (fun heq => hne (by rw [heq])) hroot hderived,
    hmoves.mirrors hmirrors⟩
  rw [hmoves.outcomes _ r hrecord (by rw [hevolves.className]; exact hne)]
  exact h.outcome

/-- **A request for a class with archived state that the archive has.** -/
theorem exists_request_restored {bound : Nat} (hmem : holding ∈ Holding.all)
    (husing : b.status.isUsing = true) (h : Underway b specs s) (huntouched : Untouched b holding s)
    (hbound : s.machine.uninitializedCount ≤ bound) (hrecorded : Recorded b holding m)
    (hm : installed.Evolves m) (hheld : Held holding specs m kept) :
    ∃ s' objects, requestWithin bound holding.classId s = (.ok (), s') ∧
      Moves b specs holding.classId objects s s' ∧
      s'.machine.stateOf holding.classId = .ready ∧ Restored m holding kept s' := by
  have ⟨_, r, _, _, hrecord⟩ := hrecorded
  obtain ⟨depth, s₁, hdepth, hquiet, hfinish⟩ :=
    exists_request hmem h huntouched.uninitialized hbound
  have hbegun : Moves b specs holding.classId [] s s₁ := moves_begin h.hooked hquiet
  have hplain : ∀ k ∈ plainClasses, Plain b s₁.machine k := by
    intro k hk
    have hne : k ≠ holding.classId := fun heq => not_mem_plainClasses hmem (heq ▸ hk)
    exact ((h.plain hk).of_begin hne).of_readied hquiet.readied
  have hfresh : s₁.outcome (installed.className holding.classId) = none := by
    rw [hquiet.outcomes _ _ hrecord]
    exact huntouched.fresh _ hrecord
  obtain ⟨s₂, objects, root, hconsult, hconsulted, houtcome, hfield, hmirrors⟩ :=
    exists_consult depth hmem husing hbegun.hooked hdepth (h.evolves.trans hbegun.evolves) hplain
      hfresh hrecorded hm hheld
  have hevolves : installed.Evolves s₂.machine :=
    (h.evolves.trans hbegun.evolves).trans hconsulted.evolves
  obtain ⟨f, hsame⟩ := hmirrors.same
  have hhas : holding.Has specs s₂.machine root :=
    hheld.has.of_sameGraph hm hevolves hfield hsame
  have hinitializes := Holding.initializes (s := s₂.note (.entered holding.classId)) hmem
    (hconsulted.hooked.note _) hevolves fun s₀ hhooked hmachine _ =>
      Holding.provides_of_has hhooked (hmachine ▸ hhas)
        (holding.compute (requestWithin depth) specs)
  obtain ⟨s', hgranted, hmoves, hkept, hgraphs, hready, hderived⟩ :=
    hfinish hconsult hconsulted hinitializes
  refine ⟨s', _, hgranted, hmoves, hready, ?_, root, hderived, hkept.mirrors hmirrors⟩
  rw [outcome_eq_of_graphs_eq hgraphs]
  exact houtcome

/-! ### Restoring all classes -/

/-- Classes are restored one after another, and those restored before stay as they are. -/
theorem exists_requestEach_restored (husing : b.status.isUsing = true) (harchives : Archives b m)
    (hm : installed.Evolves m) {rest : List (Holding × Layout)}
    (hsuffix : rest.map Prod.fst <:+ Holding.all) (h : Pending b specs (rest.map Prod.fst) s)
    (hheld : ∀ p ∈ rest, Held p.1 specs m p.2.root) :
    ∃ s', requestEach (rest.map fun p => p.1.classId) s = (.ok (), s') ∧
      Pending b specs [] s' ∧ (∀ p ∈ rest, Restored m p.1 p.2.root s') ∧
      ∀ holding ∈ Holding.all, ∀ kept,
        (∀ p ∈ rest, installed.className p.1.classId ≠ installed.className holding.classId) →
        Restored m holding kept s → Restored m holding kept s' := by
  induction rest generalizing s with
  | nil => exact ⟨s, rfl, h, by simp, fun _ _ _ _ hrestored => hrestored⟩
  | cons p rest ih =>
    obtain ⟨hheld₀, hheld⟩ := List.forall_mem_cons.1 hheld
    have hmem : p.1 ∈ Holding.all := hsuffix.subset List.mem_cons_self
    obtain ⟨s₁, objects, hgranted, hmoves, -, hrestored⟩ :=
      exists_request_restored hmem husing h.toUnderway (h.untouched p.1 List.mem_cons_self)
        (Nat.le_refl _) (harchives.recorded p.1 hmem) hm hheld₀
    have h₁ : Pending b specs (rest.map Prod.fst) s₁ := h.of_moves hsuffix hmoves
    obtain ⟨s', hothers, h', hrestored', hstay⟩ :=
      ih ((List.suffix_cons _ _).trans hsuffix) h₁ hheld
    refine ⟨s', (requestEach_cons hgranted).trans hothers, h', ?_, ?_⟩
    · refine List.forall_mem_cons.2 ⟨hstay p.1 hmem p.2.root (fun q hq => ?_) hrestored, hrestored'⟩
      have hq' : q.1 ∈ rest.map Prod.fst := List.mem_map_of_mem hq
      exact className_ne hmem (hsuffix.subset (List.mem_cons_of_mem _ hq')) (classId_ne hsuffix hq')
    · intro holding hholding kept hne hbefore
      obtain ⟨hne₀, hne⟩ := List.forall_mem_cons.1 hne
      obtain ⟨-, r, -, -, hrecord⟩ := harchives.recorded holding hholding
      exact hstay holding hholding kept hne
        (hbefore.of_moves hmoves h.evolves hrecord hne₀.symm)

theorem length_elements_layouts (specs : List ModuleSpec) :
    ∀ p ∈ layouts specs, p.2.elements.length = p.1.size specs := by
  simp only [layouts, List.forall_mem_cons]
  exact ⟨length_row _ _, rfl, length_descriptorsFrom _ _, length_row _ _, by simp⟩

/-- **A process that uses an archive of the library restores its state**, as the machine had it that
was archived. -/
theorem exists_requestAll_restored (hspecs : Resolvable specs) (husing : b.status.isUsing = true)
    (harchives : Archives b m) (hm : installed.Evolves m)
    (hcomputed : ∀ p ∈ layouts specs, Computed p.1 p.2 m)
    (h : Pending b specs Holding.all s) :
    ∃ s', requestAll standard s = (.ok (), s') ∧
      ∀ p ∈ layouts specs, Restored m p.1 p.2.root s' := by
  have hsuffix : (layouts specs).map Prod.fst <:+ Holding.all := List.suffix_rfl
  have hheld : ∀ p ∈ layouts specs, Held p.1 specs m p.2.root := by
    intro p hp
    have hmem : p.1 ∈ Holding.all := hsuffix.subset (List.mem_map_of_mem hp)
    exact (hcomputed p hp).held hmem (sound_layouts hspecs p hp)
      (length_elements_layouts specs p hp)
  obtain ⟨s', hgranted, -, hrestored, -⟩ :=
    exists_requestEach_restored husing harchives hm hsuffix h hheld
  exact ⟨s', hgranted, hrestored⟩

end Restoring

end Library

end ClassSharing
