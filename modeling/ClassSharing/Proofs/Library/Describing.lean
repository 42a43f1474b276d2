import ClassSharing.Proofs.Library.Contents
import ClassSharing.Proofs.Library.Membership

/-!
# Describing modules

The descriptor of a module holds the set of its packages, and a module without packages gets the
empty set that all of them share. So describing modules puts objects on the heap, and on the way it
may ask for the class that has the empty set. Nothing more has to be known of that class than that
whoever asks for it gets it. Where it comes from, and what else is in the session, makes no
difference.

Describing a module fails if a package is listed twice, and on nothing else. What the module graph
does where nothing is archived follows: it holds the descriptors of all modules, or it reports a
package that is listed twice.

## Main definitions

* `Library.Serves`: the collections are ready, with a salt
* `Library.Supplies`: sessions in which whoever asks for a class gets it
* `Library.Fillable`: sessions in which objects can be made

## Main results

* `Library.Supplies.exists_describeModules`: modules with different packages are described
* `Library.Supplies.exists_resolve`: the module graph is resolved
* `Library.Supplies.exists_resolve_refused`: a module lists a package twice
-/

namespace ClassSharing

namespace Library

open Session

/-! ### The collections -/

/-- A salt has been chosen, and a direction. -/
def Salted (m : Machine) : Prop :=
  ∃ salt backwards, m.static 5 "salt" = .int salt ∧ m.static 5 "reverse" = .bool backwards

/-- The collections are ready. -/
structure Serves (m : Machine) : Prop where
  settled : Settled .collections HoldsEmpties m
  salted : Salted m

theorem Serves.of_grown {m m' : Machine} (h : Serves m) (hgrown : m.Grown m')
    (hready : m'.stateOf 5 = .ready) (hstatics : ∀ name, m'.static 5 name = m.static 5 name) :
    Serves m' where
  settled := h.settled.of_grown (content_empties []) hgrown hready hstatics
  salted := by
    obtain ⟨salt, backwards, hsalt, hreverse⟩ := h.salted
    exact ⟨salt, backwards, (hstatics "salt").trans hsalt, (hstatics "reverse").trans hreverse⟩

theorem Serves.of_advances {m m' : Machine} {cs : List ClassId} (h : Serves m)
    (hadvances : Machine.Advances cs m m') (hcs : 5 ∉ cs) : Serves m' :=
  h.of_grown hadvances.objects (hadvances.ready hcs h.settled.1) fun name =>
    hadvances.static hcs name

/-- The shared empty set. -/
theorem Serves.exists_emptySet {m : Machine} (h : Serves m) :
    ∃ set, m.static 5 "emptySet" = .obj set ∧ HoldsSet m [] set := by
  obtain ⟨-, root, hderived, list, set, hroot, -, hset⟩ := h.settled
  have hsource := hderived ("emptySet", .element 1) (by decide)
  rw [Source.value, hroot] at hsource
  exact ⟨set, hsource, hset⟩

/-! ### Asking for a class -/

/-- Sessions in which whoever asks for a class gets it, and then knows something of the machine. The
objects that were there stay, and further requests are answered in the same way. -/
structure Supplies (request : Requester) (c : ClassId) (Q : Machine → Prop) (P : Session → Prop) :
    Prop where
  fits : ∀ {s}, P s → Fits s.machine
  request : ∀ {s}, P s → ∃ s', request c s = (.ok (), s') ∧ P s' ∧ Q s'.machine ∧
    s.machine.Grown s'.machine

/-- Sessions that stay such sessions when objects are put at the end of the heap. -/
def Fillable (P : Session → Prop) : Prop :=
  ∀ {s} objects, P s → P (s.withMachine (s.machine.withObjects objects))

section Describing

variable {request : Requester} {P : Session → Prop} {s : Session} {spec : ModuleSpec}
  {modules : List ModuleSpec}

theorem Supplies.exists_emptySet (h : Supplies request 5 Serves P) (hs : P s)
    {request' : Requester} (hrequest : request' 5 s = request 5 s) :
    ∃ s' set, emptySet request' 5 s = (.ok (some set), s') ∧ P s' ∧
      s.machine.Grown s'.machine ∧ HoldsSet s'.machine [] set := by
  obtain ⟨s', hgranted, hs', hserves, hgrown⟩ := h.request hs
  obtain ⟨set, hfield, hset⟩ := hserves.exists_emptySet
  refine ⟨s', set, ?_, hs', hgrown, hset⟩
  rw [emptySet, exceptBind_apply (require_eq (hrequest.trans hgranted)),
    exceptBind_apply (machine_apply s'), hfield]
  rfl

/-- **The set of the packages of a module.** -/
theorem Supplies.exists_setOf (h : Supplies request 5 Serves P) (hfill : Fillable P) (hs : P s)
    (hspec : spec.packages.Nodup) :
    ∃ s' set, setOf request 4 5 (spec.packages.map Value.str) s = (.ok (some set), s') ∧ P s' ∧
      s.machine.Grown s'.machine ∧ HoldsSet s'.machine spec.packages set := by
  rw [setOf, List.isEmpty_map]
  by_cases hempty : spec.packages.isEmpty = true
  · rw [if_pos hempty, List.isEmpty_iff.1 hempty]
    exact h.exists_emptySet hs rfl
  · have hset := newSet_eq (h.fits hs) (packageTable_eq hspec).1
    have hplace := @Machine.objectAt_append s.machine (s.machine.withObjects _)
      [arrayOf (packageTable spec), instanceOf 4
        [.obj s.machine.objects.size, .int (Int64.ofNat (spec.packages.map Value.str).length)]] rfl
    refine ⟨_, s.machine.objects.size + 1, ?_, hfill _ hs, s.machine.grown_withObjects _,
      s.machine.objects.size, _, packageTable spec, hplace 1, hplace 0, ?_⟩
    · rw [if_neg hempty]
      exact exceptBind_apply hset
    · exact (SetTable.of_ofElements ((packageTable_eq hspec).1 s.machine.describe)).2

/-- **The descriptor of a module.** -/
theorem Supplies.exists_describeModule (h : Supplies request 5 Serves P) (hfill : Fillable P)
    (hs : P s) (hspec : spec.packages.Nodup) :
    ∃ s' o, describeModule request 6 4 5 spec s = (.ok (.obj o), s') ∧ P s' ∧
      s.machine.Grown s'.machine ∧ Describes s'.machine spec o := by
  obtain ⟨s₁, set, hset, hs₁, hgrown, hholds⟩ := h.exists_setOf hfill hs hspec
  have hmake := make_eq (h.fits hs₁) (c := 6) (by decide)
    [("name", .str spec.name), ("loader", .str spec.loader.name), ("packages", .obj set)] rfl
  have hmade := s₁.machine.grown_withObjects [descriptorOf spec set]
  have hplace : (s₁.machine.withObjects [descriptorOf spec set]).objectAt s₁.machine.objects.size
      = descriptorOf spec set :=
    @Machine.objectAt_append s₁.machine _ [descriptorOf spec set] rfl 0
  refine ⟨_, s₁.machine.objects.size, ?_, hfill _ hs₁, hgrown.trans hmade, set, hplace,
    hholds.carried (carries_of_grown hmade set)⟩
  rw [describeModule, exceptBind_apply (tryCatch_apply hset)]
  exact exceptBind_apply hmake

/-- What is described stays described while the heap grows. -/
theorem Describes.of_grown {m m' : Machine} {o : ObjectId} (h : Describes m spec o)
    (hgrown : m.Grown m') : Describes m' spec o :=
  h.carried (carries_of_grown hgrown o)

/-- **The descriptors of modules**, none of which lists a package twice. -/
theorem Supplies.exists_describeModules (h : Supplies request 5 Serves P) (hfill : Fillable P)
    (hs : P s) (hmodules : ∀ spec ∈ modules, spec.packages.Nodup) :
    ∃ (s' : Session) (os : List ObjectId),
      modules.mapM (describeModule request 6 4 5) s = (.ok (os.map .obj), s') ∧ P s' ∧
      s.machine.Grown s'.machine ∧ List.Forall₂ (Describes s'.machine) modules os := by
  induction modules generalizing s with
  | nil => exact ⟨s, [], rfl, hs, .refl _, .nil⟩
  | cons spec rest ih =>
    obtain ⟨hspec, hrest⟩ := List.forall_mem_cons.1 hmodules
    obtain ⟨s₁, o, hfirst, hs₁, hgrown, hdescribes⟩ := h.exists_describeModule hfill hs hspec
    obtain ⟨s₂, os, hothers, hs₂, hgrown₂, hdescribed⟩ := ih hs₁ hrest
    refine ⟨s₂, o :: os, ?_, hs₂, hgrown.trans hgrown₂,
      .cons (hdescribes.of_grown hgrown₂) hdescribed⟩
    rw [List.mapM_cons, exceptBind_apply hfirst, exceptBind_apply hothers]
    rfl

/-! ### Modules that are refused -/

/-- **A set is refused** with the fault of its table, and nothing has been made. -/
theorem setOf_of_refused {set collections : ClassId} {elements : List Value} {fault : Fault}
    (hne : elements ≠ []) (h : SetTable.ofElements s.machine.describe elements = .error fault) :
    setOf request set collections elements s = (.error (.fault fault), s) := by
  have hrefused : newSet set elements s = (.error (.fault fault), s) := by
    rw [newSet, exceptBind_apply (machine_apply s), h]
    exact exceptBind_apply_error rfl
  rw [setOf, if_neg (by rwa [List.isEmpty_iff])]
  exact exceptBind_apply_error hrefused

/-- A fault that says that a module lists a package more than once. -/
def Repeats (spec : ModuleSpec) (fault : Fault) : Prop :=
  ∃ package, 1 < spec.packages.count package ∧
    fault = .within (.moduleNamed spec.name) (.of (.duplicateElement package.quoted))

theorem Repeats.not_nodup {spec : ModuleSpec} {fault : Fault} (h : Repeats spec fault) :
    ¬ spec.packages.Nodup := by
  obtain ⟨package, hcount, -⟩ := h
  exact fun hnodup => Nat.not_le_of_lt hcount (List.nodup_iff_count_le_one.1 hnodup package)

theorem Repeats.wraps {spec : ModuleSpec} {fault : Fault} (h : Repeats spec fault) :
    fault.wraps .duplicateElement = true := by
  obtain ⟨package, -, rfl⟩ := h
  rfl

/-- **A module that lists a package twice is refused**, and nothing has been made. -/
theorem exists_describeModule_refused (hspec : ¬ spec.packages.Nodup) :
    ∃ fault, describeModule request 6 4 5 spec s = (.error (.fault fault), s) ∧
      Repeats spec fault := by
  have hinjective : Function.Injective Value.str := fun _ _ => Value.str.inj
  have hnot : ¬ SetTable.Admissible (spec.packages.map Value.str) := fun hadmissible =>
    hspec hadmissible.2.of_map
  obtain ⟨before, v, after, heq, hbefore, hblamed⟩ := SetTable.exists_blamed hnot
  obtain ⟨package, -, rfl⟩ := List.mem_map.1 (heq ▸ List.mem_append_right before List.mem_cons_self)
  -- A text can be hashed, so it is blamed for being there already.
  have hmem : Value.str package ∈ before := hblamed.resolve_left (not_not_intro trivial)
  have hcount : 1 < spec.packages.count package := by
    have hbefore := List.count_pos_iff.2 hmem
    rw [← List.count_map_of_injective _ _ hinjective, heq, List.count_append, List.count_cons_self]
    omega
  have hrefused : setOf request 4 5 (spec.packages.map Value.str) s
      = (.error (.fault (.of (.duplicateElement package.quoted))), s) := by
    refine setOf_of_refused (fun hnil => ?_) ?_
    · rw [hnil] at heq
      simp at heq
    · rw [heq]
      exact SetTable.ofElements_of_repeated s.machine.describe hbefore hmem
  refine ⟨_, exceptBind_apply_error ?_, package, hcount, rfl⟩
  exact tryCatch_apply_error hrefused

/-- **Describing modules fails at the first one that lists a package twice.** -/
theorem Supplies.exists_describeModules_refused (h : Supplies request 5 Serves P)
    (hfill : Fillable P) (hs : P s) (hmodules : ∃ spec ∈ modules, ¬ spec.packages.Nodup) :
    ∃ fault s', modules.mapM (describeModule request 6 4 5) s = (.error (.fault fault), s') ∧
      P s' ∧ ∃ spec ∈ modules, Repeats spec fault := by
  induction modules generalizing s with
  | nil => simp at hmodules
  | cons spec rest ih =>
    by_cases hspec : spec.packages.Nodup
    · obtain ⟨s₁, o, hfirst, hs₁, -, -⟩ := h.exists_describeModule hfill hs hspec
      have hrest : ∃ spec ∈ rest, ¬ spec.packages.Nodup := by simpa [hspec] using hmodules
      obtain ⟨fault, s₂, hothers, hs₂, refused, hmem, hrepeats⟩ := ih hs₁ hrest
      refine ⟨fault, s₂, ?_, hs₂, refused, List.mem_cons_of_mem _ hmem, hrepeats⟩
      rw [List.mapM_cons, exceptBind_apply hfirst]
      exact exceptBind_apply_error hothers
    · obtain ⟨fault, hrefused, hrepeats⟩ := exists_describeModule_refused hspec
      refine ⟨fault, s, ?_, hs, spec, List.mem_cons_self, hrepeats⟩
      rw [List.mapM_cons]
      exact exceptBind_apply_error hrefused

/-! ### The module graph -/

/-- **The initializer of the module graph**, if nothing is archived and every module can be
described: the array of the descriptors goes to the end of the heap, and into both statics. -/
theorem Supplies.exists_resolve (h : Supplies request 5 Serves P) (hfill : Fillable P) (hs : P s)
    (hnil : s.machine.static 7 "archivedGraph" = .nil)
    (hspecs : ∀ spec ∈ s.moduleSpecs, spec.packages.Nodup) :
    ∃ s₁ m objects root, resolveModuleGraph request 7 6 4 5 s = (.ok (), s₁.withMachine m) ∧
      P s₁ ∧ Machine.Fills 7 objects s₁.machine m ∧ Holding.modules.Derived m root ∧
      HoldsGraph s.moduleSpecs m root := by
  obtain ⟨s₁, os, hdescribe, hs₁, -, hdescribed⟩ := h.exists_describeModules hfill hs hspecs
  have hfits : Fits s₁.machine := h.fits hs₁
  -- The array of the descriptors is made and put in the archived field.
  set s₂ := s₁.withMachine (s₁.machine.withObjects [arrayOf (os.map .obj)])
  have hmade : Machine.Fills 7 _ s₁.machine s₂.machine := Machine.fills_withObjects _ 7 _
  have hcompute : (do makeArray (← s.moduleSpecs.mapM (describeModule request 6 4 5)) :
      Run ObjectId) s = (.ok s₁.machine.objects.size, s₂) := by
    rw [exceptBind_apply hdescribe, makeArray_eq hfits]
  obtain ⟨harchived, hfield⟩ := Holding.archivedOr_of_nil hnil hcompute
    (Holding.has_field Holding.modules_mem (hfits.of_evolves hmade.evolves))
  set m₃ := s₂.machine.assigned 7 [("archivedGraph", .obj s₁.machine.objects.size)]
  have hput : Machine.Fills 7 _ s₁.machine m₃ := hmade.trans (Machine.fills_assigned _ 7 _)
  have hgraph : HoldsGraph s.moduleSpecs m₃ s₁.machine.objects.size :=
    ⟨os, Machine.objectAt_append hput.objects 0, hdescribed.imp fun _ _ hdescribes =>
      hdescribes.of_grown ⟨_, hput.objects⟩⟩
  have hhas : Holding.modules.Has s.moduleSpecs (s₂.withMachine m₃).machine
      s₁.machine.objects.size :=
    ⟨hfield, (content_graph _).classId hgraph, (content_graph _).size hgraph⟩
  -- The other static follows.
  obtain ⟨m, hassign, hfills, hderived⟩ :=
    Holding.exists_assign_modules (hfits.of_evolves hput.evolves) hhas
  refine ⟨s₁, m, _, s₁.machine.objects.size, ?_, hs₁, hput.trans hfills, hderived,
    (content_graph _).carried hgraph (carries_of_grown ⟨_, hfills.objects⟩ _)⟩
  rw [resolveModuleGraph, exceptBind_apply (exceptGet_apply s)]
  exact (exceptBind_apply harchived).trans hassign

/-- **It fails if a module cannot be described.** -/
theorem Supplies.exists_resolve_refused (h : Supplies request 5 Serves P) (hfill : Fillable P)
    (hs : P s) (hnil : s.machine.static 7 "archivedGraph" = .nil)
    (hspecs : ∃ spec ∈ s.moduleSpecs, ¬ spec.packages.Nodup) :
    ∃ fault s₁, resolveModuleGraph request 7 6 4 5 s = (.error (.fault fault), s₁) ∧ P s₁ ∧
      ∃ spec ∈ s.moduleSpecs, Repeats spec fault := by
  obtain ⟨fault, s₁, hrefused, hs₁, hrepeats⟩ := h.exists_describeModules_refused hfill hs hspecs
  refine ⟨fault, s₁, ?_, hs₁, hrepeats⟩
  rw [resolveModuleGraph, exceptBind_apply (exceptGet_apply s)]
  refine exceptBind_apply_error ?_
  rw [archivedOr, exceptBind_apply (machine_apply s), hnil, if_neg (by simp [isArrayOfSize])]
  exact exceptBind_apply_error (exceptBind_apply_error hrefused)

end Describing

end Library

end ClassSharing
