import ClassSharing.Proofs.Library.Linking
import ClassSharing.Proofs.Library.Sets

/-!
# Reading the module graph

A process that asks for its modules gets the ones it was started with, each with its packages
sorted. The packages come out of a hash table in an order that the salt of the process gives, and
sorting forgets that order; so what is read does not depend on the process, on where the descriptors
are on its heap, or on whether they were computed or restored.

## Main results

* `Library.Supplies.exists_setElements`: the elements of a set, in some order
* `Library.Supplies.exists_readDescriptor`: the module that a descriptor describes
* `Library.Supplies.exists_descriptors`: the modules of a module graph
* `Library.exists_descriptors`: the modules of a process
-/

namespace ClassSharing

namespace Library

open Session

section Reading

variable {P : Session → Prop} {specs : List ModuleSpec} {s s₁ : Session}

/-! ### Instance variables -/

theorem fieldOrNil_of_getField {m : Machine} {o : ObjectId} {name : Text} {v : Value}
    (h : m.getField o name = .ok v) : fieldOrNil m o name = .ok v := by
  rw [fieldOrNil, h]

/-! ### Sets -/

/-- The texts among some values. -/
theorem exists_mapM_toText {elements : List Value} {texts : List Text}
    (h : elements.Perm (texts.map Value.str)) :
    ∃ read : List Text, elements.mapM (fun v => Run.ofPanic v.toText) s = (.ok read, s) ∧
      read.Perm texts := by
  have hread : ∀ v ∈ elements, Run.ofPanic v.toText s
      = (.ok (v.toText.toOption.getD Text.empty), s) := by
    intro v hv
    obtain ⟨text, -, rfl⟩ := List.mem_map.1 (h.mem_iff.1 hv)
    rfl
  refine ⟨_, mapM_apply hread, (h.map _).trans ?_⟩
  rw [List.map_map]
  exact .of_eq (List.map_id _)

/-- **The elements of a set**, in an order that the salt gives. -/
theorem Supplies.exists_setElements (h : Supplies Session.request 5 Serves P) (hs : P s)
    {texts : List Text} {set : ObjectId} (hset : HoldsSet s.machine texts set) :
    ∃ s' elements, standard.setElements (some set) s = (.ok elements, s') ∧ P s' ∧
      s.machine.Grown s'.machine ∧ elements.Perm (texts.map Value.str) := by
  obtain ⟨s', hgranted, hs', hserves, hgrown⟩ := h.request hs
  obtain ⟨table, size, places, hheld, htable, hpresent⟩ :=
    hset.carried (carries_of_grown hgrown set)
  obtain ⟨salt, backwards, hsalt, hreverse⟩ := hserves.salted
  have hplaces : placesOf s'.machine (some set) = .ok places := by
    rw [placesOf_of_setClass (h.fits hs').setClass hheld, htable]
    rfl
  have hrequire : Run.require Session.request standard.collections s = (.ok (), s') :=
    require_eq hgranted
  obtain ⟨elements, helements, hperm⟩ := exists_setElements_eq hrequire hplaces hsalt hreverse
  exact ⟨s', elements, helements, hs', hgrown, hperm.trans hpresent⟩

/-! ### Descriptors -/

/-- **The module that a descriptor describes**, with its packages sorted. -/
theorem Supplies.exists_readDescriptor (h : Supplies Session.request 5 Serves P) (hs : P s)
    {spec : ModuleSpec} {o : ObjectId} (hdescribes : Describes s.machine spec o) :
    ∃ s', standard.readDescriptor o s = (.ok spec.sorted, s') ∧ P s' ∧
      s.machine.Grown s'.machine := by
  obtain ⟨set, ho, hset⟩ := hdescribes
  have hfield : ∀ {name : Text} {i : Nat} {v : Value},
      (installed.classAt 6).instanceVariables.idxOf? name = some i →
      [Value.str spec.name, .str spec.loader.name, .obj set][i]? = some v →
      fieldOrNil s.machine o name = .ok v := fun hplace hv =>
    fieldOrNil_of_getField (getField_eq (h.fits hs) (by decide) ho hplace hv)
  obtain ⟨s', elements, helements, hs', hgrown, hperm⟩ := h.exists_setElements hs hset
  obtain ⟨texts, htexts, hread⟩ := exists_mapM_toText (s := s') hperm
  have htext : ∀ text : Text, Run.ofPanic (Value.str text).toText s = (.ok text, s) := fun _ => rfl
  refine ⟨s', ?_, hs', hgrown⟩
  rw [readDescriptor, exceptBind_apply (machine_apply s), hfield (i := 0) (by decide) rfl,
    exceptBind_apply (ofPanic_apply _ s), hfield (i := 1) (by decide) rfl,
    exceptBind_apply (ofPanic_apply _ s), hfield (i := 2) (by decide) rfl,
    exceptBind_apply (ofPanic_apply _ s), exceptBind_apply (htext spec.loader.name),
    LoaderKind.ofName_name, exceptBind_apply (ofFault_apply _ s),
    exceptBind_apply (htext spec.name)]
  refine (exceptBind_apply (tryCatch_apply helements)).trans ?_
  rw [exceptBind_apply htexts, Text.sorted_eq_of_perm hread]
  rfl

/-! ### Module graphs -/

/-- The module that the descriptor at a position describes. -/
theorem Supplies.exists_descriptorAt (h : Supplies Session.request 5 Serves P) (hs : P s)
    {root : ObjectId} (hgraph : HoldsGraph specs s.machine root) {i : Nat} (hi : i < specs.length) :
    ∃ s', standard.descriptorAt root i s = (.ok specs[i].sorted, s') ∧ P s' ∧
      s.machine.Grown s'.machine := by
  obtain ⟨os, hroot, hdescribed⟩ := hgraph
  have hi' : i < os.length := hdescribed.length_eq ▸ hi
  have hsome : (s.machine.objectAt root).elementList[i]? = some (.obj os[i]) := by
    rw [hroot]
    exact (List.getElem?_map ..).trans (by rw [List.getElem?_eq_getElem hi', Option.map_some])
  obtain ⟨s', hread, hs', hgrown⟩ := h.exists_readDescriptor hs (hdescribed.get hi hi')
  refine ⟨s', ?_, hs', hgrown⟩
  rw [descriptorAt, exceptBind_apply (machine_apply s), Machine.getElement_eq hsome,
    exceptBind_apply (ofPanic_apply _ s)]
  exact hread

/-- **The modules of a module graph** are the ones that it was made for, each with its packages
sorted. -/
theorem Supplies.exists_descriptors (h : Supplies Session.request 5 Serves P) (hs : P s₁)
    (hgranted : Session.request 7 s = (.ok (), s₁))
    (hsettled : Settled .modules (HoldsGraph specs) s₁.machine) :
    ∃ s₂, standard.descriptors s = (.ok (specs.map ModuleSpec.sorted), s₂) ∧ P s₂ ∧
      s₁.machine.Grown s₂.machine := by
  obtain ⟨-, root, hderived, hgraph⟩ := hsettled
  have hfield : s₁.machine.static 7 "descriptors" = .obj root :=
    hderived ("descriptors", .array) (by decide)
  have hsize : (s₁.machine.objectAt root).size = specs.length := (content_graph specs).size hgraph
  -- Reading the descriptors may still make the collections ready, which leaves the graph alone.
  have hstep : ∀ i ∈ List.range specs.length, ∀ t, P t ∧ s₁.machine.Grown t.machine →
      ∃ t', standard.descriptorAt root i t
          = (.ok ((specs[i]?.map ModuleSpec.sorted).getD default), t') ∧
        P t' ∧ s₁.machine.Grown t'.machine := by
    rintro i hi t ⟨ht, hbefore⟩
    have hi := List.mem_range.1 hi
    obtain ⟨t', hread, ht', hgrown⟩ := h.exists_descriptorAt ht
      ((content_graph specs).carried hgraph (carries_of_grown hbefore root)) hi
    rw [List.getElem?_eq_getElem hi]
    exact ⟨t', hread, ht', hbefore.trans hgrown⟩
  obtain ⟨s₂, hread, hs₂, hgrown⟩ := exists_mapM_apply hstep ⟨hs, .refl _⟩
  have hall :
      (List.range specs.length).map (fun i => (specs[i]?.map ModuleSpec.sorted).getD default)
        = specs.map ModuleSpec.sorted := by
    refine List.ext_getElem (by simp) fun i hi hi' => ?_
    rw [List.length_map] at hi'
    simp [hi']
  rw [hall] at hread
  refine ⟨s₂, ?_, hs₂, hgrown⟩
  have hrequire : Run.require Session.request standard.moduleGraph s = (.ok (), s₁) :=
    require_eq hgranted
  have hstatic : s₁.machine.static standard.moduleGraph "descriptors" = .obj root := hfield
  rw [descriptors, exceptBind_apply hrequire, exceptBind_apply (machine_apply s₁), hstatic]
  simp only [Value.object?, hsize]
  exact hread

end Reading

/-! ### The modules of a process -/

section Processes

variable {b : MappedBoot} {specs : List ModuleSpec} {s : Session}

theorem Available.of_unspoiled (h : Underway b specs s)
    (hoffers : Offers b .collections HoldsEmpties) (hcollections : Unspoiled b s) :
    Available b specs s.machine.uninitializedCount s :=
  ⟨h, hoffers, hcollections.imp_left fun huntouched => ⟨huntouched, Nat.le_refl _⟩⟩

/-- A process that is under way goes on having the collections. -/
theorem Unspoiled.supplies (h : Underway b specs s) (hoffers : Offers b .collections HoldsEmpties) :
    Supplies Session.request 5 Serves fun t => Advances b specs [5] s t ∧ Unspoiled b t where
  fits ht := fits_of_evolves (h.evolves.trans ht.1.evolves)
  request := by
    rintro t ⟨hadvances, hcollections⟩
    obtain ⟨t', hgranted, hasked, hserves⟩ :=
      (Available.of_unspoiled (h.of_advances hadvances (by decide)) hoffers
        hcollections).exists_request
    exact ⟨t', hgranted, ⟨hadvances.trans hasked, .inr hserves⟩, hserves, hasked.objects⟩

/-- **The modules of a process** are the ones it was started with, each with its packages sorted. -/
theorem exists_descriptors (h : Underway b specs s) (huntouched : Untouched b .modules s)
    (hcollections : Unspoiled b s) (hofferEmpties : Offers b .collections HoldsEmpties)
    (hofferGraph : Offers b .modules (HoldsGraph specs))
    (hspecs : ∀ spec ∈ specs, spec.packages.Nodup) :
    ∃ s', standard.descriptors s = (.ok (specs.map ModuleSpec.sorted), s') ∧
      Advances b specs [5, 7] s s' ∧ Settled .modules (HoldsGraph specs) s'.machine ∧
      Unspoiled b s' := by
  obtain ⟨s₁, hgranted, hadvances, hsettled, hunspoiled⟩ :=
    exists_request_modules h huntouched hcollections hofferEmpties hofferGraph hspecs
      (Nat.le_refl _)
  have hunderway : Underway b specs s₁ := h.of_advances hadvances not_mem_plain_resolving
  have hstart : Advances b specs [5] s₁ s₁ :=
    (moves_of_machine_eq hadvances.hooked rfl rfl).advances List.mem_cons_self
  obtain ⟨s₂, hread, ⟨hadvances', hunspoiled'⟩, -⟩ :=
    (Unspoiled.supplies hunderway hofferEmpties).exists_descriptors ⟨hstart, hunspoiled⟩ hgranted
      hsettled
  exact ⟨s₂, hread, hadvances.trans (hadvances'.mono (by decide)),
    hsettled.of_advances (content_graph specs) hadvances'.toAdvances (by decide), hunspoiled'⟩

end Processes

end Library

end ClassSharing
