import ClassSharing.Proofs.Library.ArchivedModules
import ClassSharing.Proofs.Library.Reading

/-!
# Linking modules in a process

Linking modules and initializing classes do not meet. Linking changes the modules and the loaders
and neither the classes nor the heap, and initializing a class leaves the modules and the loaders as
they are. So a process may link its archived modules first and resolve its module graph then, and a
process that has linked its modules may go on initializing classes.

## Main definitions

* `Library.Resolved`: a process with a module graph, whose other classes may be ready or untouched

## Main results

* `Library.Pending.of_relinked`, `Library.Resolved.of_relinked`: linking leaves the library alone
* `Session.Hooked.exists_defineArchivedModules_unused`,
  `Session.Hooked.exists_defineArchivedModules_used`: what linking archived modules does
* `Library.Resolved.exists_requestEach`: initializing classes leaves the linked modules alone
-/

namespace ClassSharing

open Image Session

namespace Machine

section Relinked

variable {m m' : Machine}

theorem Relinked.classAt (h : m.Relinked m') (c : ClassId) : m'.classAt c = m.classAt c := by
  rw [Machine.classAt, Machine.classAt, h.classes]

theorem Relinked.stateOf (h : m.Relinked m') (c : ClassId) : m'.stateOf c = m.stateOf c := by
  rw [Machine.stateOf, Machine.stateOf, h.classAt]

theorem Relinked.static (h : m.Relinked m') (c : ClassId) (name : Text) :
    m'.static c name = m.static c name := by
  rw [Machine.static, Machine.static, h.classAt]

theorem Relinked.evolves (h : m.Relinked m') : m.Evolves m' :=
  (Calm.of_classes_eq h.classes h.names).evolves

end Relinked

end Machine

namespace Session

/-! ### Archived modules -/

section ArchivedModules

variable {b : MappedBoot} {specs : List ModuleSpec} {s : Session}

theorem Hooked.withModulesDefined (h : Hooked b specs s) :
    Hooked b specs (s.withModulesDefined 0) ∧
      ∀ name, (s.withModulesDefined 0).outcome name = s.outcome name := by
  obtain ⟨results, linked, hgraphs⟩ := h.graph
  have hafter : (s.withModulesDefined 0).graphs = #[⟨0, results, true⟩] := by
    rw [Session.withModulesDefined, updateGraph]
    simp only [hgraphs]
    rfl
  refine ⟨⟨h.hook, ⟨results, true, hafter⟩, h.gate, h.boot, h.moduleSpecs, h.sound⟩, fun name => ?_⟩
  rw [outcome, outcome, graphAt, graphAt, hafter, hgraphs]
  rfl

/-- **A process that uses no archive** links no archived modules. -/
theorem Hooked.exists_defineArchivedModules_unused (h : Hooked b specs s)
    (hfirst : (s.graphAt 0).modulesDefined = false) (hnot : b.status.isUsing = false) :
    ∃ s', defineArchivedModules 0 (some .platform) (some .system) s = (.ok (), s') ∧
      Hooked b specs s' ∧ s'.machine = s.machine ∧ ∀ name, s'.outcome name = s.outcome name := by
  obtain ⟨hasked, houtcomes⟩ := h.withModulesDefined
  obtain ⟨s', husing, hhooked, hmachine, hgraphs⟩ := hasked.isUsing
  refine ⟨s', ?_, hhooked, hmachine, fun name => ?_⟩
  · rw [defineArchivedModules_eq hfirst, exceptBind_apply (lift_apply _ _), husing, hnot]
    rfl
  · rw [outcome_eq_of_graphs_eq hgraphs, houtcomes]

/-- **A process that uses an archive** links the modules in it. -/
theorem Hooked.exists_defineArchivedModules_used (h : Hooked b specs s)
    (hfirst : (s.graphAt 0).modulesDefined = false) (husing : b.status.isUsing = true)
    {m : Machine} (hlink : linkModules .platform .system s.machine b.modules = ([], m)) :
    ∃ s', defineArchivedModules 0 (some .platform) (some .system) s = (.ok (), s') ∧
      Hooked b specs s' ∧ s'.machine = m ∧ ∀ name, s'.outcome name = s.outcome name := by
  obtain ⟨hasked, houtcomes⟩ := h.withModulesDefined
  obtain ⟨s', hused, hhooked, hmachine, hgraphs⟩ := hasked.isUsing
  refine ⟨s'.withMachine m, ?_, hhooked.withMachine m, rfl, fun name => ?_⟩
  · have hmodules : (s'.bootAt 0).modules = b.modules := by
      rw [hhooked.bootAt]
      rfl
    have hstart : (s.withModulesDefined 0).machine = s.machine := rfl
    rw [defineArchivedModules_eq hfirst, exceptBind_apply (lift_apply _ _), hused, husing]
    refine (exceptBind_apply (exceptGet_apply s')).trans ?_
    simp only [hhooked.boot_gateAt, hmodules, hmachine, hstart, hlink]
    rfl
  · exact (outcome_eq_of_graphs_eq hgraphs name).trans (houtcomes name)

end ArchivedModules

end Session

namespace Library

section Relinking

variable {b : MappedBoot} {specs : List ModuleSpec} {holding : Holding} {s s' : Session}
  {C : Machine → ObjectId → Prop}

/-! ### Linking leaves the library alone -/

theorem Underway.of_relinked (h : Underway b specs s) (hhooked : Hooked b specs s')
    (hrelinked : s.machine.Relinked s'.machine) : Underway b specs s' where
  hooked := hhooked
  evolves := h.evolves.trans hrelinked.evolves
  unrecorded := h.unrecorded
  idle k hk := by
    rw [hrelinked.stateOf]
    exact h.idle k hk

theorem Untouched.of_relinked (h : Untouched b holding s)
    (hrelinked : s.machine.Relinked s'.machine)
    (houtcomes : ∀ name, s'.outcome name = s.outcome name) : Untouched b holding s' where
  uninitialized := by rw [hrelinked.stateOf, h.uninitialized]
  empty := by rw [hrelinked.static, h.empty]
  fresh r hr := by rw [houtcomes, h.fresh r hr]

/-- **Classes that were pending before modules were linked still are.** -/
theorem Pending.of_relinked {rest : List Holding} (h : Pending b specs rest s)
    (hhooked : Hooked b specs s') (hrelinked : s.machine.Relinked s'.machine)
    (houtcomes : ∀ name, s'.outcome name = s.outcome name) : Pending b specs rest s' :=
  ⟨h.toUnderway.of_relinked hhooked hrelinked, fun holding hmem =>
    (h.untouched holding hmem).of_relinked hrelinked houtcomes⟩

theorem Settled.of_relinked (h : Settled holding C s.machine) (hC : Content holding specs C)
    (hrelinked : s.machine.Relinked s'.machine) : Settled holding C s'.machine :=
  h.of_grown hC (.of_eq hrelinked.objects) (by rw [hrelinked.stateOf, h.1]) fun name =>
    hrelinked.static holding.classId name

theorem Serves.of_relinked (h : Serves s.machine) (hrelinked : s.machine.Relinked s'.machine) :
    Serves s'.machine :=
  h.of_grown (.of_eq hrelinked.objects) ((hrelinked.stateOf 5).trans h.settled.1) fun name =>
    hrelinked.static 5 name

theorem Unspoiled.of_relinked (h : Unspoiled b s) (hrelinked : s.machine.Relinked s'.machine)
    (houtcomes : ∀ name, s'.outcome name = s.outcome name) : Unspoiled b s' :=
  h.imp (fun huntouched => huntouched.of_relinked hrelinked houtcomes)
    fun hserves => hserves.of_relinked hrelinked

/-! ### Initializing classes afterwards -/

/-- A process that has resolved its module graph. Every other class with archived state is ready or
untouched. -/
structure Resolved (b : MappedBoot) (specs : List ModuleSpec) (s : Session) : Prop
    extends Underway b specs s where
  graph : Settled .modules (HoldsGraph specs) s.machine
  collections : Unspoiled b s
  others : ∀ holding ∈ Holding.all,
    Untouched b holding s ∨ s.machine.stateOf holding.classId = .ready

theorem Resolved.of_relinked (h : Resolved b specs s) (hhooked : Hooked b specs s')
    (hrelinked : s.machine.Relinked s'.machine)
    (houtcomes : ∀ name, s'.outcome name = s.outcome name) : Resolved b specs s' where
  toUnderway := h.toUnderway.of_relinked hhooked hrelinked
  graph := h.graph.of_relinked (content_graph specs) hrelinked
  collections := h.collections.of_relinked hrelinked houtcomes
  others holding hmem := (h.others holding hmem).imp
    (fun huntouched => huntouched.of_relinked hrelinked houtcomes)
    fun hready => by rw [hrelinked.stateOf, hready]

/-- **A process that is asked for its modules** resolves its module graph. -/
theorem Pending.exists_descriptors (h : Pending b specs Holding.all s)
    (hofferEmpties : Offers b .collections HoldsEmpties)
    (hofferGraph : Offers b .modules (HoldsGraph specs))
    (hspecs : ∀ spec ∈ specs, spec.packages.Nodup) :
    ∃ s', standard.descriptors s = (.ok (specs.map ModuleSpec.sorted), s') ∧ Resolved b specs s' ∧
      s'.machine.linkage = s.machine.linkage := by
  obtain ⟨s', hread, hadvances, hgraph, hcollections⟩ := Library.exists_descriptors h.toUnderway
    (h.untouched .modules Holding.modules_mem)
    (.inl (h.untouched .collections Holding.collections_mem)) hofferEmpties hofferGraph hspecs
  refine ⟨s', hread, ⟨h.toUnderway.of_advances hadvances not_mem_plain_resolving, hgraph,
    hcollections, fun holding hmem => ?_⟩, hadvances.linkage⟩
  by_cases hmodules : holding.classId = 7
  · rw [hmodules]
    exact .inr hgraph.1
  · by_cases hcollection : holding.classId = 5
    · obtain rfl := eq_of_classId_eq Holding.collections_mem hmem
        hcollection
      exact hcollections.imp_right fun hserves => hserves.settled.1
    · have hnot : holding.classId ∉ [(5 : ClassId), 7] := by simp [hmodules, hcollection]
      refine .inl ((h.untouched holding hmem).of_advances hmem h.evolves hadvances hnot ?_)
      simp only [List.forall_mem_cons]
      exact ⟨className_ne Holding.collections_mem hmem hcollection,
        className_ne Holding.modules_mem hmem hmodules, by simp⟩

theorem Resolved.note (h : Resolved b specs s) (e : Event) : Resolved b specs (s.note e) :=
  h.of_relinked (h.hooked.note e) (.refl _) fun _ => rfl

/-- Another class becomes ready. -/
theorem Resolved.of_advances (h : Resolved b specs s) (hmem : holding ∈ Holding.all)
    (hadvances : Advances b specs [holding.classId] s s') (hother : holding.classId ≠ 7)
    (hready : s'.machine.stateOf holding.classId = .ready) (hcollections : Unspoiled b s') :
    Resolved b specs s' where
  toUnderway := h.toUnderway.of_advances hadvances fun k hk heq =>
    not_mem_plainClasses hmem (List.mem_singleton.1 heq ▸ hk)
  graph := h.graph.of_advances (content_graph specs) hadvances.toAdvances fun heq =>
    hother (List.mem_singleton.1 heq).symm
  collections := hcollections
  others other hothers := by
    by_cases hsame : other.classId = holding.classId
    · rw [hsame]
      exact .inr hready
    · have hne : other.classId ∉ [holding.classId] := fun heq => hsame (List.mem_singleton.1 heq)
      refine (h.others other hothers).imp (fun huntouched => ?_) fun hready =>
        hadvances.ready hne hready
      refine huntouched.of_advances hothers h.evolves hadvances hne fun c hc => ?_
      rw [List.mem_singleton.1 hc]
      exact className_ne hmem hothers hsame

/-- A class whose objects are not those of the collections or the modules has become ready. -/
theorem Resolved.of_advances_other (h : Resolved b specs s) (hmem : holding ∈ Holding.all)
    (hadvances : Advances b specs [holding.classId] s s')
    (hready : s'.machine.stateOf holding.classId = .ready)
    (hcollections : holding.classId ≠ 5) (hmodules : holding.classId ≠ 7) :
    Resolved b specs s' := by
  have hne : (5 : ClassId) ∉ [holding.classId] := fun heq =>
    hcollections (List.mem_singleton.1 heq).symm
  refine h.of_advances hmem hadvances hmodules hready ?_
  refine h.collections.imp (fun huntouched => ?_) fun hserves =>
    hserves.of_advances hadvances.toAdvances hne
  refine huntouched.of_advances Holding.collections_mem h.evolves hadvances hne fun c hc => ?_
  rw [List.mem_singleton.1 hc]
  exact className_ne hmem Holding.collections_mem fun heq => hcollections heq.symm

/-- **A request for a class with archived state** in a process that uses no archive. -/
theorem Resolved.exists_request (h : Resolved b specs s) (hmem : holding ∈ Holding.all)
    (hunmapped : ∀ name, ∃ fault, b.subgraph name = .error fault) :
    ∃ s', request holding.classId s = (.ok (), s') ∧ Resolved b specs s' ∧
      s'.machine.linkage = s.machine.linkage := by
  rcases h.others holding hmem with huntouched | hready
  · have hall := hmem
    simp only [Holding.all, List.mem_cons, List.not_mem_nil, or_false] at hall
    rcases hall with rfl | rfl | rfl | rfl
    · obtain ⟨s', hgranted, hadvances, hsettled⟩ := exists_request_integers h.toUnderway huntouched
        (.inl (hunmapped _)) (Nat.le_refl _)
      exact ⟨s', hgranted, h.of_advances_other hmem hadvances hsettled.1 (by decide) (by decide),
        hadvances.linkage⟩
    · obtain ⟨s', hgranted, hadvances, hserves⟩ := exists_request_collections h.toUnderway
        huntouched (.inl (hunmapped _)) (Nat.le_refl _)
      exact ⟨s', hgranted,
        h.of_advances hmem hadvances (by decide) hserves.settled.1 (.inr hserves),
        hadvances.linkage⟩
    · have hready := h.graph.1
      rw [huntouched.uninitialized] at hready
      cases hready
    · obtain ⟨s', hgranted, hadvances, hsettled⟩ := exists_request_locales h.toUnderway huntouched
        (.inl (hunmapped _)) (Nat.le_refl _)
      exact ⟨s', hgranted, h.of_advances_other hmem hadvances hsettled.1 (by decide) (by decide),
        hadvances.linkage⟩
  · exact ⟨s.note (.granted holding.classId), requestWithin_of_ready _ hready, h.note _, rfl⟩

/-- **Initializing classes leaves the linked modules alone.** -/
theorem Resolved.exists_requestEach (hunmapped : ∀ name, ∃ fault, b.subgraph name = .error fault)
    {classes : List ClassId} (h : Resolved b specs s)
    (hclasses : ∀ c ∈ classes, c ∈ standard.classes) :
    ∃ s', requestEach classes s = (.ok (), s') ∧ Resolved b specs s' ∧
      s'.machine.linkage = s.machine.linkage := by
  induction classes generalizing s with
  | nil => exact ⟨s, rfl, h, rfl⟩
  | cons c rest ih =>
    obtain ⟨hc, hrest⟩ := List.forall_mem_cons.1 hclasses
    have hall : standard.classes = Holding.all.map Holding.classId := rfl
    obtain ⟨holding, hmem, rfl⟩ := List.mem_map.1 (hall ▸ hc)
    obtain ⟨s₁, hgranted, h₁, hlinkage₁⟩ := h.exists_request hmem hunmapped
    obtain ⟨s₂, hothers, h₂, hlinkage₂⟩ := ih h₁ hrest
    exact ⟨s₂, (requestEach_cons hgranted).trans hothers, h₂, hlinkage₂.trans hlinkage₁⟩

end Relinking

end Library

end ClassSharing
