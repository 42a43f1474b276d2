import ClassSharing.Proofs.Machine.Heap
import Mathlib.Data.Finset.Card
import Mathlib.Data.List.FinRange

/-!
# Classes that become ready

Classes without an initializer become ready when they are requested, and nothing else happens to the
machine. The number of uninitialized classes, which bounds the depth of requests, gets smaller with
every class that is begun.

## Main definitions

* `Machine.Readied`: some classes without an initializer have become ready, and nothing else has
  changed
* `Machine.Advances`: some classes with an initializer have been initialized

## Main results

* `Machine.uninitializedCount_le`, `Machine.uninitializedCount_lt`: the number of uninitialized
  classes gets smaller
-/

namespace ClassSharing

namespace Machine

variable {m m' m'' : Machine}

/-! ### Counting uninitialized classes -/

theorem uninitializedCount_eq_card (m : Machine) :
    m.uninitializedCount
      = ((Finset.range m.classes.size).filter fun c => m.stateOf c = .uninitialized).card := by
  have hlist : m.classes.toList = (List.range m.classes.size).map m.classAt := by
    refine List.ext_getElem (by simp) fun i hi _ => ?_
    rw [Array.length_toList] at hi
    simp [classAt, hi]
  have hstate : ∀ c, (m.classAt c).state.isUninitialized
      = decide (m.stateOf c = .uninitialized) := fun c => by
    rw [stateOf]
    cases (m.classAt c).state <;> rfl
  rw [uninitializedCount, ← Array.countP_toList, hlist, List.countP_map,
    List.countP_eq_length_filter]
  rw [← Multiset.coe_card]
  refine congrArg Multiset.card (congrArg _ (List.filter_congr fun c _ => ?_))
  exact hstate c

theorem uninitializedCount_le (hsize : m'.classes.size = m.classes.size)
    (h : ∀ c, m'.stateOf c = .uninitialized → m.stateOf c = .uninitialized) :
    m'.uninitializedCount ≤ m.uninitializedCount := by
  rw [uninitializedCount_eq_card, uninitializedCount_eq_card, hsize]
  exact Finset.card_le_card (Finset.monotone_filter_right _ fun c _ => h c)

/-- A class that is not uninitialized any more makes the number smaller. -/
theorem uninitializedCount_lt {c : ClassId} (hsize : m'.classes.size = m.classes.size)
    (h : ∀ c, m'.stateOf c = .uninitialized → m.stateOf c = .uninitialized)
    (hc : c < m.classes.size) (hbefore : m.stateOf c = .uninitialized)
    (hafter : m'.stateOf c ≠ .uninitialized) : m'.uninitializedCount < m.uninitializedCount := by
  rw [uninitializedCount_eq_card, uninitializedCount_eq_card, hsize]
  refine Finset.card_lt_card (Finset.ssubset_iff_subset_ne.2
    ⟨Finset.monotone_filter_right _ fun c _ => h c, fun heq => hafter ?_⟩)
  have hmem : c ∈ (Finset.range m.classes.size).filter fun c => m.stateOf c = .uninitialized :=
    Finset.mem_filter.2 ⟨Finset.mem_range.2 hc, hbefore⟩
  rw [← heq] at hmem
  exact (Finset.mem_filter.1 hmem).2

/-! ### States -/

theorem stateOf_setState (m : Machine) (c d : ClassId) (state : InitState) :
    (m.setState c state).stateOf d
      = if d = c ∧ c < m.classes.size then state else m.stateOf d := by
  rw [stateOf, setState, classAt_updateClass]
  split <;> rfl

theorem statics_setState (m : Machine) (c d : ClassId) (state : InitState) :
    ((m.setState c state).classAt d).statics = (m.classAt d).statics := by
  rw [setState, classAt_updateClass]
  split <;> rfl

/-- A class that begins to be initialized leaves less to do. -/
theorem uninitializedCount_setState_running {c : ClassId} (hc : c < m.classes.size)
    (h : m.stateOf c = .uninitialized) :
    (m.setState c .running).uninitializedCount < m.uninitializedCount := by
  refine uninitializedCount_lt (evolves_setState m c .running).size (fun d hd => ?_) hc h ?_
  · rw [stateOf_setState] at hd
    split at hd
    · cases hd
    · exact hd
  · rw [stateOf_setState, if_pos ⟨rfl, hc⟩]
    exact InitState.noConfusion

/-! ### Becoming ready -/

/-- Some uninitialized classes without an initializer have become ready, and nothing else has
changed. -/
structure Readied (m m' : Machine) : Prop where
  evolves : m.Evolves m'
  objects : m'.objects = m.objects
  statics : ∀ c, (m'.classAt c).statics = (m.classAt c).statics
  linkage : m'.linkage = m.linkage
  states : ∀ c, m'.stateOf c = m.stateOf c ∨
    (m.classAt c).initializer = .none ∧ m.stateOf c = .uninitialized ∧ m'.stateOf c = .ready

theorem Readied.refl (m : Machine) : m.Readied m :=
  ⟨Evolves.refl m, rfl, fun _ => rfl, rfl, fun _ => .inl rfl⟩

theorem Readied.trans (h : m.Readied m') (h' : m'.Readied m'') : m.Readied m'' where
  evolves := h.evolves.trans h'.evolves
  objects := h'.objects.trans h.objects
  statics c := (h'.statics c).trans (h.statics c)
  linkage := h'.linkage.trans h.linkage
  states c := by
    have hthen := h'.states c
    rw [h.evolves.initializer] at hthen
    rcases h.states c with hc | ⟨hnone, hbefore, hc⟩
    · rw [← hc]
      exact hthen
    · rcases hthen with hc' | ⟨-, hc', -⟩
      · exact .inr ⟨hnone, hbefore, hc'.trans hc⟩
      · rw [hc] at hc'
        cases hc'

theorem Readied.uninitializedCount_le (h : m.Readied m') :
    m'.uninitializedCount ≤ m.uninitializedCount := by
  refine Machine.uninitializedCount_le h.evolves.size fun c hc => ?_
  rcases h.states c with heq | ⟨-, -, hready⟩
  · rw [← heq, hc]
  · rw [hready] at hc
    cases hc

/-- A class that is uninitialized or ready stays one of both. -/
theorem Readied.idle (h : m.Readied m') {c : ClassId}
    (hc : m.stateOf c = .uninitialized ∨ m.stateOf c = .ready) :
    m'.stateOf c = .uninitialized ∨ m'.stateOf c = .ready := by
  rcases h.states c with heq | ⟨-, -, hready⟩
  · rw [heq]
    exact hc
  · exact .inr hready

theorem Readied.static (h : m.Readied m') (c : ClassId) (name : Text) :
    m'.static c name = m.static c name := by
  rw [Machine.static, Machine.static, h.statics]

/-- A class that is begun, and becomes ready after nothing but other classes have. -/
theorem Readied.of_setState {c : ClassId} (hc : c < m.classes.size)
    (hnone : (m.classAt c).initializer = .none)
    (hbefore : m.stateOf c = .uninitialized) (h : (m.setState c .running).Readied m') :
    m.Readied (m'.setState c .ready) := by
  have hsize : c < m'.classes.size := by
    rw [h.evolves.size, (evolves_setState m c .running).size]
    exact hc
  refine ⟨((evolves_setState m c .running).trans h.evolves).trans (evolves_setState m' c .ready),
    h.objects, fun d => ?_, h.linkage, fun d => ?_⟩
  · rw [statics_setState, h.statics, statics_setState]
  · by_cases hd : d = c
    · rw [hd, stateOf_setState, if_pos ⟨rfl, hsize⟩]
      exact .inr ⟨hnone, hbefore, rfl⟩
    · have hstates := h.states d
      rw [stateOf_setState, if_neg fun hdc => hd hdc.1,
        (evolves_setState m c .running).initializer] at hstates
      rw [stateOf_setState, if_neg fun hdc => hd hdc.1]
      exact hstates

/-! ### Initializing classes -/

/-- The machine has moved on with the initialization of some classes: objects are put at the end of
the heap, statics of these classes are assigned, and other classes without an initializer become
ready. -/
structure Advances (cs : List ClassId) (m m' : Machine) : Prop where
  evolves : m.Evolves m'
  objects : m.Grown m'
  statics : ∀ k, k ∉ cs → (m'.classAt k).statics = (m.classAt k).statics
  linkage : m'.linkage = m.linkage
  states : ∀ k, k ∉ cs → m'.stateOf k = m.stateOf k ∨
    (m.classAt k).initializer = .none ∧ m.stateOf k = .uninitialized ∧ m'.stateOf k = .ready

variable {cs cs' : List ClassId}

theorem Readied.advances (h : m.Readied m') : Advances cs m m' :=
  ⟨h.evolves, .of_eq h.objects, fun k _ => h.statics k, h.linkage, fun k _ => h.states k⟩

theorem Fills.advances {c : ClassId} {objects : List Object} (h : Fills c objects m m')
    (hc : c ∈ cs) : Advances cs m m' :=
  ⟨h.evolves, ⟨objects, h.objects⟩, fun k hk => h.statics k fun heq => hk (heq ▸ hc), h.linkage,
    fun k _ => .inl (h.states k)⟩

theorem advances_setState (m : Machine) {c : ClassId} (state : InitState) (hc : c ∈ cs) :
    Advances cs m (m.setState c state) where
  evolves := evolves_setState m c state
  objects := .of_eq rfl
  statics k _ := statics_setState m c k state
  linkage := rfl
  states k hk := by
    have hne : ¬ (k = c ∧ c < m.classes.size) := fun hkc => hk (hkc.1 ▸ hc)
    rw [stateOf_setState, if_neg hne]
    exact .inl rfl

theorem Advances.trans (h : Advances cs m m') (h' : Advances cs m' m'') : Advances cs m m'' where
  evolves := h.evolves.trans h'.evolves
  objects := h.objects.trans h'.objects
  statics k hk := (h'.statics k hk).trans (h.statics k hk)
  linkage := h'.linkage.trans h.linkage
  states k hk := by
    have hthen := h'.states k hk
    rw [h.evolves.initializer] at hthen
    rcases h.states k hk with heq | ⟨hnone, hbefore, hready⟩
    · rw [← heq]
      exact hthen
    · rcases hthen with heq | ⟨-, hbefore', -⟩
      · exact .inr ⟨hnone, hbefore, heq.trans hready⟩
      · rw [hready] at hbefore'
        cases hbefore'

theorem Advances.mono (h : Advances cs m m') (hsubset : cs ⊆ cs') : Advances cs' m m' where
  evolves := h.evolves
  objects := h.objects
  statics k hk := h.statics k fun hmem => hk (hsubset hmem)
  linkage := h.linkage
  states k hk := h.states k fun hmem => hk (hsubset hmem)

theorem Advances.ready (h : Advances cs m m') {k : ClassId} (hk : k ∉ cs)
    (hready : m.stateOf k = .ready) : m'.stateOf k = .ready := by
  rcases h.states k hk with heq | ⟨-, -, hafter⟩
  · rw [heq, hready]
  · exact hafter

/-- A class that is uninitialized or ready stays one of both. -/
theorem Advances.idle (h : Advances cs m m') {k : ClassId} (hk : k ∉ cs)
    (hidle : m.stateOf k = .uninitialized ∨ m.stateOf k = .ready) :
    m'.stateOf k = .uninitialized ∨ m'.stateOf k = .ready := by
  rcases h.states k hk with heq | ⟨-, -, hready⟩
  · rw [heq]
    exact hidle
  · exact .inr hready

theorem Advances.static (h : Advances cs m m') {k : ClassId} (hk : k ∉ cs) (name : Text) :
    m'.static k name = m.static k name := by
  rw [Machine.static, Machine.static, h.statics k hk]

end Machine

end ClassSharing
