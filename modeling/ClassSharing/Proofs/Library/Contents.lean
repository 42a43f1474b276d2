import ClassSharing.Proofs.Library.Restoring

/-!
# What the archived arrays hold

The module graph is an array of descriptors, and each descriptor has the name of its module, the
name of its loader and the set of its packages. How these objects lie on the heap differs from
process to process: the empty set that modules without packages share may have been there before, or
been made on the way, or restored. So the graph is described by what its objects hold and not by
where they are.

What is described in this way stays true when objects are put at the end of the heap, and it is true
of every copy that restoration makes.

## Main definitions

* `Library.HoldsSet`, `Library.Describes`, `Library.HoldsGraph`: sets of texts, descriptors and
  module graphs
* `Library.HoldsEmpties`: the shared empty collections
* `Library.HoldsRow`: the boxed integers, and the preallocated locales
* `Library.Carries`: a renaming takes the objects behind an object to another machine
* `Library.Content`: what is known of the archived array of a class, wherever its objects are
* `Library.Settled`: a class is ready, and something is known of its archived array

## Main results

* `Library.carries_of_grown`, `Library.carries_of_sameGraph`: growing heaps and restored graphs
* `Library.content_empties`, `Library.content_graph`, `Library.content_integers`,
  `Library.content_locales`: the four classes
* `Library.Settled.of_grown`: what is known stays true while the class is left alone
-/

namespace ClassSharing

namespace Library

open Session

/-! ### Descriptions -/

/-- An object is a set of different texts. -/
def HoldsSet (m : Machine) (texts : List Text) (o : ObjectId) : Prop :=
  ∃ table size places, m.objectAt o = instanceOf 4 [.obj table, .int size] ∧
    m.objectAt table = arrayOf places ∧ (SetTable.present places).Perm (texts.map Value.str)

/-- An object is the descriptor of a module. -/
def Describes (m : Machine) (spec : ModuleSpec) (o : ObjectId) : Prop :=
  ∃ set, m.objectAt o = descriptorOf spec set ∧ HoldsSet m spec.packages set

/-- An object is the array of the descriptors of modules. -/
def HoldsGraph (specs : List ModuleSpec) (m : Machine) (root : ObjectId) : Prop :=
  ∃ os : List ObjectId, m.objectAt root = arrayOf (os.map Value.obj) ∧
    List.Forall₂ (Describes m) specs os

/-- An object is the array of an empty list and an empty set. -/
def HoldsEmpties (m : Machine) (root : ObjectId) : Prop :=
  ∃ list set, m.objectAt root = arrayOf [.obj list, .obj set] ∧ m.objectAt list = arrayOf [] ∧
    HoldsSet m [] set

/-- An object is the array of instances of a class with given values in their slots. -/
def HoldsRow (c : ClassId) (rows : List (List Value)) (m : Machine) (root : ObjectId) : Prop :=
  ∃ os : List ObjectId, m.objectAt root = arrayOf (os.map Value.obj) ∧
    List.Forall₂ (fun values o => m.objectAt o = instanceOf c values) rows os

/-- Values that fill the slots of a class and refer to no objects. -/
def Flat (c : ClassId) (values : List Value) : Prop :=
  values.length = (installed.classAt c).slotCount ∧ ∀ v ∈ values, v.object? = none

/-- The values of the boxed integers. -/
def boxedRows : List (List Value) :=
  (List.range cacheSize).map fun (i : Nat) => [.int (Int64.ofInt (cacheLow + i))]

/-- The values of the preallocated locales. -/
def localeRows : List (List Value) :=
  knownLocales.map fun known => [.str known.2.1, .str known.2.2]

section Descriptions

variable {m m' : Machine} {o p : ObjectId}

/-- The table of a set holds texts. -/
theorem eq_nil_or_str {places : List Value} {texts : List Text}
    (h : (SetTable.present places).Perm (texts.map Value.str)) {v : Value} (hv : v ∈ places) :
    v = .nil ∨ ∃ text, v = .str text := by
  by_cases hnil : v = .nil
  · exact .inl hnil
  · have hpresent := SetTable.mem_present_iff.2 ⟨hv, hnil⟩
    obtain ⟨text, -, rfl⟩ := List.mem_map.1 (h.mem_iff.1 hpresent)
    exact .inr ⟨text, rfl⟩

/-! ### Below an object -/

/-- What can be reached from an object is the object itself or lies behind what it holds. -/
theorem reaches_cases (h : m.Reaches [.obj o] p) :
    p = o ∨ ∃ q, .obj q ∈ (m.objectAt o).contents ∧ m.Reaches [.obj q] p := by
  induction h with
  | root hmem => exact .inl (Value.obj.inj (List.mem_singleton.1 hmem))
  | step _ hmem ih =>
    rcases ih with rfl | ⟨q, hq, hreach⟩
    · exact .inr ⟨_, hmem, .root List.mem_cons_self⟩
    · exact .inr ⟨q, hq, .step hreach hmem⟩

theorem reaches_of_contents {q : ObjectId} (hq : .obj q ∈ (m.objectAt o).contents)
    (h : m.Reaches [.obj q] p) : m.Reaches [.obj o] p := by
  refine h.of_roots fun r hr => ?_
  rw [Value.obj.inj (List.mem_singleton.1 hr)]
  exact .step (.root List.mem_cons_self) hq

/-- Only objects of the library are behind an object. -/
def ShapedBelow (m : Machine) (o : ObjectId) : Prop :=
  ∀ p, m.Reaches [.obj o] p → Shaped (m.objectAt p)

theorem ShapedBelow.of_contents (h : Shaped (m.objectAt o))
    (hcontents : ∀ q, .obj q ∈ (m.objectAt o).contents → ShapedBelow m q) : ShapedBelow m o := by
  intro p hp
  rcases reaches_cases hp with rfl | ⟨q, hq, hreach⟩
  · exact h
  · exact hcontents q hq p hreach

theorem HoldsSet.shapedBelow {texts : List Text} (h : HoldsSet m texts o) : ShapedBelow m o := by
  obtain ⟨table, size, places, hset, htable, hplaces⟩ := h
  refine .of_contents (by rw [hset]; exact shaped_instanceOf (by decide) rfl) fun q hq => ?_
  rw [hset, contents_instanceOf] at hq
  obtain rfl : q = table := by simpa using hq
  refine .of_contents (by rw [htable]; exact shaped_arrayOf places) fun r hr => ?_
  rw [htable, contents_arrayOf] at hr
  rcases eq_nil_or_str hplaces hr with heq | ⟨text, heq⟩ <;> cases heq

theorem Describes.shapedBelow {spec : ModuleSpec} (h : Describes m spec o) : ShapedBelow m o := by
  obtain ⟨set, hobject, hset⟩ := h
  refine .of_contents (by rw [hobject]; exact shaped_instanceOf (by decide) rfl) fun q hq => ?_
  rw [hobject, descriptorOf, contents_instanceOf] at hq
  obtain rfl : q = set := by simpa using hq
  exact hset.shapedBelow

theorem HoldsGraph.shapedBelow {specs : List ModuleSpec} (h : HoldsGraph specs m o) :
    ShapedBelow m o := by
  obtain ⟨os, hroot, hdescribed⟩ := h
  refine .of_contents (by rw [hroot]; exact shaped_arrayOf _) fun q hq => ?_
  rw [hroot, contents_arrayOf] at hq
  obtain ⟨descriptor, hmem, heq⟩ := List.mem_map.1 hq
  cases heq
  obtain ⟨i, hi, rfl⟩ := List.mem_iff_getElem.1 hmem
  exact (hdescribed.get (by rw [hdescribed.length_eq]; exact hi) hi).shapedBelow

theorem HoldsEmpties.shapedBelow (h : HoldsEmpties m o) : ShapedBelow m o := by
  obtain ⟨list, set, hroot, hlist, hset⟩ := h
  refine .of_contents (by rw [hroot]; exact shaped_arrayOf _) fun q hq => ?_
  rw [hroot, contents_arrayOf] at hq
  obtain rfl | rfl : q = list ∨ q = set := by simpa using hq
  · refine .of_contents (by rw [hlist]; exact shaped_arrayOf _) fun r hr => ?_
    rw [hlist, contents_arrayOf] at hr
    cases hr
  · exact hset.shapedBelow

theorem HoldsRow.shapedBelow {c : ClassId} {rows : List (List Value)} (h : HoldsRow c rows m o)
    (hc : c ∈ slotted) (hrows : ∀ values ∈ rows, Flat c values) : ShapedBelow m o := by
  obtain ⟨os, hroot, hheld⟩ := h
  refine .of_contents (by rw [hroot]; exact shaped_arrayOf _) fun q hq => ?_
  rw [hroot, contents_arrayOf] at hq
  obtain ⟨member, hmem, heq⟩ := List.mem_map.1 hq
  cases heq
  obtain ⟨i, hi, rfl⟩ := List.mem_iff_getElem.1 hmem
  have hi' : i < rows.length := by rwa [hheld.length_eq]
  have hmember : m.objectAt os[i] = instanceOf c rows[i] := hheld.get hi' hi
  obtain ⟨hlength, hplain⟩ := hrows rows[i] (List.getElem_mem hi')
  refine .of_contents (by rw [hmember]; exact shaped_instanceOf hc hlength) fun r hr => ?_
  rw [hmember, contents_instanceOf] at hr
  cases hplain _ hr

/-! ### On another machine -/

/-- The renaming takes the library's objects behind an object to objects of the same classes that
hold the same, renamed. -/
def Carries (m m' : Machine) (f : ObjectId → ObjectId) (o : ObjectId) : Prop :=
  ∀ p, m.Reaches [.obj o] p → Shaped (m.objectAt p) → m'.objectAt (f p)
    = ⟨(m.objectAt p).classId, (m.objectAt p).slots.map (Value.rename f),
      (m.objectAt p).elements.map (List.map (Value.rename f))⟩

variable {f : ObjectId → ObjectId}

theorem Carries.of_contents (h : Carries m m' f o) {q : ObjectId}
    (hq : .obj q ∈ (m.objectAt o).contents) : Carries m m' f q :=
  fun p hp => h p (reaches_of_contents hq hp)

theorem Carries.arrayOf (h : Carries m m' f o) {values : List Value}
    (ho : m.objectAt o = arrayOf values) :
    m'.objectAt (f o) = Library.arrayOf (values.map (Value.rename f)) := by
  rw [h o (.root List.mem_cons_self) (by rw [ho]; exact shaped_arrayOf values), ho]
  rfl

theorem Carries.instanceOf (h : Carries m m' f o) {c : ClassId} {values : List Value}
    (hc : c ∈ slotted) (hlength : values.length = (installed.classAt c).slotCount)
    (ho : m.objectAt o = instanceOf c values) :
    m'.objectAt (f o) = Library.instanceOf c (values.map (Value.rename f)) := by
  rw [h o (.root List.mem_cons_self) (by rw [ho]; exact shaped_instanceOf hc hlength), ho]
  rfl

theorem HoldsSet.carried {texts : List Text} (h : HoldsSet m texts o) (hf : Carries m m' f o) :
    HoldsSet m' texts (f o) := by
  obtain ⟨table, size, places, hset, htable, hplaces⟩ := h
  have hheld : .obj table ∈ (m.objectAt o).contents := by
    rw [hset]
    exact List.mem_cons_self
  have hsame : places.map (Value.rename f) = places := by
    refine (List.map_congr_left fun v hv => ?_).trans (List.map_id _)
    rcases eq_nil_or_str hplaces hv with rfl | ⟨text, rfl⟩ <;> rfl
  refine ⟨f table, size, places, hf.instanceOf (by decide) rfl hset, ?_, hplaces⟩
  rw [(hf.of_contents hheld).arrayOf htable, hsame]

theorem Describes.carried {spec : ModuleSpec} (h : Describes m spec o) (hf : Carries m m' f o) :
    Describes m' spec (f o) := by
  obtain ⟨set, hobject, hset⟩ := h
  have hheld : .obj set ∈ (m.objectAt o).contents := by
    rw [hobject]
    exact List.mem_cons_of_mem _ (List.mem_cons_of_mem _ List.mem_cons_self)
  exact ⟨f set, hf.instanceOf (by decide) rfl hobject, hset.carried (hf.of_contents hheld)⟩

theorem HoldsGraph.carried {specs : List ModuleSpec} (h : HoldsGraph specs m o)
    (hf : Carries m m' f o) : HoldsGraph specs m' (f o) := by
  obtain ⟨os, hroot, hdescribed⟩ := h
  refine ⟨os.map f, ?_, ?_⟩
  · rw [hf.arrayOf hroot, List.map_map, List.map_map]
    rfl
  · have hcarried : ∀ descriptor ∈ os, Carries m m' f descriptor := fun descriptor hmem =>
      hf.of_contents (by rw [hroot]; exact List.mem_map_of_mem hmem)
    rw [List.forall₂_map_right_iff]
    refine List.forall₂_iff_get.2 ⟨hdescribed.length_eq, fun i hi hi' => ?_⟩
    exact (hdescribed.get hi hi').carried (hcarried _ (List.get_mem _ _))

theorem HoldsEmpties.carried (h : HoldsEmpties m o) (hf : Carries m m' f o) :
    HoldsEmpties m' (f o) := by
  obtain ⟨list, set, hroot, hlist, hset⟩ := h
  have hheld : ∀ q, q = list ∨ q = set → .obj q ∈ (m.objectAt o).contents := by
    rw [hroot, contents_arrayOf]
    simp
  exact ⟨f list, f set, hf.arrayOf hroot, (hf.of_contents (hheld list (.inl rfl))).arrayOf hlist,
    hset.carried (hf.of_contents (hheld set (.inr rfl)))⟩

theorem HoldsRow.carried {c : ClassId} {rows : List (List Value)} (h : HoldsRow c rows m o)
    (hc : c ∈ slotted) (hrows : ∀ values ∈ rows, Flat c values) (hf : Carries m m' f o) :
    HoldsRow c rows m' (f o) := by
  obtain ⟨os, hroot, hheld⟩ := h
  refine ⟨os.map f, ?_, ?_⟩
  · rw [hf.arrayOf hroot, List.map_map, List.map_map]
    rfl
  · rw [List.forall₂_map_right_iff]
    refine List.forall₂_iff_get.2 ⟨hheld.length_eq, fun i hi hi' => ?_⟩
    obtain ⟨hlength, hplain⟩ := hrows _ (List.get_mem rows ⟨i, hi⟩)
    have hcarries : Carries m m' f (os.get ⟨i, hi'⟩) :=
      hf.of_contents (by rw [hroot]; exact List.mem_map_of_mem (List.get_mem os ⟨i, hi'⟩))
    -- Values that refer to no objects are not renamed.
    have hsame : (rows.get ⟨i, hi⟩).map (Value.rename f) = rows.get ⟨i, hi⟩ := by
      refine (List.map_congr_left fun v hv => ?_).trans (List.map_id _)
      have hnone := hplain v hv
      cases v with
      | obj o => cases hnone
      | _ => rfl
    have hmember := hcarries.instanceOf hc hlength (hheld.get hi hi')
    rw [hsame] at hmember
    exact hmember

theorem lt_size_of_shaped (h : Shaped (m.objectAt o)) : o < m.objects.size := by
  by_contra hlt
  obtain ⟨k, -, hclass, -⟩ := h
  rw [Machine.objectAt, Array.getElem?_eq_none (Nat.not_lt.1 hlt)] at hclass
  cases hclass

/-- **Objects at the end of the heap change nothing** about the ones that are there. -/
theorem carries_of_grown (h : m.Grown m') (o : ObjectId) : Carries m m' (fun p => p) o := by
  intro p _ hshaped
  have hid : Value.rename (fun p => p) = id := funext Value.rename_id
  rw [h.objectAt (lt_size_of_shaped hshaped), hid, List.map_id, List.map_id_fun, Option.map_id]
  rfl

/-- **Restored graphs are copies.** -/
theorem carries_of_sameGraph {root' : ObjectId} (hm : installed.Evolves m)
    (hm' : installed.Evolves m') (h : Machine.SameGraph m m' [.obj o] [.obj root'] f) :
    Carries m m' f o := by
  intro p hp hshaped
  obtain ⟨k, hk, hclass, -⟩ := hshaped
  have hlt : ∀ k ∈ madeClasses, k < installed.classes.size := by decide
  have hsame := classId_of_classNameOf hm hm' (hlt k hk) hclass (h.classNames p hp)
  have hslots := h.slots p hp
  have helements := h.elements p hp
  cases hobject : m'.objectAt (f p) with
  | mk classId slots elements =>
    rw [hobject] at hsame hslots helements
    rw [hclass, ← hslots, ← helements, ← hsame]

end Descriptions

/-! ### Computed arrays -/

section Layouts

variable {m m' : Machine}

/-- The computed collections. -/
theorem holdsEmpties_of_layout {m m' : Machine}
    (h : m'.objects = m.objects ++ (collectionsLayout m.objects.size).objects.toArray) :
    HoldsEmpties m' (collectionsLayout m.objects.size).root := by
  have hplace := Machine.objectAt_append h
  refine ⟨m.objects.size, m.objects.size + 2, hplace 3, hplace 0, m.objects.size + 1, _, [],
    hplace 2, hplace 1, .refl _⟩

/-- A computed array whose members lie one after another. -/
theorem holdsRow_of_layout {l : Layout} {c : ClassId} {rows : List (List Value)}
    (h : m'.objects = m.objects ++ l.objects.toArray) (hstart : l.start = m.objects.size)
    (hmembers : l.members = rows.map (instanceOf c))
    (helements : l.elements = row l.start rows.length) :
    HoldsRow c rows m' l.root := by
  have hplace := Machine.objectAt_append h
  rw [hstart] at helements
  refine ⟨List.range' m.objects.size rows.length, ?_,
    List.forall₂_iff_get.2 ⟨by simp, fun i hi hi' => ?_⟩⟩
  · rw [Layout.root, hstart, hplace, Layout.objects, List.getElem?_append_right (Nat.le_refl _)]
    simp [helements, row]
  · rw [List.get_eq_getElem, List.get_eq_getElem, List.getElem_range', Nat.one_mul, hplace,
      Layout.objects, hmembers, List.getElem?_append_left (by simpa using hi)]
    simp [List.getElem?_eq_getElem hi]

theorem holdsRow_integersLayout
    (h : m'.objects = m.objects ++ (integersLayout m.objects.size).objects.toArray) :
    HoldsRow 2 boxedRows m' (integersLayout m.objects.size).root :=
  holdsRow_of_layout h rfl (by rw [boxedRows, List.map_map]; rfl)
    (by rw [boxedRows, List.length_map, List.length_range]; rfl)

theorem holdsRow_localesLayout
    (h : m'.objects = m.objects ++ (localesLayout m.objects.size).objects.toArray) :
    HoldsRow 8 localeRows m' (localesLayout m.objects.size).root :=
  holdsRow_of_layout h rfl rfl rfl

end Layouts

/-! ### Contents -/

/-- What is known of the archived array of a class, wherever its objects are. -/
structure Content (holding : Holding) (specs : List ModuleSpec)
    (C : Machine → ObjectId → Prop) : Prop where
  classId : ∀ {m root}, C m root → (m.objectAt root).classId = some Machine.arrayClass
  size : ∀ {m root}, C m root → (m.objectAt root).elementList.length = holding.size specs
  shapedBelow : ∀ {m root}, C m root → ShapedBelow m root
  carried : ∀ {m m' f root}, C m root → Carries m m' f root → C m' (f root)

/-- The class is ready, and something is known of its archived array. -/
def Settled (holding : Holding) (C : Machine → ObjectId → Prop) (m : Machine) : Prop :=
  m.stateOf holding.classId = .ready ∧ ∃ root, holding.Derived m root ∧ C m root

theorem content_empties (specs : List ModuleSpec) :
    Content .collections specs HoldsEmpties where
  classId h := by
    obtain ⟨list, set, hroot, -⟩ := h
    rw [hroot]
    rfl
  size h := by
    obtain ⟨list, set, hroot, -⟩ := h
    rw [hroot]
    rfl
  shapedBelow := HoldsEmpties.shapedBelow
  carried := HoldsEmpties.carried

theorem content_graph (specs : List ModuleSpec) : Content .modules specs (HoldsGraph specs) where
  classId h := by
    obtain ⟨os, hroot, -⟩ := h
    rw [hroot]
    rfl
  size h := by
    obtain ⟨os, hroot, hdescribed⟩ := h
    have hlength : (os.map Value.obj).length = specs.length := by
      rw [List.length_map, hdescribed.length_eq]
    rw [hroot]
    exact hlength
  shapedBelow := HoldsGraph.shapedBelow
  carried := HoldsGraph.carried

theorem content_row {holding : Holding} {specs : List ModuleSpec} {c : ClassId}
    {rows : List (List Value)} (hc : c ∈ slotted) (hrows : ∀ values ∈ rows, Flat c values)
    (hsize : rows.length = holding.size specs) : Content holding specs (HoldsRow c rows) where
  classId h := by
    obtain ⟨os, hroot, -⟩ := h
    rw [hroot]
    rfl
  size h := by
    obtain ⟨os, hroot, hheld⟩ := h
    rw [hroot, ← hsize, hheld.length_eq]
    exact List.length_map _
  shapedBelow h := h.shapedBelow hc hrows
  carried h := h.carried hc hrows

theorem content_integers (specs : List ModuleSpec) :
    Content .integers specs (HoldsRow 2 boxedRows) := by
  refine content_row (by decide) (fun values hvalues => ?_) ?_
  · obtain ⟨i, -, rfl⟩ := List.mem_map.1 hvalues
    exact ⟨rfl, by simp [Value.object?]⟩
  · rw [boxedRows, List.length_map, List.length_range]
    rfl

theorem content_locales (specs : List ModuleSpec) :
    Content .locales specs (HoldsRow 8 localeRows) := by
  refine content_row (by decide) (fun values hvalues => ?_) rfl
  obtain ⟨known, -, rfl⟩ := List.mem_map.1 hvalues
  exact ⟨rfl, by simp [Value.object?]⟩

section Contents

variable {holding : Holding} {specs : List ModuleSpec} {C : Machine → ObjectId → Prop}
  {m : Machine} {root : ObjectId}

theorem Content.held (hC : Content holding specs C) (hmem : holding ∈ Holding.all)
    (hderived : holding.Derived m root) (h : C m root) : Held holding specs m root :=
  ⟨⟨hderived _ (Holding.field_mem_sources hmem), hC.classId h, hC.size h⟩, hC.shapedBelow h⟩

theorem Content.lt_size (hC : Content holding specs C) (h : C m root) : root < m.objects.size :=
  lt_size_of_shaped (hC.shapedBelow h root (.root List.mem_cons_self))

/-- **What is known stays true** while the heap grows and the class is left alone. -/
theorem Settled.of_grown {m' : Machine} (h : Settled holding C m) (hC : Content holding specs C)
    (hgrown : m.Grown m') (hready : m'.stateOf holding.classId = .ready)
    (hstatics : ∀ name, m'.static holding.classId name = m.static holding.classId name) :
    Settled holding C m' := by
  obtain ⟨-, root, hderived, hcontent⟩ := h
  refine ⟨hready, root, fun p hp => ?_, hC.carried hcontent (carries_of_grown hgrown root)⟩
  have hvalue : p.2.value m' root = p.2.value m root := by
    cases p.2 with
    | constant n => rfl
    | array => rfl
    | element i => rw [Source.value, Source.value, hgrown.objectAt (hC.lt_size hcontent)]
  rw [hstatics, hvalue]
  exact hderived p hp

/-- **What is known stays true while other classes are initialized.** -/
theorem Settled.of_advances {m' : Machine} {cs : List ClassId} (h : Settled holding C m)
    (hC : Content holding specs C) (hadvances : Machine.Advances cs m m')
    (hcs : holding.classId ∉ cs) : Settled holding C m' :=
  h.of_grown hC hadvances.objects (hadvances.ready hcs h.1) fun name => hadvances.static hcs name

/-- What is known of a class when its initializer has succeeded. -/
theorem Content.settled_finish {s : Session} (hC : Content holding specs C)
    (hlt : holding.classId < s.machine.classes.size) (hderived : holding.Derived s.machine root)
    (h : C s.machine root) : Settled holding C (s.finish holding.classId (.ok ())).machine := by
  have hgrown : s.machine.Grown (s.finish holding.classId (.ok ())).machine := .of_eq rfl
  exact ⟨stateOf_finish hlt, root, hderived.finish _, hC.carried h (carries_of_grown hgrown root)⟩

/-- A class that has been restored has what was archived. -/
theorem Restored.settled {s : Session} {kept : ObjectId} (h : Restored m holding kept s)
    (hready : s.machine.stateOf holding.classId = .ready) (hC : Content holding specs C)
    (hm : installed.Evolves m) (hs : installed.Evolves s.machine) (hkept : C m kept) :
    Settled holding C s.machine := by
  obtain ⟨root, hderived, ⟨f, hsame⟩, -⟩ := h.graph
  have hroot : root = f kept := hsame.root_eq
  refine ⟨hready, root, hderived, ?_⟩
  rw [hroot]
  exact hC.carried hkept (carries_of_sameGraph hm hs hsame)

end Contents

end Library

end ClassSharing
