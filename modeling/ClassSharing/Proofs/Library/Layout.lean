import ClassSharing.Proofs.Image.Archivable
import ClassSharing.Proofs.Library.Objects

/-!
# The layout of the library's objects

Where nothing is archived, the classes with archived state put their objects on the heap one class
after another: first the members of the archived array, then the array. Only the modules are not the
same in every process, and only a module without packages refers to objects of another class, since
all such modules share the empty set.

The graph behind an archived array can be stored if the texts of the modules are valid and their
number and the numbers of their packages are within the limits.

## Main definitions

* `Library.Layout`: the objects of a class and their places
* `Library.integersLayout`, `Library.collectionsLayout`, `Library.modulesLayout`,
  `Library.localesLayout`: the layouts of the four classes
* `Library.Resolvable`: modules whose graph can be stored

## Main results

* `Library.Layout.Sound`: the objects of a layout can be stored, and refer to each other
* `Library.sound_modulesLayout`: the module graph
-/

namespace ClassSharing

open Cbor (maxLength)

namespace Library

/-! ### Layouts -/

/-- What a class puts on the heap from a place on. -/
structure Layout where
  start : ObjectId
  /-- The members of the archived array, and what they refer to. -/
  members : List Object
  /-- The elements of the archived array. -/
  elements : List Value
  /-- The objects of other classes that the members refer to. -/
  shared : List (Object × ObjectId)

namespace Layout

/-- The objects, the archived array last. -/
def objects (l : Layout) : List Object := l.members ++ [arrayOf l.elements]

/-- The place of the archived array. -/
def root (l : Layout) : ObjectId := l.start + l.members.length

/-- The first place after the objects. -/
def stop (l : Layout) : ObjectId := l.root + 1

/-- The objects with their places. -/
def nodes (l : Layout) : List (Object × ObjectId) := l.objects.zipIdx l.start ++ l.shared

end Layout

/-- References to objects that lie one after another. -/
def row (start : ObjectId) (count : Nat) : List Value := (List.range' start count).map Value.obj

/-- The boxed integers. -/
def integersLayout (start : ObjectId) : Layout where
  start := start
  members := (List.range cacheSize).map fun (i : Nat) =>
    instanceOf 2 [.int (Int64.ofInt (cacheLow + i))]
  elements := row start cacheSize
  shared := []

/-- The empty list, the table of the empty set, and the empty set. -/
def collectionsLayout (start : ObjectId) : Layout where
  start := start
  members := [arrayOf [], arrayOf [], instanceOf 4 [.obj (start + 1), .int (Int64.ofNat 0)]]
  elements := [.obj start, .obj (start + 2)]
  shared := []

/-- The place of the empty set that all modules without packages share. -/
def sharedSet : ObjectId := 259

/-- The table of the packages of a module. -/
def packageTable (spec : ModuleSpec) : List Value :=
  (SetTable.ofElements (fun _ => Text.empty) (spec.packages.map Value.str)).toOption.getD []

/-- The descriptor of a module with a set of packages. -/
def descriptorOf (spec : ModuleSpec) (packages : ObjectId) : Object :=
  instanceOf 6 [.str spec.name, .str spec.loader.name, .obj packages]

/-- The objects of a module, the descriptor last. -/
def moduleObjects (start : ObjectId) (spec : ModuleSpec) : List Object :=
  if spec.packages.isEmpty then [descriptorOf spec sharedSet]
  else [arrayOf (packageTable spec),
    instanceOf 4 [.obj start, .int (Int64.ofNat spec.packages.length)],
    descriptorOf spec (start + 1)]

/-- The objects of modules, which lie one module after another. -/
def modulesFrom (start : ObjectId) : List ModuleSpec → List Object
  | [] => []
  | spec :: rest =>
    moduleObjects start spec ++ modulesFrom (start + (moduleObjects start spec).length) rest

/-- References to the descriptors of modules. -/
def descriptorsFrom (start : ObjectId) : List ModuleSpec → List Value
  | [] => []
  | spec :: rest =>
    .obj (start + (moduleObjects start spec).length - 1) ::
      descriptorsFrom (start + (moduleObjects start spec).length) rest

/-- The module graph. -/
def modulesLayout (specs : List ModuleSpec) : Layout where
  start := 261
  members := modulesFrom 261 specs
  elements := descriptorsFrom 261 specs
  shared := if specs.any fun spec => spec.packages.isEmpty then
      [(arrayOf [], 258), (instanceOf 4 [.obj 258, .int (Int64.ofNat 0)], sharedSet)]
    else []

/-- The locales. -/
def localesLayout (start : ObjectId) : Layout where
  start := start
  members := knownLocales.map fun known => instanceOf 8 [.str known.2.1, .str known.2.2]
  elements := row start knownLocales.length
  shared := []

/-! ### Soundness -/

/-- The classes of the library's objects. -/
def madeClasses : List ClassId := [1, 2, 4, 6, 8]

/-- An object of one of these classes, with the slots that its class has. -/
def Shaped (o : Object) : Prop :=
  ∃ k ∈ madeClasses, o.classId = some k ∧ o.slots.length = (installed.classAt k).slotCount

/-- An object of the library that can be stored. -/
structure Made (o : Object) : Prop where
  shaped : Shaped o
  storable : o.Storable

/-- The objects of a layout can be stored, and refer to each other. -/
structure Layout.Sound (l : Layout) : Prop where
  made : ∀ node ∈ l.nodes, Made node.1
  closed : ∀ node ∈ l.nodes, ∀ o, .obj o ∈ node.1.contents → o ∈ l.nodes.map Prod.snd
  earlier : ∀ node ∈ l.shared, node.2 < l.start
  limited : l.nodes.length ≤ maxLength

theorem shaped_arrayOf (values : List Value) : Shaped (arrayOf values) := ⟨1, by decide, rfl, rfl⟩

theorem shaped_instanceOf {c : ClassId} {values : List Value} (hc : c ∈ slotted)
    (hlength : values.length = (installed.classAt c).slotCount) : Shaped (instanceOf c values) := by
  have hmade : ∀ c ∈ slotted, c ∈ madeClasses := by decide
  exact ⟨c, hmade c hc, rfl, hlength⟩

theorem made_arrayOf {values : List Value} (hlength : values.length ≤ maxLength)
    (hvalues : ∀ v ∈ values, v.Storable) : Made (arrayOf values) where
  shaped := shaped_arrayOf values
  storable := ⟨Nat.zero_le _, hlength, hvalues⟩

theorem made_instanceOf {c : ClassId} {values : List Value} (hc : c ∈ slotted)
    (hlength : values.length = (installed.classAt c).slotCount)
    (hvalues : ∀ v ∈ values, v.Storable) : Made (instanceOf c values) where
  shaped := shaped_instanceOf hc hlength
  storable := by
    have hfew : ∀ c ∈ slotted, (installed.classAt c).slotCount ≤ maxLength := by decide
    refine ⟨hlength.trans_le (hfew c hc), Nat.zero_le _, fun v hv => hvalues v ?_⟩
    rw [Object.contents, instanceOf, Object.elementList] at hv
    simpa using hv

/-! ### References -/

theorem contents_arrayOf (values : List Value) : (arrayOf values).contents = values := rfl

theorem contents_instanceOf (c : ClassId) (values : List Value) :
    (instanceOf c values).contents = values :=
  List.append_nil values

theorem mem_row {start : ObjectId} {count : Nat} {v : Value} :
    v ∈ row start count ↔ ∃ o, v = .obj o ∧ start ≤ o ∧ o < start + count := by
  simp only [row, List.mem_map, List.mem_range'_1]
  constructor
  · rintro ⟨o, ho, rfl⟩
    exact ⟨o, rfl, ho⟩
  · rintro ⟨o, rfl, ho⟩
    exact ⟨o, ho, rfl⟩

theorem storable_of_mem_row {start : ObjectId} {count : Nat} {v : Value} (h : v ∈ row start count) :
    v.Storable := by
  obtain ⟨o, rfl, -⟩ := mem_row.1 h
  exact trivial

theorem length_row (start : ObjectId) (count : Nat) : (row start count).length = count := by
  simp [row]

namespace Layout

variable {l : Layout}

theorem length_objects (l : Layout) : l.objects.length = l.members.length + 1 := by
  simp [objects]

theorem mem_nodes {o : ObjectId} :
    o ∈ l.nodes.map Prod.snd ↔ l.start ≤ o ∧ o < l.stop ∨ o ∈ l.shared.map Prod.snd := by
  rw [nodes, List.map_append, List.mem_append, List.zipIdx_map_snd, List.mem_range'_1,
    length_objects, stop, root, Nat.add_assoc]

/-- A layout is sound if its objects are, and refer to each other or to what they share. -/
theorem Sound.of_objects (hmade : ∀ object ∈ l.objects, Made object)
    (hrefers : ∀ object ∈ l.objects, ∀ o, .obj o ∈ object.contents →
      l.start ≤ o ∧ o < l.stop ∨ o ∈ l.shared.map Prod.snd)
    (hshared : ∀ node ∈ l.shared, Made node.1 ∧ node.2 < l.start ∧
      ∀ o, .obj o ∈ node.1.contents → o ∈ l.shared.map Prod.snd)
    (hlimit : l.objects.length + l.shared.length ≤ maxLength) : l.Sound where
  made node hnode := by
    rcases List.mem_append.1 hnode with hnode | hnode
    · exact hmade node.1 (List.fst_mem_of_mem_zipIdx hnode)
    · exact (hshared node hnode).1
  closed node hnode o ho := by
    rw [mem_nodes]
    rcases List.mem_append.1 hnode with hnode | hnode
    · exact hrefers node.1 (List.fst_mem_of_mem_zipIdx hnode) o ho
    · exact .inr ((hshared node hnode).2.2 o ho)
  earlier node hnode := (hshared node hnode).2.1
  limited := by
    rw [nodes, List.length_append, List.length_zipIdx]
    exact hlimit

end Layout

/-- The layout of objects that hold no references, and of an array of them. -/
theorem sound_of_row {l : Layout} (hmade : ∀ object ∈ l.members, Made object)
    (hrefers : ∀ object ∈ l.members, ∀ o, .obj o ∉ object.contents)
    (helements : l.elements = row l.start l.members.length) (hshared : l.shared = [])
    (hlimit : l.members.length < maxLength) : l.Sound := by
  refine .of_objects ?_ ?_ (by simp [hshared]) ?_
  · rintro object hobject
    rcases List.mem_append.1 hobject with hobject | hobject
    · exact hmade object hobject
    · rw [List.mem_singleton.1 hobject, helements]
      exact made_arrayOf (by rw [length_row]; omega) fun v hv => storable_of_mem_row hv
  · rintro object hobject o ho
    rcases List.mem_append.1 hobject with hobject | hobject
    · exact absurd ho (hrefers object hobject o)
    · rw [List.mem_singleton.1 hobject, helements, contents_arrayOf, mem_row] at ho
      obtain ⟨o', heq, hle, hlt⟩ := ho
      cases heq
      exact .inl ⟨hle, Nat.lt_succ_of_lt hlt⟩
  · rw [hshared, Layout.length_objects, List.length_nil]
    omega

theorem sound_integersLayout (start : ObjectId) : (integersLayout start).Sound := by
  refine sound_of_row ?_ ?_ ?_ rfl ?_
  · intro object hobject
    obtain ⟨i, -, rfl⟩ := List.mem_map.1 hobject
    exact made_instanceOf (by decide) rfl (by simp [Value.Storable])
  · intro object hobject o ho
    obtain ⟨i, -, rfl⟩ := List.mem_map.1 hobject
    simp [contents_instanceOf] at ho
  · rw [integersLayout, List.length_map, List.length_range]
  · rw [integersLayout, List.length_map, List.length_range]
    decide

theorem sound_localesLayout (start : ObjectId) : (localesLayout start).Sound := by
  refine sound_of_row ?_ ?_ ?_ rfl ?_
  · have hmade : ∀ known ∈ knownLocales, known.2.1.Storable ∧ known.2.2.Storable := by decide
    intro object hobject
    obtain ⟨known, hknown, rfl⟩ := List.mem_map.1 hobject
    obtain ⟨hlanguage, hregion⟩ := hmade known hknown
    refine made_instanceOf (by decide) rfl ?_
    simp only [List.forall_mem_cons]
    exact ⟨hlanguage, hregion, by simp⟩
  · intro object hobject o ho
    obtain ⟨known, -, rfl⟩ := List.mem_map.1 hobject
    simp [contents_instanceOf] at ho
  · rfl
  · exact (by decide : knownLocales.length < maxLength)

theorem sound_collectionsLayout (start : ObjectId) : (collectionsLayout start).Sound := by
  refine .of_objects ?_ ?_ (by simp [collectionsLayout]) (by decide : 4 + 0 ≤ maxLength)
  · simp only [Layout.objects, collectionsLayout, List.cons_append, List.nil_append,
      List.forall_mem_cons]
    refine ⟨made_arrayOf (by simp) (by simp), made_arrayOf (by simp) (by simp),
      made_instanceOf (by decide) rfl (by simp [Value.Storable]),
      made_arrayOf (by decide : 2 ≤ maxLength) (by simp [Value.Storable]), by simp⟩
  · simp only [Layout.objects, collectionsLayout, List.cons_append, List.nil_append,
      List.forall_mem_cons, contents_arrayOf, contents_instanceOf]
    refine ⟨by simp, by simp, ?_, ?_, by simp⟩
    · intro o ho
      obtain rfl : o = start + 1 := by simpa using ho
      exact .inl ⟨Nat.le_add_right start 1, Nat.add_lt_add_left (by decide : 1 < 4) start⟩
    · intro o ho
      obtain rfl | rfl : o = start ∨ o = start + 2 := by simpa using ho
      · exact .inl ⟨Nat.le_refl o, Nat.lt_add_of_pos_right (by decide : 0 < 4)⟩
      · exact .inl ⟨Nat.le_add_right start 2, Nat.add_lt_add_left (by decide : 2 < 4) start⟩

/-! ### The module graph -/

/-- The number of objects of a module. -/
def moduleSize (spec : ModuleSpec) : Nat := if spec.packages.isEmpty then 1 else 3

/-- The number of objects in the module graph. Modules without packages share the empty set. -/
def graphSize (specs : List ModuleSpec) : Nat :=
  (specs.map moduleSize).sum + 1 + if specs.any fun spec => spec.packages.isEmpty then 2 else 0

/-- A module that can be described and stored: its texts are valid, its packages are distinct, and
their table is within the limit. -/
structure Describable (spec : ModuleSpec) : Prop where
  name : spec.name.Storable
  packages : ∀ package ∈ spec.packages, package.Storable
  distinct : spec.packages.Nodup
  limited : SetTable.placesPerElement * spec.packages.length ≤ maxLength

/-- Modules whose graph can be stored. -/
structure Resolvable (specs : List ModuleSpec) : Prop where
  describable : ∀ spec ∈ specs, Describable spec
  limited : graphSize specs ≤ maxLength

section Modules

variable {spec : ModuleSpec} {specs : List ModuleSpec} {start : ObjectId}

/-- The table of distinct packages exists, and holds nothing else. -/
theorem packageTable_eq (h : spec.packages.Nodup) :
    (∀ describe, SetTable.ofElements describe (spec.packages.map Value.str)
      = .ok (packageTable spec)) ∧
      (packageTable spec).length = SetTable.placesPerElement * spec.packages.length ∧
      ∀ v ∈ packageTable spec, v = .nil ∨ v ∈ spec.packages.map Value.str := by
  have hdistinct : (spec.packages.map Value.str).Nodup := h.map fun _ _ => Value.str.inj
  have hhash : ∀ v ∈ spec.packages.map Value.str, SetTable.Hashable v := by
    intro v hv
    obtain ⟨package, -, rfl⟩ := List.mem_map.1 hv
    exact SetTable.hashable_str package
  obtain ⟨table, htable, hlength, hmembers⟩ := SetTable.exists_ofElements hhash hdistinct
  have heq : packageTable spec = table := by
    rw [packageTable, htable]
    rfl
  rw [heq]
  rw [List.length_map] at hlength
  exact ⟨htable, hlength, hmembers⟩

theorem one_le_moduleSize (spec : ModuleSpec) : 1 ≤ moduleSize spec := by
  rw [moduleSize]
  split <;> decide

theorem length_moduleObjects (start : ObjectId) (spec : ModuleSpec) :
    (moduleObjects start spec).length = moduleSize spec := by
  rw [moduleObjects, moduleSize]
  split <;> rfl

theorem length_modulesFrom (start : ObjectId) (specs : List ModuleSpec) :
    (modulesFrom start specs).length = (specs.map moduleSize).sum := by
  induction specs generalizing start with
  | nil => rfl
  | cons spec rest ih =>
    rw [modulesFrom, List.length_append, ih, length_moduleObjects, List.map_cons, List.sum_cons]

theorem length_descriptorsFrom (start : ObjectId) (specs : List ModuleSpec) :
    (descriptorsFrom start specs).length = specs.length := by
  induction specs generalizing start with
  | nil => rfl
  | cons spec rest ih => rw [descriptorsFrom, List.length_cons, ih, List.length_cons]

theorem storable_loaderName (kind : LoaderKind) : kind.name.Storable := by
  cases kind <;> decide

theorem made_descriptorOf (h : Describable spec) (packages : ObjectId) :
    Made (descriptorOf spec packages) := by
  refine made_instanceOf (by decide) rfl ?_
  simp only [List.forall_mem_cons]
  exact ⟨h.name, storable_loaderName _, trivial, by simp⟩

theorem made_moduleObjects (h : Describable spec) :
    ∀ object ∈ moduleObjects start spec, Made object := by
  obtain ⟨-, hlength, hmembers⟩ := packageTable_eq h.distinct
  have htable : Made (arrayOf (packageTable spec)) := by
    refine made_arrayOf (by rw [hlength]; exact h.limited) fun v hv => ?_
    rcases hmembers v hv with rfl | hv
    · exact trivial
    · obtain ⟨package, hpackage, rfl⟩ := List.mem_map.1 hv
      exact h.packages package hpackage
  rw [moduleObjects]
  split
  · simp only [List.forall_mem_cons]
    exact ⟨made_descriptorOf h _, by simp⟩
  · simp only [List.forall_mem_cons]
    exact ⟨htable, made_instanceOf (by decide) rfl (by simp [Value.Storable]),
      made_descriptorOf h _, by simp⟩

/-- The objects of a module refer to each other, or to the empty set if it has no packages. -/
theorem refers_moduleObjects (h : spec.packages.Nodup) {object : Object}
    (hobject : object ∈ moduleObjects start spec) {o : ObjectId} (ho : .obj o ∈ object.contents) :
    start ≤ o ∧ o < start + (moduleObjects start spec).length ∨
      o = sharedSet ∧ spec.packages.isEmpty = true := by
  obtain ⟨-, -, hmembers⟩ := packageTable_eq h
  rw [moduleObjects] at hobject ⊢
  split at hobject
  · rename_i hempty
    rw [List.mem_singleton] at hobject
    subst hobject
    simp [descriptorOf, contents_instanceOf] at ho
    exact .inr ⟨ho, hempty⟩
  · rename_i hempty
    refine .inl ?_
    rw [if_neg hempty]
    simp only [List.mem_cons, List.not_mem_nil, or_false] at hobject
    rcases hobject with rfl | rfl | rfl
    · rcases hmembers _ ho with hnil | hstr
      · cases hnil
      · simp at hstr
    · simp [contents_instanceOf] at ho
      subst ho
      exact ⟨Nat.le_refl _, Nat.lt_add_of_pos_right (by simp)⟩
    · simp [descriptorOf, contents_instanceOf] at ho
      subst ho
      exact ⟨Nat.le_add_right _ _, Nat.add_lt_add_left (by simp) _⟩

theorem made_modulesFrom (h : ∀ spec ∈ specs, Describable spec) :
    ∀ object ∈ modulesFrom start specs, Made object := by
  induction specs generalizing start with
  | nil => simp [modulesFrom]
  | cons spec rest ih =>
    obtain ⟨hspec, hrest⟩ := List.forall_mem_cons.1 h
    intro object hobject
    rcases List.mem_append.1 hobject with hobject | hobject
    · exact made_moduleObjects hspec object hobject
    · exact ih hrest object hobject

theorem refers_modulesFrom (h : ∀ spec ∈ specs, Describable spec) {object : Object}
    (hobject : object ∈ modulesFrom start specs) {o : ObjectId} (ho : .obj o ∈ object.contents) :
    start ≤ o ∧ o < start + (modulesFrom start specs).length ∨
      o = sharedSet ∧ (specs.any fun spec => spec.packages.isEmpty) = true := by
  induction specs generalizing start with
  | nil => simp [modulesFrom] at hobject
  | cons spec rest ih =>
    obtain ⟨hspec, hrest⟩ := List.forall_mem_cons.1 h
    rw [modulesFrom, List.length_append, List.any_cons, Bool.or_eq_true]
    rcases List.mem_append.1 hobject with hobject | hobject
    · rcases refers_moduleObjects hspec.distinct hobject ho with ⟨hle, hlt⟩ | ⟨heq, hempty⟩
      · exact .inl ⟨hle, hlt.trans_le (Nat.add_le_add_left (Nat.le_add_right _ _) _)⟩
      · exact .inr ⟨heq, .inl hempty⟩
    · rcases ih hrest hobject with ⟨hle, hlt⟩ | ⟨heq, hempty⟩
      · rw [Nat.add_assoc] at hlt
        exact .inl ⟨(Nat.le_add_right _ _).trans hle, hlt⟩
      · exact .inr ⟨heq, .inr hempty⟩

theorem mem_descriptorsFrom {v : Value} (hv : v ∈ descriptorsFrom start specs) :
    ∃ o, v = .obj o ∧ start ≤ o ∧ o < start + (modulesFrom start specs).length := by
  induction specs generalizing start with
  | nil => cases hv
  | cons spec rest ih =>
    have hpos : 0 < (moduleObjects start spec).length := by
      rw [length_moduleObjects]
      exact one_le_moduleSize spec
    rw [modulesFrom, List.length_append]
    rcases List.mem_cons.1 hv with rfl | hv
    · refine ⟨_, rfl, ?_, ?_⟩
      · exact Nat.le_sub_one_of_lt (Nat.lt_add_of_pos_right hpos)
      · exact Nat.sub_one_lt_of_le (Nat.add_pos_right _ hpos)
          (Nat.add_le_add_left (Nat.le_add_right _ _) _)
    · obtain ⟨o, rfl, hle, hlt⟩ := ih hv
      rw [Nat.add_assoc] at hlt
      exact ⟨o, rfl, (Nat.le_add_right _ _).trans hle, hlt⟩

/-- Every module has an object of its own. -/
theorem length_descriptorsFrom_le (start : ObjectId) (specs : List ModuleSpec) :
    (descriptorsFrom start specs).length ≤ (modulesFrom start specs).length := by
  have hone : ∀ n ∈ specs.map moduleSize, 1 ≤ n := by
    intro n hn
    obtain ⟨spec, -, rfl⟩ := List.mem_map.1 hn
    exact one_le_moduleSize spec
  have hcount := List.length_le_sum_of_one_le _ hone
  rw [List.length_map, ← length_modulesFrom start] at hcount
  rw [length_descriptorsFrom]
  exact hcount

/-- **The module graph can be stored.** -/
theorem sound_modulesLayout (h : Resolvable specs) : (modulesLayout specs).Sound := by
  have hlimit : (modulesLayout specs).objects.length + (modulesLayout specs).shared.length
      = graphSize specs := by
    rw [Layout.length_objects, graphSize, modulesLayout, length_modulesFrom]
    split <;> rfl
  have hmembers : (modulesFrom 261 specs).length < maxLength := by
    have hsize := h.limited
    rw [graphSize, ← length_modulesFrom 261] at hsize
    omega
  have helements : (descriptorsFrom 261 specs).length ≤ maxLength :=
    (length_descriptorsFrom_le 261 specs).trans (Nat.le_of_lt hmembers)
  refine .of_objects ?_ ?_ ?_ (hlimit.trans_le h.limited)
  · intro object hobject
    rcases List.mem_append.1 hobject with hobject | hobject
    · exact made_modulesFrom h.describable object hobject
    · rw [List.mem_singleton.1 hobject]
      refine made_arrayOf helements fun v hv => ?_
      obtain ⟨o, rfl, -⟩ := mem_descriptorsFrom hv
      exact trivial
  · intro object hobject o ho
    -- The objects of a module refer to each other or to the shared set, the array to descriptors.
    rcases List.mem_append.1 hobject with hobject | hobject
    · rcases refers_modulesFrom h.describable hobject ho with ⟨hle, hlt⟩ | ⟨rfl, hempty⟩
      · exact .inl ⟨hle, Nat.lt_succ_of_lt hlt⟩
      · refine .inr ?_
        rw [modulesLayout, if_pos hempty]
        exact List.mem_cons_of_mem _ List.mem_cons_self
    · rw [List.mem_singleton.1 hobject, contents_arrayOf] at ho
      obtain ⟨o', heq, hle, hlt⟩ := mem_descriptorsFrom ho
      cases heq
      exact .inl ⟨hle, Nat.lt_succ_of_lt hlt⟩
  · rw [modulesLayout]
    split
    · simp only [List.forall_mem_cons, contents_arrayOf, contents_instanceOf]
      refine ⟨⟨made_arrayOf (by simp) (by simp), by decide, by simp⟩,
        ⟨made_instanceOf (by decide) rfl (by simp [Value.Storable]), by decide, ?_⟩, by simp⟩
      intro o ho
      simp at ho
      subst ho
      decide
    · simp

end Modules

end Library

end ClassSharing
