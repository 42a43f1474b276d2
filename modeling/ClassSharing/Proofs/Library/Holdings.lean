import ClassSharing.Proofs.Library.Objects

/-!
# Classes with archived state

Four classes of the library hold an array in a static field that is archived, and everything that
can be told from it in others: the array itself, its elements, or constants. An initializer that
finds an array of the right size in the archived field keeps it, and otherwise makes one. What it
does then is the same.

So two machines on which these classes have been initialized agree about all statics of a class as
soon as the graphs behind the archived fields are the same, whether the arrays were made or restored
(`Library.Holding.sameGraph`). The salt of the collections is not among these statics.

## Main definitions

* `Library.Source`: where the value of a static comes from
* `Library.Holding`: a class with archived state
* `Library.Holding.Derived`: the statics of a class are the ones that go with the archived array

## Main results

* `Library.Holding.sameGraph`: the same archived graphs give the same statics
* `Library.Holding.exists_keep`: an initializer that finds an archived array
-/

namespace ClassSharing

namespace Library

open Session

/-! ### Holdings -/

/-- Where the value of a static comes from. -/
inductive Source where
  | constant (n : Int64)
  /-- The archived array. -/
  | array
  /-- An element of it. -/
  | element (i : Nat)
deriving DecidableEq

/-- The value from a source, if the archived array is a given object. -/
def Source.value (m : Machine) (root : ObjectId) : Source → Value
  | constant n => .int n
  | array => .obj root
  | element i => (m.objectAt root).elementList[i]?.getD .nil

/-- A class with archived state. -/
structure Holding where
  classId : ClassId
  /-- The archived field. -/
  field : Text
  /-- The size of the archived array. -/
  size : List ModuleSpec → Nat
  /-- How the array is made where none is archived. -/
  compute : Requester → List ModuleSpec → Run ObjectId
  /-- The statics that come from the array, in the order of their declaration. -/
  sources : List (Text × Source)

namespace Holding

/-- The boxed integers. -/
def integers : Holding where
  classId := 3
  field := "archivedCache"
  size _ := cacheSize
  compute _ _ := do
    let boxes ← (List.range cacheSize).mapM fun (i : Nat) => do
      return Value.obj (← box 2 (Int64.ofInt (cacheLow + i)))
    makeArray boxes
  sources := [("low", .constant (Int64.ofInt cacheLow)),
    ("high", .constant (Int64.ofInt cacheHigh)), ("cache", .array), ("archivedCache", .array)]

/-- The empty collections. -/
def collections : Holding where
  classId := 5
  field := "archivedObjects"
  size _ := 2
  compute _ _ := do
    let emptyList ← makeArray []
    let emptySet ← newSet 4 []
    makeArray [.obj emptyList, .obj emptySet]
  sources := [("emptyList", .element 0), ("emptySet", .element 1), ("archivedObjects", .array)]

/-- The module graph. -/
def modules : Holding where
  classId := 7
  field := "archivedGraph"
  size := List.length
  compute request specs := do makeArray (← specs.mapM (describeModule request 6 4 5))
  sources := [("descriptors", .array), ("archivedGraph", .array)]

/-- The locales. -/
def locales : Holding where
  classId := 9
  field := "archivedLocales"
  size _ := knownLocales.length
  compute _ _ := do
    let locales ← knownLocales.mapM fun (_, language, region) => do
      return Value.obj (← newLocale 8 language region)
    makeArray locales
  sources := [("root", .element 0), ("english", .element 1), ("us", .element 2),
    ("archivedLocales", .array)]

/-- All of them, in the order of initialization. -/
def all : List Holding := [integers, collections, modules, locales]

theorem integers_mem : integers ∈ all := by simp [all]

theorem collections_mem : collections ∈ all := by simp [all]

theorem modules_mem : modules ∈ all := by simp [all]

theorem locales_mem : locales ∈ all := by simp [all]

/-- The names of the statics that come from the archived array. -/
def names (h : Holding) : List Text := h.sources.map Prod.fst

/-- The archived field holds an array of the right size. -/
structure Has (h : Holding) (specs : List ModuleSpec) (m : Machine) (root : ObjectId) : Prop where
  field : m.static h.classId h.field = .obj root
  classId : (m.objectAt root).classId = some Machine.arrayClass
  size : (m.objectAt root).elementList.length = h.size specs

/-- The statics are the ones that go with the archived array. -/
def Derived (h : Holding) (m : Machine) (root : ObjectId) : Prop :=
  ∀ p ∈ h.sources, m.static h.classId p.1 = p.2.value m root

/-! ### The same statics -/

theorem reaches_value {m : Machine} {root o : ObjectId} {source : Source}
    (h : .obj o = source.value m root) : m.Reaches [.obj root] o := by
  have hroot : m.Reaches [.obj root] root := .root List.mem_cons_self
  cases source with
  | constant n => cases h
  | array =>
    cases h
    exact hroot
  | element i =>
    refine .step hroot (List.mem_append_right _ ?_)
    rw [Source.value] at h
    cases hget : (m.objectAt root).elementList[i]? with
    | none =>
      rw [hget] at h
      cases h
    | some v =>
      rw [hget] at h
      rw [show Value.obj o = v from h]
      exact List.mem_of_getElem? hget

theorem value_rename {m m' : Machine} {root root' : ObjectId} {f : ObjectId → ObjectId}
    (h : Machine.SameGraph m m' [.obj root] [.obj root'] f) (source : Source) :
    source.value m' root' = (source.value m root).rename f := by
  have hroot : root' = f root := h.root_eq
  cases source with
  | constant n => rfl
  | array => rw [Source.value, Source.value, hroot, Value.rename_obj]
  | element i =>
    have helements := h.elements root (.root List.mem_cons_self)
    rw [Source.value, Source.value, hroot, Object.elementList, Object.elementList, helements]
    cases (m.objectAt root).elements with
    | none => rfl
    | some values =>
      rw [Option.map_some, Option.getD_some, Option.getD_some, List.getElem?_map]
      cases values[i]? <;> rfl

/-- **The same archived graphs give the same statics.** -/
theorem sameGraph {holding : Holding} {m m' : Machine} {root root' : ObjectId}
    {f : ObjectId → ObjectId} (hm : holding.Derived m root) (hm' : holding.Derived m' root')
    (h : Machine.SameGraph m m' [.obj root] [.obj root'] f) :
    Machine.SameGraph m m' (holding.names.map (m.static holding.classId))
      (holding.names.map (m'.static holding.classId)) f := by
  have hroots : holding.names.map (m'.static holding.classId)
      = (holding.names.map (m.static holding.classId)).map (Value.rename f) := by
    rw [names, List.map_map, List.map_map, List.map_map]
    refine List.map_congr_left fun p hp => ?_
    simp only [Function.comp_apply]
    rw [hm p hp, hm' p hp, value_rename h]
  rw [hroots]
  refine h.restrict fun o ho => ?_
  obtain ⟨name, hname, hvalue⟩ := List.mem_map.1 ho
  obtain ⟨p, hp, rfl⟩ := List.mem_map.1 hname
  rw [hm p hp] at hvalue
  exact reaches_value hvalue.symm

/-! ### Initializers -/

/-- What a step of an initializer does to a session: it puts some objects on the heap and assigns
statics of the class. -/
structure Filled (holding : Holding) (b : MappedBoot) (specs : List ModuleSpec)
    (objects : List Object) (s s' : Session) : Prop where
  hooked : Hooked b specs s'
  graphs : s'.graphs = s.graphs
  fills : Machine.Fills holding.classId objects s.machine s'.machine

theorem Filled.trans {holding : Holding} {b : MappedBoot} {specs : List ModuleSpec}
    {first second : List Object} {s s' s'' : Session} (h : holding.Filled b specs first s s')
    (h' : holding.Filled b specs second s' s'') :
    holding.Filled b specs (first ++ second) s s'' where
  hooked := h'.hooked
  graphs := h'.graphs.trans h.graphs
  fills := h.fills.trans h'.fills

/-- The archived array is found or made, whatever has been asked before. -/
def Provides (holding : Holding) (b : MappedBoot) (specs : List ModuleSpec) (compute : Run ObjectId)
    (objects : List Object) (root : ObjectId) (s : Session) : Prop :=
  ∃ s₁, archivedOr holding.classId holding.field (holding.size specs) compute s
      = (.ok (.obj root), s₁) ∧
    holding.Filled b specs objects s s₁ ∧ holding.Has specs s₁.machine root

/-- An initializer gives the statics of the class the values that go with an archived array. -/
def Initializes (holding : Holding) (b : MappedBoot) (specs : List ModuleSpec) (body : Run Unit)
    (objects : List Object) (root : ObjectId) (s : Session) : Prop :=
  ∃ s₁, body s = (.ok (), s₁) ∧ holding.Filled b specs objects s s₁ ∧
    holding.Derived s₁.machine root

section Initializers

variable {holding : Holding} {b : MappedBoot} {specs : List ModuleSpec} {s : Session}
  {root : ObjectId}

theorem lt_size (hmem : holding ∈ all) {m : Machine} (h : installed.Evolves m) :
    holding.classId < m.classes.size := by
  have hlt : ∀ holding ∈ all, holding.classId < installed.classes.size := by
    simp only [all, List.forall_mem_cons]
    exact ⟨by decide, by decide, by decide, by decide, by simp⟩
  rw [h.size]
  exact hlt holding hmem

theorem names_declared (hmem : holding ∈ all) {m : Machine} (h : installed.Evolves m) :
    ∀ p ∈ holding.sources, p.1 ∈ (m.classAt holding.classId).statics.names := by
  have hdeclared : ∀ holding ∈ all, ∀ p ∈ holding.sources,
      p.1 ∈ (installed.classAt holding.classId).statics.names := by
    simp only [all, List.forall_mem_cons]
    exact ⟨by decide, by decide, by decide, by decide, by simp⟩
  rw [Class.names_eq_of_shape (h.shapes holding.classId)]
  exact hdeclared holding hmem

theorem field_mem_sources (hmem : holding ∈ all) : (holding.field, .array) ∈ holding.sources := by
  have hsource : ∀ holding ∈ all, (holding.field, Source.array) ∈ holding.sources := by
    simp only [all, List.forall_mem_cons]
    exact ⟨by decide, by decide, by decide, by decide, by simp⟩
  exact hsource holding hmem

theorem filled_refl (h : Hooked b specs s) : holding.Filled b specs [] s s :=
  ⟨h, rfl, Machine.fills_refl s.machine holding.classId⟩

/-- An archived array of the right size is kept. -/
theorem provides_of_has (h : Hooked b specs s) (hhas : holding.Has specs s.machine root)
    (compute : Run ObjectId) : holding.Provides b specs compute [] root s := by
  have harray : isArrayOfSize s.machine (s.machine.static holding.classId holding.field)
      (holding.size specs) = true := by
    rw [hhas.field, isArrayOfSize, hhas.classId, Object.size, hhas.size]
    simp
  refine ⟨s, ?_, filled_refl h, hhas⟩
  rw [archivedOr, exceptBind_apply (machine_apply s), if_pos harray, hhas.field]
  rfl

/-- Assigning statics of the class. -/
theorem Filled.assign {objects : List Object} {s₁ : Session} {m : Machine}
    (h : holding.Filled b specs objects s s₁)
    (hm : Machine.Fills holding.classId [] s₁.machine m) :
    holding.Filled b specs objects s (s₁.withMachine m) := by
  have hassigned : holding.Filled b specs [] s₁ (s₁.withMachine m) :=
    ⟨h.hooked.withMachine m, rfl, hm⟩
  have htrans := h.trans hassigned
  rw [List.append_nil] at htrans
  exact htrans

/-- Assigning a declared field. -/
theorem assign_eq {c : ClassId} {name : Text}
    (h : (s.machine.classAt c).statics.has name = true) (v : Value) :
    assign c name v s = (.ok (), s.withMachine (s.machine.assigned c [(name, v)])) := by
  rw [assign, exceptBind_apply (machine_apply s), Machine.setStatic_eq_ok h,
    exceptBind_apply (ofFault_apply _ s), setMachine_apply]

/-- Assigning declared fields together. -/
theorem assignAll_eq {c : ClassId} {values : List (Text × Value)}
    (h : ∀ kv ∈ values, (s.machine.classAt c).statics.has kv.1 = true) :
    assignAll c values s = (.ok (), s.withMachine (s.machine.assigned c values)) := by
  rw [assignAll, exceptBind_apply (machine_apply s), Machine.setAllStatics_eq_ok h,
    exceptBind_apply (ofFault_apply _ s), setMachine_apply]

/-- Where no array is archived, the computed one is put in the field. -/
theorem archivedOr_of_nil {c : ClassId} {name : Text} {size : Nat} {s₁ : Session}
    {compute : Run ObjectId} (hnil : s.machine.static c name = .nil)
    (hcompute : compute s = (.ok root, s₁))
    (hdeclared : (s₁.machine.classAt c).statics.has name = true) :
    archivedOr c name size compute s
        = (.ok (.obj root), s₁.withMachine (s₁.machine.assigned c [(name, .obj root)])) ∧
      (s₁.machine.assigned c [(name, .obj root)]).static c name = .obj root := by
  constructor
  · rw [archivedOr, exceptBind_apply (machine_apply s), hnil, if_neg (by simp [isArrayOfSize]),
      exceptBind_apply hcompute, exceptBind_apply (assign_eq hdeclared _)]
    rfl
  · rw [Machine.static_assigned_of_declared (by simpa using hdeclared)]
    simp [Statics.lastIn]

theorem has_field (hmem : holding ∈ all) {m : Machine} (h : Fits m) :
    (m.classAt holding.classId).statics.has holding.field = true := by
  rw [h.has]
  have hdeclared := names_declared hmem (Machine.Evolves.refl installed) _ (field_mem_sources hmem)
  exact List.contains_iff_mem.2 hdeclared

/-- Without an archived array, one is made and put in the field. -/
theorem provides_of_nil (hmem : holding ∈ all) {s₁ : Session} {compute : Run ObjectId}
    {objects : List Object} (h : Fits s.machine)
    (hnil : s.machine.static holding.classId holding.field = .nil)
    (hcompute : compute s = (.ok root, s₁)) (hfilled : holding.Filled b specs objects s s₁)
    (harray : (s₁.machine.objectAt root).classId = some Machine.arrayClass)
    (hsize : (s₁.machine.objectAt root).elementList.length = holding.size specs) :
    holding.Provides b specs compute objects root s := by
  obtain ⟨harchived, hfield⟩ := archivedOr_of_nil hnil hcompute
    (has_field hmem (h.of_evolves hfilled.fills.evolves))
  have hassigned := Machine.fills_assigned s₁.machine holding.classId [(holding.field, .obj root)]
  refine ⟨_, harchived, hfilled.assign hassigned, hfield, ?_, ?_⟩
  · rw [machine_withMachine, hassigned.objectAt, harray]
  · rw [machine_withMachine, hassigned.objectAt, hsize]

variable (holding) in
/-- Assigning the statics that go with the archived array. -/
theorem exists_assignAll (h : Fits s.machine)
    (hfield : s.machine.static holding.classId holding.field = .obj root)
    {values : List (Text × Value)}
    (hdeclared : ∀ kv ∈ values, (installed.classAt holding.classId).statics.has kv.1 = true)
    (hvalues : ∀ p ∈ holding.sources,
      Statics.lastIn p.1 values = some (p.2.value s.machine root) ∨
        Statics.lastIn p.1 values = none ∧ p = (holding.field, .array)) :
    ∃ m', assignAll holding.classId values s = (.ok (), s.withMachine m') ∧
      Machine.Fills holding.classId [] s.machine m' ∧ holding.Derived m' root := by
  have hhas : ∀ kv ∈ values, (s.machine.classAt holding.classId).statics.has kv.1 = true := by
    intro kv hkv
    rw [h.has]
    exact hdeclared kv hkv
  refine ⟨_, assignAll_eq hhas, Machine.fills_assigned _ _ _, fun p hp => ?_⟩
  have hvalue : p.2.value (s.machine.assigned holding.classId values) root
      = p.2.value s.machine root := by
    cases p.2 <;> rfl
  rw [Machine.static_assigned_of_declared hhas, hvalue]
  rcases hvalues p hp with hlast | ⟨hlast, rfl⟩
  · rw [hlast]
    rfl
  · rw [hlast]
    exact hfield

/-! ### The statics that go with an archived array -/

theorem elementOf_eq {i : Nat} (hi : i < (s.machine.objectAt root).elementList.length) :
    elementOf (.obj root) i s = (.ok (Source.value s.machine root (.element i)), s) := by
  have hvalue : (s.machine.objectAt root).elementList[i]?
      = some (Source.value s.machine root (.element i)) := by
    rw [Source.value, List.getElem?_eq_getElem hi, Option.getD_some]
  rw [elementOf, exceptBind_apply (machine_apply s), Machine.getElement_eq hvalue, ofPanic_apply]

theorem exists_assign_integers (h : Fits s.machine)
    (hhas : integers.Has specs s.machine root) :
    ∃ m', assignAll 3 [("low", .int (Int64.ofInt cacheLow)), ("high", .int (Int64.ofInt cacheHigh)),
        ("cache", .obj root)] s = (.ok (), s.withMachine m') ∧
      Machine.Fills 3 [] s.machine m' ∧ integers.Derived m' root := by
  refine exists_assignAll integers h hhas.field ?_ ?_
  · simp only [List.forall_mem_cons]
    exact ⟨by decide, by decide, by decide, by simp⟩
  · simp only [integers, List.forall_mem_cons]
    exact ⟨.inl rfl, .inl rfl, .inl rfl, .inr ⟨rfl, trivial⟩, by simp⟩

theorem exists_assign_collections (h : Fits s.machine)
    (hhas : collections.Has specs s.machine root) (salt : Int64) (backwards : Bool) :
    ∃ m', (do
        let list ← elementOf (.obj root) 0
        let set ← elementOf (.obj root) 1
        assignAll 5 [("salt", .int salt), ("reverse", .bool backwards), ("emptyList", list),
          ("emptySet", set)] : Run Unit) s = (.ok (), s.withMachine m') ∧
      Machine.Fills 5 [] s.machine m' ∧ collections.Derived m' root := by
  have hsize : (s.machine.objectAt root).elementList.length = 2 := hhas.size
  rw [exceptBind_apply (elementOf_eq (by omega)), exceptBind_apply (elementOf_eq (by omega))]
  refine exists_assignAll collections h hhas.field ?_ ?_
  · simp only [List.forall_mem_cons]
    exact ⟨by decide, by decide, by decide, by decide, by simp⟩
  · simp only [collections, List.forall_mem_cons]
    exact ⟨.inl rfl, .inl rfl, .inr ⟨rfl, trivial⟩, by simp⟩

theorem exists_assign_modules (h : Fits s.machine)
    (hhas : modules.Has specs s.machine root) :
    ∃ m', assign 7 "descriptors" (.obj root) s = (.ok (), s.withMachine m') ∧
      Machine.Fills 7 [] s.machine m' ∧ modules.Derived m' root := by
  have hassign : ∃ m', assignAll 7 [("descriptors", .obj root)] s = (.ok (), s.withMachine m') ∧
      Machine.Fills 7 [] s.machine m' ∧ modules.Derived m' root := by
    refine exists_assignAll modules h hhas.field ?_ ?_
    · simp only [List.forall_mem_cons]
      exact ⟨by decide, by simp⟩
    · simp only [modules, List.forall_mem_cons]
      exact ⟨.inl rfl, .inr ⟨rfl, trivial⟩, by simp⟩
  have hdeclared : (s.machine.classAt 7).statics.has "descriptors" = true := by
    rw [h.has]
    decide
  obtain ⟨m', hm', hfills, hderived⟩ := hassign
  refine ⟨m', ?_, hfills, hderived⟩
  rw [← hm', assign_eq hdeclared, assignAll_eq (by simpa using hdeclared)]

theorem exists_assign_locales (h : Fits s.machine)
    (hhas : locales.Has specs s.machine root) :
    ∃ m', (do
        let statics ← knownLocales.zipIdx.mapM fun (p : (Text × Text × Text) × Nat) => do
          return (p.1.1, ← elementOf (.obj root) p.2)
        assignAll 9 statics : Run Unit) s = (.ok (), s.withMachine m') ∧
      Machine.Fills 9 [] s.machine m' ∧ locales.Derived m' root := by
  have hsize : (s.machine.objectAt root).elementList.length = 3 := hhas.size
  have hlt : ∀ p ∈ knownLocales.zipIdx, p.2 < 3 := by decide
  have hstatics : knownLocales.zipIdx.mapM (fun (p : (Text × Text × Text) × Nat) =>
      (do return (p.1.1, ← elementOf (.obj root) p.2) : Run (Text × Value))) s
      = (.ok (knownLocales.zipIdx.map fun p =>
        (p.1.1, Source.value s.machine root (.element p.2))), s) := by
    refine mapM_apply fun p hp => ?_
    rw [exceptBind_apply (elementOf_eq (by rw [hsize]; exact hlt p hp))]
    rfl
  rw [exceptBind_apply hstatics]
  refine exists_assignAll locales h hhas.field ?_ ?_
  · have hdeclared : ∀ p ∈ knownLocales.zipIdx,
        (installed.classAt locales.classId).statics.has p.1.1 = true := by decide
    intro kv hkv
    obtain ⟨p, hp, rfl⟩ := List.mem_map.1 hkv
    exact hdeclared p hp
  · simp only [locales, List.forall_mem_cons]
    exact ⟨.inl rfl, .inl rfl, .inl rfl, .inr ⟨rfl, trivial⟩, by simp⟩

/-! ### The initializers -/

theorem askSeed_eq (h : Hooked b specs s) :
    ∃ seed s', Run.act (askSeed (.gate 0)) s = (.ok seed, s') ∧ Hooked b specs s' ∧
      s'.machine = s.machine ∧ s'.graphs = s.graphs := by
  obtain ⟨s₁, hstatus, hhooked, hmachine, hgraphs⟩ := h.gateStatus
  have hseed : ∃ seed, gateSeed 0 s = (seed, s₁) := by
    rw [gateSeed, bind_apply, hstatus]
    simp only [bind_apply, get_apply]
    cases b.status.isDumpingStatic with
    | false => exact ⟨0, rfl⟩
    | true =>
      cases (s₁.gateAt 0).boot with
      | none => exact ⟨0, rfl⟩
      | some boot => exact ⟨_, rfl⟩
  obtain ⟨seed, hseed⟩ := hseed
  refine ⟨seed, { s₁ with lastSeed := some seed }, ?_, hhooked.of_eq rfl rfl rfl rfl rfl, hmachine,
    hgraphs⟩
  have hask : askSeed (.gate 0) s = (seed, { s₁ with lastSeed := some seed }) := by
    rw [askSeed, bind_apply, hseed]
    rfl
  rw [Run.act, lift_apply, hask]

variable {request : Requester} {objects : List Object}

theorem initializes_integers (h : installed.Evolves s.machine)
    (hprovides : integers.Provides b specs (integers.compute request specs) objects root s) :
    integers.Initializes b specs (fillIntegerCache 3 2) objects root s := by
  obtain ⟨s₁, harchived, hfilled, hhas⟩ := hprovides
  obtain ⟨m', hassign, hfills, hderived⟩ :=
    exists_assign_integers (fits_of_evolves (h.trans hfilled.fills.evolves)) hhas
  refine ⟨s₁.withMachine m', ?_, hfilled.assign hfills, hderived⟩
  exact (exceptBind_apply harchived).trans hassign

theorem initializes_collections (h : Hooked b specs s) (hevolves : installed.Evolves s.machine)
    (hprovides : ∀ s₀, Hooked b specs s₀ → s₀.machine = s.machine → s₀.graphs = s.graphs →
      collections.Provides b specs (collections.compute request specs) objects root s₀) :
    collections.Initializes b specs (makeCollections 5 4 (.gate 0)) objects root s := by
  obtain ⟨seed, s₀, hseed, hhooked, hmachine, hgraphs⟩ := askSeed_eq h
  obtain ⟨s₁, harchived, hfilled, hhas⟩ := hprovides s₀ hhooked hmachine hgraphs
  have hevolves₁ : installed.Evolves s₁.machine := by
    rw [← hmachine] at hevolves
    exact hevolves.trans hfilled.fills.evolves
  have hsalt := fun salt : Int64 =>
    exists_assign_collections (fits_of_evolves hevolves₁) hhas salt (decide (salt &&& 1 = 0))
  obtain ⟨m', hassign, hfills, hderived⟩ := hsalt (saltOf (if seed = 0 then s₀.entropy else seed))
  have hfilled' := hfilled.assign hfills
  refine ⟨s₁.withMachine m', ?_, ⟨hfilled'.hooked, hfilled'.graphs.trans hgraphs, ?_⟩, hderived⟩
  · rw [makeCollections, exceptBind_apply hseed, exceptBind_apply (exceptGet_apply s₀)]
    exact (exceptBind_apply harchived).trans hassign
  · rw [← hmachine]
    exact hfilled'.fills

theorem initializes_modules (h : Hooked b specs s) (hevolves : installed.Evolves s.machine)
    (hprovides : modules.Provides b specs (modules.compute request specs) objects root s) :
    modules.Initializes b specs (resolveModuleGraph request 7 6 4 5) objects root s := by
  obtain ⟨s₁, harchived, hfilled, hhas⟩ := hprovides
  obtain ⟨m', hassign, hfills, hderived⟩ :=
    exists_assign_modules (fits_of_evolves (hevolves.trans hfilled.fills.evolves)) hhas
  refine ⟨s₁.withMachine m', ?_, hfilled.assign hfills, hderived⟩
  rw [resolveModuleGraph, exceptBind_apply (exceptGet_apply s), h.moduleSpecs]
  exact (exceptBind_apply harchived).trans hassign

theorem initializes_locales (h : installed.Evolves s.machine)
    (hprovides : locales.Provides b specs (locales.compute request specs) objects root s) :
    locales.Initializes b specs (makeLocales 9 8) objects root s := by
  obtain ⟨s₁, harchived, hfilled, hhas⟩ := hprovides
  obtain ⟨m', hassign, hfills, hderived⟩ :=
    exists_assign_locales (fits_of_evolves (h.trans hfilled.fills.evolves)) hhas
  refine ⟨s₁.withMachine m', ?_, hfilled.assign hfills, hderived⟩
  exact (exceptBind_apply harchived).trans hassign

/-- **What the initializers do**, wherever the archived arrays come from. -/
theorem initializes (hmem : holding ∈ all) (h : Hooked b specs s)
    (hevolves : installed.Evolves s.machine)
    (hprovides : ∀ s₀, Hooked b specs s₀ → s₀.machine = s.machine → s₀.graphs = s.graphs →
      holding.Provides b specs (holding.compute request specs) objects root s₀) :
    holding.Initializes b specs (runBody request holding.classId
      (installed.classAt holding.classId).initializer) objects root s := by
  have hhere := hprovides s h rfl rfl
  simp only [all, List.mem_cons, List.not_mem_nil, or_false] at hmem
  rcases hmem with rfl | rfl | rfl | rfl
  · exact initializes_integers hevolves hhere
  · exact initializes_collections h hevolves hprovides
  · exact initializes_modules h hevolves hhere
  · exact initializes_locales hevolves hhere

end Initializers

end Holding

end Library

end ClassSharing
