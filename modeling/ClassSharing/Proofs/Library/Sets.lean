import ClassSharing.Proofs.Library.Membership
import ClassSharing.Proofs.Library.Processes
import ClassSharing.Proofs.Library.Resolving

/-!
# Immutable sets

Making a set, asking it for values and visiting its elements are operations of a process, but each
of them does its work on one table, and what is known of tables decides what they answer. A set is
known by its table alone: whatever happens to the process afterwards, as long as the table is left
as it is, the set has the same elements.

The class of sets is found by its instance variables. So nothing here depends on where on a machine
the library has been installed, or on what else has been defined there; only the empty set, which is
shared, needs a process whose collections can be had.

## Main definitions

* `Library.MakesSets`: where sets are made
* `Library.IsSetOf`: an object is a set of elements
* `Library.Scrambles`: the collections are ready, with a salt and a direction

## Main results

* `Library.setClass_of_install`: the class of sets of a library, on any machine
* `Library.setOf_implements_sets`: which sets can be made, and what they contain
* `Library.setElements_visits_once`: the elements are visited once each, whatever the salt is
-/

namespace ClassSharing

namespace Library

open Session

/-! ### The class of sets -/

section Installation

variable {s s' : Session} {m : Machine} {c : ClassId}

/-- A class below the root with the instance variables of sets. -/
structure SetShape (m : Machine) (c : ClassId) : Prop where
  rooted : m.Rooted
  pos : Machine.objectClass < c
  lt_size : c < m.classes.size
  superclass : (m.classAt c).superclass = some Machine.objectClass
  instanceVariables : (m.classAt c).instanceVariables = ["table", "size"]
  slotCount : (m.classAt c).slotCount = 2

theorem SetShape.setClass (h : SetShape m c) : SetClass m c where
  slotCount := h.slotCount
  slotIndex? name := by rw [h.rooted.slotIndex? h.pos h.superclass, h.instanceVariables]

theorem SetShape.withClass (h : SetShape m c) (spec : ClassSpec) :
    SetShape (withClass m spec) c := by
  have hclass : (Library.withClass m spec).classAt c = m.classAt c := by
    rw [Library.withClass, Machine.classAt_addClass, if_neg (Nat.ne_of_lt h.lt_size)]
  have hsize : (Library.withClass m spec).classes.size = m.classes.size + 1 := Array.size_push _
  exact ⟨h.rooted.addClass _, h.pos, by rw [hsize]; exact Nat.lt_succ_of_lt h.lt_size,
    by rw [hclass, h.superclass], by rw [hclass, h.instanceVariables], by rw [hclass, h.slotCount]⟩

theorem setShape_withClass (h : m.Rooted) {spec : ClassSpec}
    (hsuper : spec.superclass = some Machine.objectClass)
    (hvariables : spec.instanceVariables = ["table", "size"]) :
    SetShape (withClass m spec) m.classes.size := by
  have hclass : (withClass m spec).classAt m.classes.size = m.makeClass spec (some .boot) := by
    rw [withClass, Machine.classAt_addClass, if_pos rfl]
  have hsize : (withClass m spec).classes.size = m.classes.size + 1 := Array.size_push _
  have hinherited : m.inheritedSlots (some Machine.objectClass) = 0 :=
    Class.eq_of_shape Class.slotCount (fun _ => rfl) h.shape
  refine ⟨h.addClass _, h.lt_size, hsize ▸ Nat.lt_succ_self _, ?_, ?_, ?_⟩
  · rw [hclass]
    exact hsuper
  · rw [hclass]
    exact hvariables
  · rw [hclass, Machine.makeClass, hsuper, hinherited, hvariables]
    rfl

/-- A class that the library has defined. -/
theorem of_defineClass {space name : Text} {instanceVariables statics : List Text}
    {initializer : Initializer}
    (h : defineClass space name instanceVariables statics initializer s = (.ok c, s')) :
    c = s.machine.classes.size ∧ s'.machine = withClass s.machine
      { name := name, space := space, superclass := some Machine.objectClass
        instanceVariables := instanceVariables, statics := statics
        initializer := initializer } := by
  rw [defineClass, exceptBind_apply (machine_apply s), Machine.defineClass] at h
  cases hlookup : s.machine.lookup (Class.qualify space name) with
  | some old =>
    simp only [ClassSpec.fullName, hlookup] at h
    cases h
  | none =>
    simp only [ClassSpec.fullName, hlookup] at h
    obtain ⟨hanswer, rfl⟩ := Prod.mk.inj h
    exact ⟨(Except.ok.inj hanswer).symm, rfl⟩

/-- **Installing the library defines a class of sets**, on any machine with the usual root. -/
theorem setClass_of_install {seeds : SeedSource} {lib : Library} (hrooted : s.machine.Rooted)
    (h : install seeds s = (.ok lib, s')) : SetClass s'.machine lib.set := by
  obtain ⟨_, s₀, hstart, h⟩ := exists_of_exceptBind_eq_ok h
  obtain ⟨integer, s₁, hinteger, h⟩ := exists_of_exceptBind_eq_ok h
  obtain ⟨integerCache, s₂, hcache, h⟩ := exists_of_exceptBind_eq_ok h
  obtain ⟨set, s₃, hset, h⟩ := exists_of_exceptBind_eq_ok h
  obtain ⟨collections, s₄, hcollections, h⟩ := exists_of_exceptBind_eq_ok h
  obtain ⟨descriptor, s₅, hdescriptor, h⟩ := exists_of_exceptBind_eq_ok h
  obtain ⟨moduleGraph, s₆, hgraph, h⟩ := exists_of_exceptBind_eq_ok h
  obtain ⟨locale, s₇, hlocale, h⟩ := exists_of_exceptBind_eq_ok h
  obtain ⟨localeCache, s₈, hlocales, h⟩ := exists_of_exceptBind_eq_ok h
  obtain ⟨hanswer, rfl⟩ := Prod.mk.inj h
  obtain rfl := Except.ok.inj hanswer
  obtain ⟨-, rfl⟩ := Prod.mk.inj hstart
  obtain ⟨-, hinteger⟩ := of_defineClass hinteger
  obtain ⟨-, hcache⟩ := of_defineClass hcache
  have hrooted₂ : s₂.machine.Rooted := by
    rw [hcache, hinteger]
    exact (hrooted.addClass _).addClass _
  obtain ⟨rfl, hmachine⟩ := of_defineClass hset
  have hshape : SetShape s₃.machine s₂.machine.classes.size :=
    hmachine ▸ setShape_withClass hrooted₂ rfl rfl
  rw [(of_defineClass hlocales).2, (of_defineClass hlocale).2, (of_defineClass hgraph).2,
    (of_defineClass hdescriptor).2, (of_defineClass hcollections).2]
  exact (((((hshape.withClass _).withClass _).withClass _).withClass _).withClass _).setClass

end Installation

/-! ### Sets -/

/-- An object is a set of elements. -/
def IsSetOf (m : Machine) (elements : List Value) (set : Option ObjectId) : Prop :=
  ∃ places, placesOf m set = .ok places ∧ SetTable.Holds places elements

section Sets

variable {m m' : Machine} {elements : List Value} {o : Option ObjectId}

/-- A set has its elements as long as its table has. -/
theorem IsSetOf.of_placesOf_eq (h : IsSetOf m elements o) (heq : placesOf m' o = placesOf m o) :
    IsSetOf m' elements o := by
  obtain ⟨places, hplaces, hholds⟩ := h
  exact ⟨places, heq.trans hplaces, hholds⟩

theorem IsSetOf.setContains (h : IsSetOf m elements o) (v : Value) :
    setContains m o v = .ok (decide (v ∈ elements)) := by
  obtain ⟨places, hplaces, hholds⟩ := h
  rw [Library.setContains, hplaces, ← hholds.contains]
  rfl

theorem placesOf_of_setClass {set : ClassId} (h : SetClass m set) {object table : ObjectId}
    {size : Int64} (ho : m.objectAt object = instanceOf set [.obj table, .int size]) :
    placesOf m (some object) = .ok (m.objectAt table).elementList := by
  have hslot : m.slotIndex? set "table" = some 0 := h.slotIndex? "table"
  have hfield : m.getField object "table" = .ok (.obj table) := by
    rw [Machine.getField, Machine.fieldIndex, ho]
    simp only [instanceOf, hslot]
    rfl
  rw [placesOf, tableOf]
  simp only [hfield]
  rfl

/-- A new set has the table that was made for it. -/
theorem placesOf_withObjects {set : ClassId} {array : Object} {size : Int64} (h : SetClass m set) :
    placesOf (m.withObjects [array, instanceOf set [.obj m.objects.size, .int size]])
      (some (m.objects.size + 1)) = .ok array.elementList := by
  let objects := [array, instanceOf set [.obj m.objects.size, .int size]]
  have hplace := @Machine.objectAt_append m (m.withObjects objects) objects rfl
  have hset := h.of_evolves (Machine.evolves_withObjects m objects)
  refine (placesOf_of_setClass hset (hplace 1)).trans ?_
  exact congrArg (fun object => Except.ok object.elementList) (hplace 0)

/-- A set of texts without any. -/
theorem HoldsSet.isSetOf_nil {set : ObjectId} (hm : installed.Evolves m)
    (h : HoldsSet m [] set) : IsSetOf m [] (some set) := by
  obtain ⟨table, size, places, hset, htable, hpresent⟩ := h
  refine ⟨places, ?_, fun v hv hne => ?_, List.nodup_nil, hpresent⟩
  · rw [placesOf_of_setClass ((fits_of_evolves hm).setClass) hset, htable]
    rfl
  · exact absurd (hpresent.mem_iff.1 (SetTable.mem_present_iff.2 ⟨hv, hne⟩)) List.not_mem_nil

end Sets

/-! ### Making sets -/

/-- Where sets are made: their class has the slots of one, and a set without elements is the shared
one of a process that can get the collections. -/
structure MakesSets (request : Requester) (set collections : ClassId) (elements : List Value)
    (s : Session) : Prop where
  setClass : SetClass s.machine set
  empties : elements = [] → collections = 5 ∧ ∃ b specs depth,
    Available b specs depth s ∧ request 5 s = requestWithin depth 5 s

/-- A process that can get the collections makes sets of any elements. -/
theorem Available.makesSets {b : MappedBoot} {specs : List ModuleSpec} {depth : Nat} {s : Session}
    (h : Available b specs depth s) {request : Requester}
    (hrequest : request 5 s = requestWithin depth 5 s) (elements : List Value) :
    MakesSets request 4 5 elements s :=
  ⟨(fits_of_evolves h.underway.evolves).setClass, fun _ => ⟨rfl, b, specs, depth, h, hrequest⟩⟩

section Making

variable {request : Requester} {set collections : ClassId} {elements : List Value}
  {s s' : Session} {o : Option ObjectId}

/-- **A set is made** of different integers and strings. -/
theorem MakesSets.exists_setOf (h : MakesSets request set collections elements s)
    (hadmissible : SetTable.Admissible elements) :
    ∃ o s', setOf request set collections elements s = (.ok o, s') ∧
      IsSetOf s'.machine elements o := by
  cases elements with
  | nil =>
    obtain ⟨rfl, b, specs, depth, havailable, hrequest⟩ := h.empties rfl
    obtain ⟨s', empty, hempty, ⟨-, havailable'⟩, -, hholds⟩ :=
      (Available.supplies s).exists_emptySet havailable.turns hrequest
    exact ⟨some empty, s', hempty, hholds.isSetOf_nil havailable'.underway.evolves⟩
  | cons first rest =>
    obtain ⟨table, htable⟩ :=
      (SetTable.exists_ofElements_iff s.machine.describe (first :: rest)).2 hadmissible
    exact ⟨some (s.machine.objects.size + 1), _,
      exceptBind_apply (newSet_of_setClass h.setClass htable),
      _, placesOf_withObjects h.setClass, SetTable.holds_of_ofElements htable⟩

/-- A set that cannot be made is refused for an element. -/
theorem exists_setOf_refused (hnot : ¬ SetTable.Admissible elements) :
    ∃ fault, SetTable.ofElements s.machine.describe elements = .error fault ∧
      setOf request set collections elements s = (.error (.fault fault), s) := by
  have hne : elements ≠ [] := by
    rintro rfl
    exact hnot ⟨by simp, List.nodup_nil⟩
  cases htable : SetTable.ofElements s.machine.describe elements with
  | ok table => exact absurd ((SetTable.exists_ofElements_iff _ _).1 ⟨table, htable⟩) hnot
  | error fault => exact ⟨fault, rfl, setOf_of_refused hne htable⟩

/-- What has been made is a set of different integers and strings. -/
theorem MakesSets.of_setOf (h : MakesSets request set collections elements s)
    (hmade : setOf request set collections elements s = (.ok o, s')) :
    SetTable.Admissible elements ∧ IsSetOf s'.machine elements o := by
  by_cases hadmissible : SetTable.Admissible elements
  · obtain ⟨o', s'', hmade', hset⟩ := h.exists_setOf hadmissible
    obtain ⟨hanswer, rfl⟩ := Prod.mk.inj (hmade.symm.trans hmade')
    obtain rfl := Except.ok.inj hanswer
    exact ⟨hadmissible, hset⟩
  · obtain ⟨fault, -, hrefused⟩ :=
      @exists_setOf_refused request set collections elements s hadmissible
    cases hmade.symm.trans hrefused

/-- **Immutable sets are sets.** A set can be made exactly of different integers and strings. A call
that fails leaves the session as it is, never for a full table, and if the first element to blame is
a repetition the fault is that of a repetition. A set that has been made contains its elements and
no other value, on every machine on which its table is as it was. -/
theorem setOf_implements_sets (h : MakesSets request set collections elements s) :
    ((∃ o s', setOf request set collections elements s = (.ok o, s')) ↔
      SetTable.Admissible elements) ∧
    (∀ failure s', setOf request set collections elements s = (.error failure, s') →
      s' = s ∧ failure ≠ .fault (.of .fullTable)) ∧
    (∀ before v after, elements = before ++ v :: after → SetTable.Admissible before → v ∈ before →
      ∃ fault, setOf request set collections elements s = (.error (.fault fault), s) ∧
        fault.kinds = [.duplicateElement]) ∧
    ∀ o s', setOf request set collections elements s = (.ok o, s') →
      ∀ m, placesOf m o = placesOf s'.machine o →
        ∀ v, setContains m o v = .ok (decide (v ∈ elements)) := by
  refine ⟨⟨?_, ?_⟩, fun failure s' hfailed => ?_, ?_, fun o s' hmade m hm => ?_⟩
  · rintro ⟨o, s', hmade⟩
    exact (h.of_setOf hmade).1
  · intro hadmissible
    obtain ⟨o, s', hmade, -⟩ := h.exists_setOf hadmissible
    exact ⟨o, s', hmade⟩
  · by_cases hadmissible : SetTable.Admissible elements
    · obtain ⟨o, s'', hmade, -⟩ := h.exists_setOf hadmissible
      cases hfailed.symm.trans hmade
    · obtain ⟨fault, htable, hrefused⟩ := exists_setOf_refused hadmissible
      obtain ⟨hanswer, rfl⟩ := Prod.mk.inj (hfailed.symm.trans hrefused)
      obtain rfl := Except.error.inj hanswer
      refine ⟨rfl, fun heq => ?_⟩
      rw [Failure.fault.inj heq] at htable
      exact SetTable.ofElements_ne_fullTable _ _ htable
  · rintro before v after rfl hbefore hv
    exact ⟨_, setOf_of_refused (by simp) (SetTable.ofElements_of_repeated _ hbefore hv), rfl⟩
  · exact ((h.of_setOf hmade).2.of_placesOf_eq hm).setContains

/-- Different elements, of which the first two have one hash and the third has one below zero. -/
def collidingElements : List Value := [.int 1, .int 4294967296, .int 2147483648, .str "a"]

/-- A process without an archive, before anything has been requested. -/
def unmappedSession : Session :=
  installedSession sampleFiles [] 1 [] ⟨sampleConfig .off, sampleBuild, Status.none, none, none⟩

theorem makesSets_unmappedSession (elements : List Value) :
    MakesSets Session.request 4 5 elements unmappedSession := by
  have hopen : MappedBoot.openWith sampleFiles (sampleConfig .off) sampleBuild
      = .ok ⟨sampleConfig .off, sampleBuild, Status.none, none, none⟩ := rfl
  have hopened := MappedBoot.opened_of_openWith hopen
  have hpending : Pending _ [] Holding.all unmappedSession :=
    pending_installedSession hopened fun k _ => hopened.unmapped rfl _
  have havailable : Available _ [] unmappedSession.machine.uninitializedCount unmappedSession :=
    ⟨hpending.toUnderway, .inl (hopened.unmapped rfl _),
      .inl ⟨hpending.untouched .collections Holding.collections_mem, Nat.le_refl _⟩⟩
  have hrequest : Session.request 5 unmappedSession
      = requestWithin unmappedSession.machine.uninitializedCount 5 unmappedSession := rfl
  exact havailable.makesSets hrequest elements

theorem setOf_implements_sets_collidingElements :
    (∀ v ∈ [Value.int 1, .int 4294967296, .int 12884901890], SetTable.hash v = .ok 1) ∧
    SetTable.hash (.int 2147483648) = .ok (-2147483648) ∧
    (∃ o s', setOf Session.request 4 5 collidingElements unmappedSession = (.ok o, s') ∧
      (∀ v ∈ collidingElements, setContains s'.machine o v = .ok true) ∧
      ∀ v ∈ [Value.int 12884901890, .str "b", .bool true, .nil],
        setContains s'.machine o v = .ok false) ∧
    (∃ fault, setOf Session.request 4 5 (collidingElements ++ [.int 1, .nil]) unmappedSession
        = (.error (.fault fault), unmappedSession) ∧ fault.kinds = [.duplicateElement]) ∧
    ∃ o s', setOf Session.request 4 5 [] unmappedSession = (.ok o, s') ∧
      ∀ v, setContains s'.machine o v = .ok false := by
  have hadmissible : SetTable.Admissible collidingElements := by decide
  obtain ⟨hmade, -, -, hcontains⟩ :=
    setOf_implements_sets (makesSets_unmappedSession collidingElements)
  obtain ⟨-, -, hrepeated, -⟩ :=
    setOf_implements_sets (makesSets_unmappedSession (collidingElements ++ [.int 1, .nil]))
  obtain ⟨hempty, -, -, hnothing⟩ := setOf_implements_sets (makesSets_unmappedSession [])
  obtain ⟨o, s', hset⟩ := hmade.2 hadmissible
  obtain ⟨o', s'', hset'⟩ := hempty.2 ⟨by simp, List.nodup_nil⟩
  refine ⟨by decide, by decide, ⟨o, s', hset, fun v hv => ?_, fun v hv => ?_⟩,
    hrepeated collidingElements (.int 1) [.nil] rfl hadmissible (by decide),
    o', s'', hset', fun v => ?_⟩
  · rw [hcontains o s' hset _ rfl, decide_eq_true hv]
  · have hother : ∀ v ∈ [Value.int 12884901890, .str "b", .bool true, .nil],
        v ∉ collidingElements := by decide
    rw [hcontains o s' hset _ rfl, decide_eq_false (hother v hv)]
  · rw [hnothing o' s'' hset' _ rfl, decide_eq_false List.not_mem_nil]

end Making

/-! ### Visiting the elements -/

/-- In a process a set is as it was on some machine, and the collections are ready, with a salt and
a direction. -/
structure Scrambles (lib : Library) (m : Machine) (o : Option ObjectId) (salt : Int64)
    (backwards : Bool) (s s' : Session) : Prop where
  granted : Run.require request lib.collections s = (.ok (), s')
  salt : s'.machine.static lib.collections "salt" = .int salt
  reverse : s'.machine.static lib.collections "reverse" = .bool backwards
  table : placesOf s'.machine o = placesOf m o

section Visiting

variable {request : Requester} {set collections : ClassId} {lib : Library}
  {elements : List Value} {o : Option ObjectId} {m : Machine} {s s' : Session}

/-- A visit gives what stands in the table of a set, in some order. -/
theorem exists_setElements_eq {salt : Int64} {backwards : Bool} {places : List Value}
    (hgranted : Run.require Session.request lib.collections s = (.ok (), s'))
    (hplaces : placesOf s'.machine o = .ok places)
    (hsalt : s'.machine.static lib.collections "salt" = .int salt)
    (hreverse : s'.machine.static lib.collections "reverse" = .bool backwards) :
    ∃ visited, lib.setElements o s = (.ok visited, s') ∧
      visited.Perm (SetTable.present places) := by
  rw [setElements, exceptBind_apply hgranted, exceptBind_apply (machine_apply s'), hplaces,
    exceptBind_apply (ofPanic_apply places s')]
  by_cases hempty : places.isEmpty = true
  · obtain rfl := List.isEmpty_iff.1 hempty
    exact ⟨[], if_pos hempty ▸ rfl, .refl _⟩
  · refine ⟨SetTable.visit places salt backwards, ?_, SetTable.visit_perm places salt backwards⟩
    rw [if_neg hempty, hsalt, hreverse]
    rfl

theorem Scrambles.exists_setElements {salt : Int64} {backwards : Bool}
    (h : Scrambles lib m o salt backwards s s') (hset : IsSetOf m elements o) :
    ∃ visited, lib.setElements o s = (.ok visited, s') ∧ visited.Perm elements := by
  obtain ⟨places, hplaces, hholds⟩ := hset.of_placesOf_eq h.table
  obtain ⟨visited, hvisited, hperm⟩ :=
    exists_setElements_eq h.granted hplaces h.salt h.reverse
  exact ⟨visited, hvisited, hperm.trans hholds.present⟩

/-- **The elements are visited once each, whatever the salt is.** A visit of a set that has been
made gives its elements in some order, each of them once and nothing else. So two visits, in
processes with any salts and directions, give the same elements. -/
theorem setElements_visits_once (h : MakesSets request set collections elements s)
    (hmade : setOf request set collections elements s = (.ok o, s')) :
    (∀ lib salt backwards t t', Scrambles lib s'.machine o salt backwards t t' →
      ∃ visited, lib.setElements o t = (.ok visited, t') ∧ visited.Perm elements ∧
        ∀ v, visited.count v = if v ∈ elements then 1 else 0) ∧
    ∀ lib salt backwards t t' lib' salt' backwards' u u' visited visited',
      Scrambles lib s'.machine o salt backwards t t' →
      Scrambles lib' s'.machine o salt' backwards' u u' →
      lib.setElements o t = (.ok visited, t') → lib'.setElements o u = (.ok visited', u') →
      visited.Perm visited' := by
  obtain ⟨⟨-, hdistinct⟩, hset⟩ := h.of_setOf hmade
  have hperm : ∀ {lib salt backwards t t' visited}, Scrambles lib s'.machine o salt backwards t t' →
      lib.setElements o t = (.ok visited, t') → visited.Perm elements := by
    intro lib salt backwards t t' visited hscrambles hvisited
    obtain ⟨visited', hvisited', hperm⟩ := hscrambles.exists_setElements hset
    obtain rfl := Except.ok.inj (Prod.mk.inj (hvisited.symm.trans hvisited')).1
    exact hperm
  constructor
  · intro lib salt backwards t t' hscrambles
    obtain ⟨visited, hvisited, hperm⟩ := hscrambles.exists_setElements hset
    exact ⟨visited, hvisited, hperm, fun v => (hperm.count_eq v).trans hdistinct.count⟩
  · intro _ _ _ _ _ _ _ _ _ _ visited visited' ht hu hvisited hvisited'
    exact (hperm ht hvisited).trans (hperm hu hvisited').symm

/-- The library is installed, and its collections are ready. -/
def scrambledSession (salt : Int64) (backwards : Bool) : Session :=
  { Session.new (FileTree.new "/") [] 0 with
    machine := (installed.assigned 5 [("salt", .int salt), ("reverse", .bool backwards)]).setState 5
      .ready }

theorem makesSets_scrambledSession (salt : Int64) (backwards : Bool) {elements : List Value}
    (hne : elements ≠ []) :
    MakesSets Session.request 4 5 elements (scrambledSession salt backwards) :=
  ⟨(fits_of_evolves ((Machine.calm_assigned installed 5 _).evolves.trans
    (Machine.evolves_setState _ 5 .ready))).setClass, fun h => absurd h hne⟩

/-- A session with the set of some elements and their table. -/
def withSet (table elements : List Value) (s : Session) : Session :=
  s.withMachine (s.machine.withObjects
    [⟨some Machine.arrayClass, (s.machine.freshObject Machine.arrayClass).slots, some table⟩,
      instanceOf 4 [.obj s.machine.objects.size, .int (Int64.ofNat elements.length)]])

theorem setElements_visits_once_collidingElements :
    ∃ o s' t, setOf Session.request 4 5 collidingElements (scrambledSession 3 true) = (.ok o, s') ∧
      ∃ visited visited', standard.setElements o s' = (.ok visited, s'.note (.granted 5)) ∧
        standard.setElements o t = (.ok visited', t.note (.granted 5)) ∧
        t.machine.static 5 "salt" = .int (-8) ∧ visited.Perm visited' ∧
        visited.count (.int 4294967296) = 1 := by
  have hne : collidingElements ≠ [] := by decide
  have hsite := fun salt backwards => makesSets_scrambledSession salt backwards hne
  obtain ⟨table, htable⟩ := (SetTable.exists_ofElements_iff
    (scrambledSession 3 true).machine.describe collidingElements).2 (by decide)
  let t := fun salt backwards => withSet table collidingElements (scrambledSession salt backwards)
  have hmade : setOf Session.request 4 5 collidingElements (scrambledSession 3 true)
      = (.ok (some ((scrambledSession 3 true).machine.objects.size + 1)), t 3 true) :=
    exceptBind_apply (newSet_of_setClass (hsite 3 true).setClass htable)
  have hplaces : ∀ salt backwards, placesOf (t salt backwards).machine
      (some ((scrambledSession salt backwards).machine.objects.size + 1)) = .ok table :=
    fun salt backwards => placesOf_withObjects (hsite salt backwards).setClass
  have hscrambles : ∀ salt backwards, Scrambles standard (t 3 true).machine
      (some ((scrambledSession 3 true).machine.objects.size + 1)) salt backwards
      (t salt backwards) ((t salt backwards).note (.granted 5)) := fun salt backwards =>
    ⟨require_eq (requestWithin_of_ready _ rfl), rfl, rfl,
      (hplaces salt backwards).trans (hplaces 3 true).symm⟩
  obtain ⟨hvisits, hsame⟩ := setElements_visits_once (hsite 3 true) hmade
  obtain ⟨visited, hvisited, -, hcount⟩ := hvisits standard 3 true _ _ (hscrambles 3 true)
  obtain ⟨visited', hvisited', -, -⟩ := hvisits standard (-8) false _ _ (hscrambles (-8) false)
  exact ⟨_, t 3 true, t (-8) false, hmade, visited, visited', hvisited, hvisited', rfl,
    hsame _ _ _ _ _ _ _ _ _ _ _ _ (hscrambles 3 true) (hscrambles (-8) false) hvisited hvisited',
    (hcount _).trans (if_pos (by decide))⟩

end Visiting

end Library

end ClassSharing
