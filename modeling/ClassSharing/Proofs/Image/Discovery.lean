import ClassSharing.Proofs.Image.Collect
import ClassSharing.Proofs.Table
import Mathlib.Data.List.Forall2

/-!
# The order of discovery

Collecting reads values in a fixed order and meets objects in them: first the values of the fields,
then, for each found object in turn, its slots and its elements. An object is found where it is met
for the first time. So the list of found objects is given by an equation in which it occurs itself:
it is what is met in the fields and in the found objects, without the repetitions
(`Machine.Discovered.order`). The equation determines the list, and that objects at a smaller
distance from the fields are found earlier follows from it alone.

The names of the classes are the names of the found objects' classes in this order, so nothing has
to be known about how they were gathered either.

## Main definitions

* `Machine.met`: the objects that are met in values
* `Machine.ReachesWithin`: the objects up to a distance from the fields
* `Image.ValueRecord.Stands`, `Machine.Describes`: records of values and objects, in which an object
  is referred to by its place
* `Machine.Discovered`: what a subgraph has to be

## Main results

* `Collector.recordObjects_eq`: the loop over the found objects ends by itself
* `Machine.exists_take_found`: objects at a smaller distance are found earlier
* `Machine.discovered_of_collectSubgraph`: every subgraph lists its graph breadth first
-/

namespace ClassSharing

open Image

/-! ### Meeting objects -/

namespace Machine

/-- The objects that are met in a list of values. -/
def met (values : List Value) : List ObjectId := values.filterMap Value.object?

/-- The objects that are met in the slots and then in the elements of an object. -/
def metIn (m : Machine) (o : ObjectId) : List ObjectId := met (m.objectAt o).contents

theorem mem_met {values : List Value} {o : ObjectId} : o ∈ met values ↔ .obj o ∈ values := by
  rw [met, List.mem_filterMap]
  constructor
  · rintro ⟨v, hv, hobject⟩
    cases v with
    | obj p =>
      obtain rfl := Option.some.inj hobject
      exact hv
    | nil => cases hobject
    | int n => cases hobject
    | bool b => cases hobject
    | str s => cases hobject
  · exact fun h => ⟨_, h, rfl⟩

theorem met_append (values more : List Value) : met (values ++ more) = met values ++ met more :=
  List.filterMap_append

end Machine

open Machine (met metIn met_append)

namespace Collector

variable {m : Machine} {col col' : Collector} {history : List ObjectId}

/-- The collector has found what has been met so far, each object where it was met first. -/
structure Remembers (m : Machine) (col : Collector) (history : List ObjectId) : Prop where
  objects : col.objects = history.eraseDups
  classes : col.classes
    = ((col.objects.map m.classNameOf).filter (· ≠ col.owner)).eraseDups

theorem remembers_start (m : Machine) (owner : Text) : Remembers m ⟨[], [], owner⟩ [] := ⟨rfl, rfl⟩

theorem Remembers.again {o : ObjectId} (h : col.Remembers m history) (ho : o ∈ col.objects) :
    col.Remembers m (history ++ [o]) := by
  have hmem : o ∈ history := by
    rw [h.objects] at ho
    exact List.mem_eraseDups.1 ho
  exact ⟨by rw [eraseDups_concat, if_pos hmem, h.objects], h.classes⟩

theorem Remembers.add {o : ObjectId} (h : col.Remembers m history) (ho : o ∉ col.objects) :
    (col.add o (m.classNameOf o)).Remembers m (history ++ [o]) := by
  have hnew : o ∉ history := by
    rw [h.objects] at ho
    exact fun hmem => ho (List.mem_eraseDups.2 hmem)
  constructor
  · rw [eraseDups_concat, if_neg hnew, ← h.objects]
    rfl
  · change (if _ then col.classes else col.classes ++ [m.classNameOf o])
      = (((col.objects ++ [o]).map m.classNameOf).filter (· ≠ col.owner)).eraseDups
    rw [List.map_append, List.filter_append]
    by_cases howner : m.classNameOf o = col.owner
    · simp [howner, h.classes]
    · -- The name is listed already if and only if another found object has a class of that name.
      have hlisted : m.classNameOf o ∈ col.classes
          ↔ m.classNameOf o ∈ (col.objects.map m.classNameOf).filter (· ≠ col.owner) := by
        rw [h.classes]
        exact List.mem_eraseDups
      have hsingle : ([o].map m.classNameOf).filter (· ≠ col.owner) = [m.classNameOf o] :=
        List.filter_cons_of_pos (decide_eq_true howner)
      rw [hsingle, eraseDups_concat, ← h.classes]
      simp only [howner, decide_false, Bool.false_or, List.contains_iff_mem, hlisted]

theorem remembers_recordObject {o : ObjectId} {r : ValueRecord} (h : col.Remembers m history)
    (heq : col.recordObject m o = .ok (r, col')) : col'.Remembers m (history ++ [o]) := by
  rw [recordObject] at heq
  split at heq
  · rename_i i hi
    obtain ⟨-, rfl⟩ := Prod.mk.inj (Except.ok.inj heq)
    refine h.again ?_
    rw [← List.isSome_idxOf?, hi]
    rfl
  · rename_i hnone
    split at heq
    · cases heq
    · rename_i c hc
      simp only at heq
      split at heq
      · cases heq
      · obtain ⟨-, rfl⟩ := Prod.mk.inj (Except.ok.inj heq)
        rw [← Machine.OnBoot.classNameOf hc]
        exact h.add (List.idxOf?_eq_none_iff.1 hnone)

theorem remembers_record {v : Value} {r : ValueRecord} (h : col.Remembers m history)
    (heq : col.record m v = .ok (r, col')) : col'.Remembers m (history ++ met [v]) := by
  cases v with
  | obj o => exact remembers_recordObject h heq
  | nil =>
    obtain ⟨-, rfl⟩ := Prod.mk.inj (Except.ok.inj heq)
    exact (List.append_nil history).symm ▸ h
  | int n =>
    obtain ⟨-, rfl⟩ := Prod.mk.inj (Except.ok.inj heq)
    exact (List.append_nil history).symm ▸ h
  | bool b =>
    obtain ⟨-, rfl⟩ := Prod.mk.inj (Except.ok.inj heq)
    exact (List.append_nil history).symm ▸ h
  | str s =>
    obtain ⟨-, rfl⟩ := Prod.mk.inj (Except.ok.inj heq)
    exact (List.append_nil history).symm ▸ h

theorem remembers_recordAll {values : List Value} {rs : List ValueRecord}
    (h : col.Remembers m history) (heq : col.recordAll m values = .ok (rs, col')) :
    col'.Remembers m (history ++ met values) := by
  induction values generalizing col history rs with
  | nil =>
    obtain ⟨-, rfl⟩ := Prod.mk.inj (Except.ok.inj heq)
    exact (List.append_nil history).symm ▸ h
  | cons v rest ih =>
    rw [recordAll] at heq
    obtain ⟨⟨r, col₁⟩, hr, heq⟩ := exceptBind_eq_ok_iff.1 heq
    obtain ⟨⟨rs', col₂⟩, hrs, heq⟩ := exceptBind_eq_ok_iff.1 heq
    obtain ⟨-, rfl⟩ := Prod.mk.inj (Except.ok.inj heq)
    have hrest := ih (remembers_record h hr) hrs
    rwa [List.append_assoc, ← met_append] at hrest

theorem remembers_recordContents {o : ObjectId} {r : ObjectRecord} (h : col.Remembers m history)
    (heq : col.recordContents m o = .ok (r, col')) :
    col'.Remembers m (history ++ m.metIn o) := by
  obtain ⟨⟨slots, col₁⟩, hslots, heq⟩ := exceptBind_eq_ok_iff.1 heq
  obtain ⟨⟨elements, col₂⟩, helements, heq⟩ := exceptBind_eq_ok_iff.1 heq
  obtain ⟨-, rfl⟩ := Prod.mk.inj (Except.ok.inj heq)
  have hboth := remembers_recordAll (remembers_recordAll h hslots) helements
  rwa [List.append_assoc, ← met_append] at hboth

theorem remembers_recordFields {c : ClassId} {className : Text} {names : List Text}
    {fs : List FieldRecord} (h : col.Remembers m history)
    (heq : recordFields m c className col names = .ok (fs, col')) :
    col'.Remembers m (history ++ met (names.map (m.static c))) := by
  induction names generalizing col history fs with
  | nil =>
    obtain ⟨-, rfl⟩ := Prod.mk.inj (Except.ok.inj heq)
    exact (List.append_nil history).symm ▸ h
  | cons name rest ih =>
    rw [recordFields] at heq
    split at heq
    · cases heq
    · split at heq
      · cases heq
      · cases heq
      · rename_i r col₁ hr
        obtain ⟨⟨fs', col₂⟩, hfs, heq⟩ := exceptBind_eq_ok_iff.1 heq
        obtain ⟨-, rfl⟩ := Prod.mk.inj (Except.ok.inj heq)
        have hrest := ih (remembers_record h hr) hfs
        rwa [List.append_assoc, ← met_append] at hrest

/-! ### The loop over the found objects -/

/-- What the loop meets from place `i` on is what the objects from there on hold. -/
theorem remembers_recordObjects {fuel i : Nat} {rs : List ObjectRecord} (hvalid : col.Valid m)
    (hfuel : m.objects.size < fuel + i) (h : col.Remembers m history)
    (heq : recordObjects m fuel i col = .ok (rs, col')) :
    col'.Remembers m (history ++ (col'.objects.drop i).flatMap m.metIn) := by
  induction fuel generalizing i col history rs with
  | zero =>
    obtain ⟨-, rfl⟩ := Prod.mk.inj (Except.ok.inj heq)
    have hle := hvalid.length_le
    rw [List.drop_eq_nil_of_le (by omega), List.flatMap_nil, List.append_nil]
    exact h
  | succ fuel ih =>
    rw [recordObjects] at heq
    split at heq
    · rename_i hnone
      obtain ⟨-, rfl⟩ := Prod.mk.inj (Except.ok.inj heq)
      rw [List.drop_eq_nil_of_le (List.getElem?_eq_none_iff.1 hnone), List.flatMap_nil,
        List.append_nil]
      exact h
    · rename_i o ho
      obtain ⟨⟨r, col₁⟩, hr, heq⟩ := exceptBind_eq_ok_iff.1 heq
      obtain ⟨⟨rs', col₂⟩, hrs, heq⟩ := exceptBind_eq_ok_iff.1 heq
      obtain ⟨-, rfl⟩ := Prod.mk.inj (Except.ok.inj heq)
      obtain ⟨hgrows, -⟩ := grows_of_recordContents hvalid hr
      have hrest := ih hgrows.valid (by omega) (remembers_recordContents h hr) hrs
      -- the object at place `i` keeps its place
      have hprefix := hgrows.isPrefix.trans
        (completes_of_recordObjects hgrows.valid (by omega) hrs).isPrefix
      obtain ⟨hi, hget⟩ := List.getElem?_eq_some_iff.1 ho
      have hlt : i < col₂.objects.length := Nat.lt_of_lt_of_le hi hprefix.length_le
      rw [List.drop_eq_getElem_cons hlt, ← hprefix.getElem hi, hget, List.flatMap_cons,
        ← List.append_assoc]
      exact hrest

/-- With an object at place `i` the loop goes on to the next place. -/
theorem recordObjects_of_get {o : ObjectId} {i : Nat} (h : col.objects[i]? = some o)
    (fuel : Nat) : recordObjects m (fuel + 1) i col
      = col.recordContents m o >>= fun made =>
        recordObjects m fuel (i + 1) made.2 >>= fun more => pure (made.1 :: more.1, more.2) := by
  rw [recordObjects, h]

theorem recordObjects_succ {fuel i : Nat} (hvalid : col.Valid m)
    (hfuel : m.objects.size < fuel + i) :
    recordObjects m (fuel + 1) i col = recordObjects m fuel i col := by
  induction fuel generalizing i col with
  | zero =>
    have hle := hvalid.length_le
    have hnone : col.objects[i]? = none := List.getElem?_eq_none (by omega)
    rw [recordObjects.eq_def]
    simp only [hnone]
    rfl
  | succ fuel ih =>
    cases hget : col.objects[i]? with
    | none => rw [recordObjects, recordObjects, hget]
    | some o =>
      rw [recordObjects_of_get hget, recordObjects_of_get hget]
      cases hr : col.recordContents m o with
      | error e => rfl
      | ok made =>
        obtain ⟨hgrows, -⟩ := grows_of_recordContents hvalid hr
        have hrest := ih (i := i + 1) hgrows.valid (by omega)
        exact congrArg (· >>= fun more => pure (made.1 :: more.1, more.2)) hrest

/-- **The loop over the found objects ends by itself**, and not because its fuel is used up. -/
theorem recordObjects_eq {fuel : Nat} (hvalid : col.Valid m) (hfuel : m.objects.size < fuel) :
    recordObjects m fuel 0 col = recordObjects m (m.objects.size + 1) 0 col := by
  induction fuel, hfuel using Nat.le_induction with
  | base => rfl
  | succ fuel hle ih => rw [recordObjects_succ hvalid hle, ih]

end Collector

/-! ### Records by places -/

/-- The archived form of a value; an object is referred to by its place among the found ones. -/
inductive Image.ValueRecord.Stands (found : List ObjectId) : Value → ValueRecord → Prop where
  | nil : Stands found .nil .nil
  | int (n : Int64) : Stands found (.int n) (.ofInt n)
  | bool (b : Bool) : Stands found (.bool b) (.ofBool b)
  | str (s : Text) : Stands found (.str s) (.ofText s)
  | obj {o : ObjectId} {i : Nat} (h : found[i]? = some o) : Stands found (.obj o) (.ofIndex i)

theorem Image.ValueRecord.stands_numbered {found : List ObjectId} {v : Value}
    (h : ∀ o, v = .obj o → o ∈ found) : Stands found v (numbered found v) := by
  cases v with
  | obj o => exact .obj (List.getElem?_idxOf (h o rfl))
  | nil => exact .nil
  | int n => exact .int n
  | bool b => exact .bool b
  | str s => exact .str s

theorem Image.ValueRecord.stands_numbered_all {found : List ObjectId} {values : List Value}
    (h : ∀ o, .obj o ∈ values → o ∈ found) :
    List.Forall₂ (Stands found) values (values.map (numbered found)) := by
  rw [List.forall₂_map_right_iff, List.forall₂_same]
  exact fun v hv => stands_numbered fun o ho => h o (ho ▸ hv)

namespace Machine

/-- The archived form of an object. -/
structure Describes (m : Machine) (found : List ObjectId) (o : ObjectId) (r : ObjectRecord) :
    Prop where
  className : r.className = m.classNameOf o
  indexed : r.indexed = (m.objectAt o).isIndexed
  slots : List.Forall₂ (ValueRecord.Stands found) (m.objectAt o).slots (r.slots.getD [])
  elements : List.Forall₂ (ValueRecord.Stands found) (m.objectAt o).elementList
    (r.elements.getD [])

/-- An object that is not indexed has no elements. -/
theorem Describes.plain {m : Machine} {found : List ObjectId} {o : ObjectId} {r : ObjectRecord}
    (h : m.Describes found o r) (hr : r.indexed = false) : r.elements.getD [] = [] := by
  have hindexed := h.indexed.symm.trans hr
  have helements := h.elements
  rw [Object.isIndexed, Option.isSome_eq_false_iff, Option.isNone_iff_eq_none] at hindexed
  rw [Object.elementList, hindexed] at helements
  exact List.forall₂_nil_left_iff.1 helements

/-! ### Distances -/

/-- The objects that can be reached from a list of values in at most a number of steps. -/
def ReachesWithin (m : Machine) (roots : List Value) : Nat → ObjectId → Prop
  | 0, o => .obj o ∈ roots
  | n + 1, o => .obj o ∈ roots ∨
    ∃ p, m.ReachesWithin roots n p ∧ .obj o ∈ (m.objectAt p).contents

/-- **Objects at a smaller distance are found earlier.** -/
theorem exists_take_found {m : Machine} {roots : List Value} {found : List ObjectId}
    (h : found = (met roots ++ found.flatMap m.metIn).eraseDups) (n : Nat) :
    ∃ k, ∀ o, o ∈ found.take k ↔ m.ReachesWithin roots n o := by
  -- What is met first is found first.
  have htake : ∀ first rest, met roots ++ found.flatMap m.metIn = first ++ rest →
      ∃ k, ∀ o, o ∈ found.take k ↔ o ∈ first := by
    intro first rest hsplit
    rw [hsplit] at h
    have hprefix : first.eraseDups <+: found := h ▸ prefix_eraseDups_append first rest
    refine ⟨first.eraseDups.length, fun o => ?_⟩
    rw [← List.prefix_iff_eq_take.1 hprefix, List.mem_eraseDups]
  induction n with
  | zero =>
    obtain ⟨k, hk⟩ := htake (met roots) _ rfl
    exact ⟨k, fun o => (hk o).trans mem_met⟩
  | succ n ih =>
    obtain ⟨k, hk⟩ := ih
    have hsplit : met roots ++ found.flatMap m.metIn
        = (met roots ++ (found.take k).flatMap m.metIn) ++ (found.drop k).flatMap m.metIn := by
      rw [List.append_assoc, ← List.flatMap_append, List.take_append_drop]
    obtain ⟨k', hk'⟩ := htake _ _ hsplit
    refine ⟨k', fun o => (hk' o).trans ?_⟩
    rw [List.mem_append, List.mem_flatMap, mem_met]
    simp only [hk, metIn, mem_met]
    rfl

/-! ### Subgraphs -/

/-- **What a subgraph has to be**: it lists the graph behind some static fields of a class, breadth
first from the fields. -/
structure Discovered (m : Machine) (c : ClassId) (spec : FieldSpec) (found : List ObjectId)
    (s : Subgraph) : Prop where
  /-- No object that can be reached is missing, and there are no others. -/
  mem_found : ∀ o, o ∈ found ↔ m.Reaches (spec.fields.map (m.static c)) o
  nodup : found.Nodup
  /-- The objects are found where they are met first, in the fields and then in one another. -/
  order : found = (met (spec.fields.map (m.static c)) ++ found.flatMap m.metIn).eraseDups
  nearest : ∀ n, ∃ k, ∀ o,
    o ∈ found.take k ↔ m.ReachesWithin (spec.fields.map (m.static c)) n o
  className : s.className = m.className c
  fields : List.Forall₂ (fun name f => f.name = name ∧
    ValueRecord.Stands found (m.static c name) f.value) spec.fields (s.fields.getD [])
  objects : List.Forall₂ (m.Describes found) found (s.objects.getD [])
  plain : ∀ r ∈ s.objects.getD [], r.indexed = false → r.elements.getD [] = []
  /-- If the objects can be counted by machine integers, then a place is kept as it is. -/
  index : m.objects.size ≤ 2 ^ 63 → ∀ i < found.length, (ValueRecord.ofIndex i).ref.toInt = i
  /-- The classes of the found objects other than the class itself, each where it is met first. -/
  classes : s.classes.getD []
    = ((found.map m.classNameOf).filter (· ≠ m.className c)).eraseDups
  /-- However much fuel the loop gets, it ends with these objects. -/
  ends : ∃ fields col,
    Collector.recordFields m c spec.className ⟨[], [], m.className c⟩ spec.fields
      = .ok (fields, col) ∧
    ∀ fuel, m.objects.size < fuel → Collector.recordObjects m fuel 0 col
      = .ok (s.objects.getD [], ⟨found, s.classes.getD [], m.className c⟩)

variable {m : Machine} {spec : FieldSpec} {s : Subgraph}

theorem describes_objectRecord {found : List ObjectId} {o : ObjectId}
    (h : ∀ p, .obj p ∈ (m.objectAt o).contents → p ∈ found) :
    m.Describes found o (m.objectRecord found o) where
  className := rfl
  indexed := rfl
  slots := by
    rw [objectRecord, getD_presentList]
    exact ValueRecord.stands_numbered_all fun p hp => h p (List.mem_append_left _ hp)
  elements := by
    rw [objectRecord, getD_presentList]
    exact ValueRecord.stands_numbered_all fun p hp => h p (List.mem_append_right _ hp)

/-- What has been met when the collecting is over. -/
theorem Collects.remembers {c : ClassId} {fields : List FieldRecord} {met final : Collector}
    {objects : List ObjectRecord} (h : Collects m spec c fields met objects final) :
    final.Remembers m
      (Machine.met (spec.fields.map (m.static c)) ++ final.objects.flatMap m.metIn) := by
  have hfields := Collector.remembers_recordFields
    (Collector.remembers_start m (m.className c)) h.fields
  exact Collector.remembers_recordObjects h.grows.valid (by omega) hfields h.objects

/-- **Every subgraph lists its graph breadth first**: each object that can be reached from the
fields once, in the order in which the objects are met, with references by places and the classes
in the order of the objects. -/
theorem discovered_of_collectSubgraph (h : m.collectSubgraph spec = .ok s) :
    ∃ c found, m.archivableClass spec.className = .ok c ∧ m.Discovered c spec found s := by
  obtain ⟨c, fields, met, objects, final, hcollects, rfl⟩ := exists_collects h
  have hloop := hcollects.completes
  have hcollected := hcollects.collected
  have hremembers := hcollects.remembers
  have hobjects : objects = final.objects.map (m.objectRecord final.objects) := hloop.records
  have hclosed : ∀ o ∈ final.objects, ∀ p, .obj p ∈ (m.objectAt o).contents → p ∈ final.objects :=
    hloop.closed
  have hdescribes : List.Forall₂ (m.Describes final.objects) final.objects objects := by
    rw [hobjects, List.forall₂_map_right_iff, List.forall₂_same]
    exact fun o ho => describes_objectRecord (hclosed o ho)
  refine ⟨c, final.objects, hcollects.archivable, ?_⟩
  constructor
  · exact hcollected.mem_found
  · exact hcollected.nodup
  · exact hremembers.objects
  · exact exists_take_found hremembers.objects
  · rfl
  · rw [hcollected.fields, getD_presentList, List.forall₂_map_right_iff, List.forall₂_same]
    refine fun name hname => ⟨rfl, ValueRecord.stands_numbered fun o ho => ?_⟩
    exact (hcollected.mem_found o).2 (.root (ho ▸ List.mem_map_of_mem hname))
  · rw [getD_presentList]
    exact hdescribes
  · rw [getD_presentList]
    intro r hr hplain
    rw [hobjects] at hr
    obtain ⟨o, ho, rfl⟩ := List.mem_map.1 hr
    exact (describes_objectRecord (hclosed o ho)).plain hplain
  · intro hsize i hi
    exact Int64.toInt_ofNat_of_lt (by have := hloop.valid.length_le; omega)
  · rw [getD_presentList, hremembers.classes, hcollects.owner]
  · refine ⟨fields, met, hcollects.fields, fun fuel hfuel => ?_⟩
    rw [Collector.recordObjects_eq hcollects.grows.valid hfuel, hcollects.objects, getD_presentList,
      getD_presentList, ← hcollects.owner]

/-! ### A cycle with shared objects -/

/-- A class whose static field leads to four objects, each of which can be reached in several
ways. -/
def knotMachine : Machine :=
  { (Machine.new.addClass
      { name := "Knot", space := "app", superclass := some Machine.objectClass
        loader := some .boot, instanceVariables := ["left", "right"], slotCount := 2
        statics := ⟨[("root", .obj 0)]⟩, initializer := .none, state := .ready }).2 with
    objects := #[⟨some 2, [.obj 3, .obj 1], none⟩, ⟨some 1, [], some [.obj 2, .obj 0]⟩,
      ⟨some 2, [.nil, .obj 0], none⟩, ⟨some 1, [], some [.obj 2]⟩] }

/-- Its record, in which the object at the greatest distance comes last. -/
def knotRecord : Subgraph :=
  { className := "app::Knot"
    fields := some [⟨"root", .ofIndex 0⟩]
    classes := some ["Array"]
    objects := some [⟨"app::Knot", some [.ofIndex 1, .ofIndex 2], false, none⟩,
      ⟨"Array", none, true, some [.ofIndex 3]⟩,
      ⟨"Array", none, true, some [.ofIndex 3, .ofIndex 0]⟩,
      ⟨"app::Knot", some [.nil, .ofIndex 0], false, none⟩] }

theorem discovered_knotMachine :
    knotMachine.collectSubgraph ⟨"app::Knot", ["root"]⟩ = .ok knotRecord ∧
      ∃ c found, knotMachine.archivableClass "app::Knot" = .ok c ∧
        knotMachine.Discovered c ⟨"app::Knot", ["root"]⟩ found knotRecord := by
  have hcollect : knotMachine.collectSubgraph ⟨"app::Knot", ["root"]⟩ = .ok knotRecord := rfl
  exact ⟨hcollect, discovered_of_collectSubgraph hcollect⟩

end Machine

end ClassSharing
