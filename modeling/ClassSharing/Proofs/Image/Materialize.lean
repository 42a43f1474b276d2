import ClassSharing.Image.Materialize
import ClassSharing.Proofs.Image.Collect
import ClassSharing.Proofs.Machine.Heap
import Mathlib.Data.List.Forall2

/-!
# Building what was collected

The objects of a subgraph are built in the order in which they were found, from the end of the heap
on. So the renaming that sends an object to its place among the found objects, counted from the end
of the heap, takes every collected value to the value that is built for it; on the machine with the
built objects and the assigned fields it is an isomorphism of the two graphs.

The classes are found by name, and a class of the right name need not be the right one: the number
of its slots has to be the number that the object has.

## Main definitions

* `Machine.placedAt`: where an object is built
* `Machine.Fits`: the machine has a class for an object
* `Machine.built`, `Machine.rebuilt`: the object that is built for another one, and the machine with
  all of them

## Main results

* `Machine.materialize_of_collected`: what is built
* `Machine.sameGraph_rebuilt`: the graph of the built objects is the collected one
-/

namespace ClassSharing

open Image

open Cbor (maxLength)

/-! ### Lists of computations -/

/-- Computations that all give results give the list of the results. -/
theorem exceptMapM_map_eq_ok {ε α β γ : Type} {f : α → β} {g : β → Except ε γ} {h : α → γ}
    {xs : List α} (hg : ∀ x ∈ xs, g (f x) = .ok (h x)) : (xs.map f).mapM g = .ok (xs.map h) := by
  induction xs with
  | nil => rfl
  | cons x xs ih =>
    rw [List.map_cons, List.mapM_cons, hg x List.mem_cons_self,
      ih fun y hy => hg y (List.mem_cons_of_mem _ hy)]
    rfl

theorem exceptMapM_zipIdx_eq_ok {ε α β γ : Type} {f : α → β} {g : β × Nat → Except ε γ} {h : α → γ}
    {xs : List α} {n : Nat} (hg : ∀ x ∈ xs, ∀ i, g (f x, i) = .ok (h x)) :
    ((xs.map f).zipIdx n).mapM g = .ok (xs.map h) := by
  induction xs generalizing n with
  | nil => rfl
  | cons x xs ih =>
    rw [List.map_cons, List.zipIdx_cons, List.mapM_cons, hg x List.mem_cons_self,
      ih fun y hy => hg y (List.mem_cons_of_mem _ hy)]
    rfl

/-- A list of computations gives results if and only if each of them does. -/
theorem exists_exceptMapM_iff {ε α β : Type} {f : α → Except ε β} {xs : List α} :
    (∃ ys, xs.mapM f = .ok ys) ↔ ∀ x ∈ xs, ∃ y, f x = .ok y := by
  induction xs with
  | nil => exact ⟨fun _ => by simp, fun _ => ⟨[], rfl⟩⟩
  | cons x xs ih =>
    rw [List.forall_mem_cons, ← ih]
    constructor
    · rintro ⟨ys, h⟩
      rw [List.mapM_cons] at h
      obtain ⟨y, hy, h⟩ := exceptBind_eq_ok_iff.1 h
      obtain ⟨rest, hrest, -⟩ := exceptBind_eq_ok_iff.1 h
      exact ⟨⟨y, hy⟩, rest, hrest⟩
    · rintro ⟨⟨y, hy⟩, rest, hrest⟩
      refine ⟨y :: rest, ?_⟩
      rw [List.mapM_cons, hy, hrest]
      rfl

/-- A list of computations gives the results that they give one by one. -/
theorem exceptMapM_eq_ok_iff {ε α β : Type} {f : α → Except ε β} {xs : List α} {ys : List β} :
    xs.mapM f = .ok ys ↔ List.Forall₂ (fun x y => f x = .ok y) xs ys := by
  induction xs generalizing ys with
  | nil =>
    rw [List.forall₂_nil_left_iff]
    exact ⟨fun h => (Except.ok.inj h).symm, fun h => h ▸ rfl⟩
  | cons x xs ih =>
    rw [List.mapM_cons, List.forall₂_cons_left_iff]
    constructor
    · intro h
      obtain ⟨first, hfirst, h⟩ := exceptBind_eq_ok_iff.1 h
      obtain ⟨rest, hrest, h⟩ := exceptBind_eq_ok_iff.1 h
      exact ⟨first, rest, hfirst, ih.1 hrest, (Except.ok.inj h).symm⟩
    · rintro ⟨first, rest, hfirst, hrest, rfl⟩
      exact exceptBind_eq_ok_iff.2 ⟨first, hfirst, exceptBind_eq_ok_iff.2 ⟨rest, ih.2 hrest, rfl⟩⟩

theorem length_of_exceptMapM {ε α β : Type} {f : α → Except ε β} {xs : List α} {ys : List β}
    (h : xs.mapM f = .ok ys) : ys.length = xs.length :=
  (exceptMapM_eq_ok_iff.1 h).length_eq.symm

/-! ### Values and objects -/

namespace Machine

/-- Where the objects of a list are built, if the heap ends at `start`. -/
def placedAt (start : Nat) (found : List ObjectId) (o : ObjectId) : ObjectId :=
  start + found.idxOf o

theorem placedAt_inj {start : Nat} {found : List ObjectId} {o p : ObjectId} (ho : o ∈ found)
    (h : placedAt start found o = placedAt start found p) : o = p :=
  (List.idxOf_inj ho).1 (Nat.add_left_cancel h)

end Machine

/-- The record of a value stands for the renamed value. -/
theorem Image.ValueRecord.toValue_numbered {found : List ObjectId} {v : Value} (start : Nat)
    (hlimit : found.length ≤ maxLength) (hfound : ∀ o, v = .obj o → o ∈ found) :
    (ValueRecord.numbered found v).toValue start found.length
      = .ok (v.rename (Machine.placedAt start found)) := by
  cases v with
  | nil => rfl
  | int n => rfl
  | bool b => cases b <;> rfl
  | str s => rfl
  | obj o =>
    have hlt : found.idxOf o < found.length := List.idxOf_lt_length_of_mem (hfound o rfl)
    rw [maxLength] at hlimit
    have hint : (Int64.ofNat (found.idxOf o)).toInt = found.idxOf o :=
      Int64.toInt_ofNat_of_lt (by omega)
    have hinside : (decide (Int64.ofNat (found.idxOf o) < 0)
        || decide ((found.length : Int) ≤ (Int64.ofNat (found.idxOf o)).toInt)) = false := by
      rw [Bool.or_eq_false_iff, decide_eq_false_iff_not, decide_eq_false_iff_not,
        Int64.lt_iff_toInt_lt, hint, Int64.toInt_zero]
      omega
    change (if (decide (Int64.ofNat (found.idxOf o) < 0)
        || decide ((found.length : Int) ≤ (Int64.ofNat (found.idxOf o)).toInt)) = true then _
      else Except.ok (Value.obj (start + (Int64.ofNat (found.idxOf o)).toInt.toNat))) = _
    rw [hinside, hint, if_neg (by simp), Int.toNat_natCast]
    rfl

theorem Image.ValueRecord.toValue_numbered_all {found : List ObjectId} {values : List Value}
    (start : Nat) (hlimit : found.length ≤ maxLength) (hfound : ∀ o, .obj o ∈ values → o ∈ found) :
    (values.map (ValueRecord.numbered found)).mapM (fun v => v.toValue start found.length)
      = .ok (values.map (Value.rename (Machine.placedAt start found))) :=
  exceptMapM_map_eq_ok fun _ hv => toValue_numbered start hlimit fun o ho => hfound o (ho ▸ hv)

namespace Machine

variable {m m' : Machine} {found : List ObjectId} {allowed : Table ClassId}

/-- The machine `m'` has an allowed class for an object of the machine `m`. -/
structure Fits (m m' : Machine) (allowed : Table ClassId) (o : ObjectId) (k : ClassId) : Prop where
  allowed : allowed.get? (m.classNameOf o) = some k
  slotCount : (m'.classAt k).slotCount = (m.objectAt o).slots.length
  className : m'.className k = m.classNameOf o

/-- The class that is allowed for an object. -/
def classFor (m : Machine) (allowed : Table ClassId) (o : ObjectId) : ClassId :=
  (allowed.get? (m.classNameOf o)).getD objectClass

theorem Fits.classFor {o : ObjectId} {k : ClassId} (h : Fits m m' allowed o k) :
    m.classFor allowed o = k := by
  rw [Machine.classFor, h.allowed]
  rfl

/-- The object that is built for another one. -/
def built (m : Machine) (allowed : Table ClassId) (start : Nat) (found : List ObjectId)
    (o : ObjectId) : Object :=
  ⟨some (m.classFor allowed o), (m.objectAt o).slots.map (Value.rename (placedAt start found)),
    (m.objectAt o).elements.map (List.map (Value.rename (placedAt start found)))⟩

theorem fit_objectRecord {o : ObjectId} {k : ClassId} (h : Fits m m' allowed o k) (i : Nat) :
    (m.objectRecord found o).fit m' allowed i = .ok (m.classFor allowed o) := by
  have hplain : (!(m.objectAt o).isIndexed
      && !((m.objectAt o).elementList.map (ValueRecord.numbered found)).isEmpty) = false := by
    rw [Object.isIndexed, Object.elementList]
    cases (m.objectAt o).elements <;> rfl
  rw [ObjectRecord.fit, objectRecord]
  simp only [h.allowed, getD_presentList, List.length_map, h.slotCount, hplain, h.classFor]
  simp

theorem toObject_objectRecord {o : ObjectId} {start : Nat} (hlimit : found.length ≤ maxLength)
    (hclosed : ∀ p, .obj p ∈ (m.objectAt o).contents → p ∈ found) :
    (m.objectRecord found o).toObject (m.classFor allowed o) start found.length
      = .ok (m.built allowed start found o) := by
  have hslots := ValueRecord.toValue_numbered_all start hlimit fun p hp =>
    hclosed p (List.mem_append_left _ hp)
  have helements := ValueRecord.toValue_numbered_all start hlimit fun p hp =>
    hclosed p (List.mem_append_right _ hp)
  rw [ObjectRecord.toObject, objectRecord]
  simp only [getD_presentList]
  rw [hslots, helements, built, Object.isIndexed, Object.elementList]
  cases (m.objectAt o).elements <;> rfl

/-! ### Subgraphs -/

/-- The values of the fields over the built objects. -/
def builtFields (m : Machine) (c : ClassId) (start : Nat) (found : List ObjectId)
    (names : List Text) : List (Text × Value) :=
  names.map fun name => (name, (m.static c name).rename (placedAt start found))

/-- **What is built for a collected subgraph**: an object for every found one, in their order. -/
theorem materialize_of_collected {c : ClassId} {names : List Text} {s : Subgraph}
    (h : m.Collected c names found s) (hlimit : found.length ≤ maxLength)
    (hfits : ∀ o ∈ found, ∃ k, Fits m m' allowed o k) :
    s.materialize m' allowed
      = .ok (found.map (m.built allowed m'.objects.size found),
        m.builtFields c m'.objects.size found names) := by
  have hrecords : s.objects.getD [] = found.map (m.objectRecord found) := by
    rw [h.objects, getD_presentList]
  have hfields : s.fields.getD [] = names.map (Collector.fieldRecord m c found) := by
    rw [h.fields, getD_presentList]
  have hclasses : s.fitAll m' allowed = .ok (found.map (m.classFor allowed)) := by
    rw [Subgraph.fitAll, hrecords]
    refine exceptMapM_zipIdx_eq_ok fun o ho i => ?_
    obtain ⟨k, hk⟩ := hfits o ho
    exact fit_objectRecord hk i
  have hreach : ∀ o ∈ found, m.Reaches (names.map (m.static c)) o := fun o ho =>
    (h.mem_found o).1 ho
  have hobjects : ((found.map (m.objectRecord found)).zip (found.map (m.classFor allowed))).mapM
      (fun p => p.1.toObject p.2 m'.objects.size found.length)
      = .ok (found.map (m.built allowed m'.objects.size found)) := by
    rw [List.zip_map']
    refine exceptMapM_map_eq_ok fun o ho => toObject_objectRecord hlimit fun p hp => ?_
    exact (h.mem_found p).2 (.step (hreach o ho) hp)
  have hvalues : (names.map (Collector.fieldRecord m c found)).mapM
      (fun f => do return (f.name, ← f.value.toValue m'.objects.size found.length))
      = .ok (m.builtFields c m'.objects.size found names) := by
    refine exceptMapM_map_eq_ok fun name hname => ?_
    have hfound : ∀ o, m.static c name = .obj o → o ∈ found := fun o ho =>
      (h.mem_found o).2 (.root (ho ▸ List.mem_map_of_mem hname))
    rw [Collector.fieldRecord, ValueRecord.toValue_numbered m'.objects.size hlimit hfound]
    rfl
  rw [Subgraph.materialize, hclasses, hrecords, hfields]
  simp only [List.length_map]
  exact exceptBind_eq_ok_iff.2 ⟨_, rfl, exceptBind_eq_ok_iff.2 ⟨_, hobjects,
    exceptBind_eq_ok_iff.2 ⟨_, hvalues, rfl⟩⟩⟩

/-! ### The machine with the built objects -/

/-- The machine `m'` with the objects that are built for the found ones, and with the fields of its
class `c'` assigned. -/
def rebuilt (m : Machine) (c : ClassId) (names : List Text) (found : List ObjectId)
    (allowed : Table ClassId) (m' : Machine) (c' : ClassId) : Machine :=
  (m'.withObjects (found.map (m.built allowed m'.objects.size found))).assigned c'
    (m.builtFields c m'.objects.size found names)

section Rebuilt

variable {c c' : ClassId} {names : List Text} {s : Subgraph}

theorem fills_rebuilt (m : Machine) (c : ClassId) (names : List Text) (found : List ObjectId)
    (allowed : Table ClassId) (m' : Machine) (c' : ClassId) :
    Fills c' (found.map (m.built allowed m'.objects.size found)) m'
      (rebuilt m c names found allowed m' c') := by
  have hfills := (fills_withObjects m' c' _).trans
    (fills_assigned (m'.withObjects (found.map (m.built allowed m'.objects.size found))) c'
      (m.builtFields c m'.objects.size found names))
  rw [List.append_nil] at hfills
  exact hfills

theorem objectAt_rebuilt {o : ObjectId} (ho : o ∈ found) :
    (rebuilt m c names found allowed m' c').objectAt (placedAt m'.objects.size found o)
      = m.built allowed m'.objects.size found o := by
  have hplace := objectAt_append (fills_rebuilt m c names found allowed m' c').objects
    (found.idxOf o)
  rw [List.getElem?_map, List.getElem?_eq_getElem (List.idxOf_lt_length_of_mem ho),
    List.getElem_idxOf] at hplace
  exact hplace

/-- **The graph of the built objects is the collected one.** -/
theorem sameGraph_rebuilt (h : m.Collected c names found s)
    (hfits : ∀ o ∈ found, ∃ k, Fits m m' allowed o k) (hc' : c' < m'.classes.size)
    (hdeclared : ∀ name ∈ names, (m'.classAt c').statics.has name = true) :
    SameGraph m (rebuilt m c names found allowed m' c') (names.map (m.static c))
      (names.map ((rebuilt m c names found allowed m' c').static c'))
      (placedAt m'.objects.size found) := by
  have hmem : ∀ o, m.Reaches (names.map (m.static c)) o → o ∈ found := fun o ho =>
    (h.mem_found o).2 ho
  have hevolves := (fills_rebuilt m c names found allowed m' c').evolves
  refine SameGraph.of_injOn (fun o ho p _ heq => placedAt_inj (hmem o ho) heq) ?_ ?_ ?_ ?_
  · rw [List.map_map]
    refine List.map_congr_left fun name hname => ?_
    have hname' : name ∈ (m'.classAt c').statics.names :=
      List.contains_iff_mem.1 (hdeclared name hname)
    have hsize : c' < (m'.withObjects
        (found.map (m.built allowed m'.objects.size found))).classes.size := hc'
    rw [rebuilt, static_assigned hsize, builtFields, Statics.get_writeAll]
    exact if_pos ⟨hname, hname'⟩
  · intro o ho
    obtain ⟨k, hk⟩ := hfits o (hmem o ho)
    rw [classNameOf, objectAt_rebuilt (hmem o ho), built]
    simp only [hk.classFor]
    rw [hevolves.className, hk.className]
  · intro o ho
    rw [objectAt_rebuilt (hmem o ho), built]
  · intro o ho
    rw [objectAt_rebuilt (hmem o ho), built]

end Rebuilt

end Machine

end ClassSharing
