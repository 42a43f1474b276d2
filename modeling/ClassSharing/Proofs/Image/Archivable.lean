import ClassSharing.Proofs.Image.Codec
import ClassSharing.Proofs.Image.Refusal
import Mathlib.Data.Set.Card

/-!
# Graphs that can be archived

The graph behind some static fields can be collected if the class is ready and every object of the
graph has a class on the boot loader, and its record can be stored if the texts are valid and the
lists are within the limit. Both are conditions on the machine alone; then the record is decoded to
itself.

## Main definitions

* `Machine.Archivable`: the graph can be collected
* `Machine.GraphStorable`: its record can be stored

## Main results

* `Machine.Collected.storable`: the record of such a graph can be stored
* `Machine.exists_stored`: there is a record, and decoding gives it back
-/

namespace ClassSharing

open Image

open Cbor (maxLength)

/-! ### Values and objects -/

/-- A value that a record can hold. -/
def Value.Storable : Value → Prop
  | .str s => s.Storable
  | _ => True

instance : DecidablePred Value.Storable := fun v =>
  match v with
  | .str s => inferInstanceAs (Decidable s.Storable)
  | .nil | .int _ | .bool _ | .obj _ => .isTrue trivial

/-- An object that a record can hold. -/
structure Object.Storable (o : Object) : Prop where
  slots : o.slots.length ≤ maxLength
  elements : o.elementList.length ≤ maxLength
  contents : ∀ v ∈ o.contents, v.Storable

instance : DecidablePred Object.Storable := fun o =>
  decidable_of_iff (o.slots.length ≤ maxLength ∧ o.elementList.length ≤ maxLength ∧
      ∀ v ∈ o.contents, v.Storable)
    ⟨fun h => ⟨h.1, h.2.1, h.2.2⟩, fun h => ⟨h.slots, h.elements, h.contents⟩⟩

theorem Text.storable_empty : Text.empty.Storable := by decide

theorem Image.ValueRecord.storable_numbered {v : Value} (h : v.Storable) (found : List ObjectId) :
    (ValueRecord.numbered found v).Storable := by
  cases v with
  | str s => exact h
  | nil => exact Text.storable_empty
  | int n => exact Text.storable_empty
  | bool b => exact Text.storable_empty
  | obj o => exact Text.storable_empty

theorem Image.listStorable_numbered {vs : List Value} (found : List ObjectId)
    (hlength : vs.length ≤ maxLength) (hvs : ∀ v ∈ vs, v.Storable) :
    ListStorable ValueRecord.Storable (presentList (vs.map (ValueRecord.numbered found))) := by
  constructor
  · rw [getD_presentList, List.length_map]
    exact hlength
  · intro r hr
    rw [getD_presentList] at hr
    obtain ⟨v, hv, rfl⟩ := List.mem_map.1 hr
    exact ValueRecord.storable_numbered (hvs v hv) found

namespace Machine

theorem storable_objectRecord {m : Machine} {o : ObjectId} (found : List ObjectId)
    (hname : (m.classNameOf o).Storable) (h : (m.objectAt o).Storable) :
    (m.objectRecord found o).Storable where
  className := hname
  slots := listStorable_numbered found h.slots fun v hv => h.contents v (List.mem_append_left _ hv)
  elements := listStorable_numbered found h.elements fun v hv =>
    h.contents v (List.mem_append_right _ hv)

/-! ### Graphs -/

/-- The graph behind some static fields of a class can be collected. -/
structure Archivable (m : Machine) (c : ClassId) (names : List Text) : Prop where
  registered : m.lookup (m.className c) = some c
  ready : (m.classAt c).isReady = true
  loader : (m.classAt c).loader = some .boot
  declared : ∀ name ∈ names, (m.classAt c).statics.has name = true
  onBoot : ∀ o, m.Reaches (names.map (m.static c)) o → m.OnBoot o

/-- The graph behind some static fields of a class can be stored: its texts are valid and its lists
are within the limit. -/
structure GraphStorable (m : Machine) (c : ClassId) (names : List Text) : Prop where
  className : (m.className c).Storable
  fieldCount : names.length ≤ maxLength
  fields : ∀ name ∈ names, name.Storable ∧ (m.static c name).Storable
  objectCount : {o | m.Reaches (names.map (m.static c)) o}.encard ≤ maxLength
  objects : ∀ o, m.Reaches (names.map (m.static c)) o →
    (m.classNameOf o).Storable ∧ (m.objectAt o).Storable

section Graphs

variable {m : Machine} {c : ClassId} {names : List Text} {found : List ObjectId} {s : Subgraph}

theorem Archivable.archivableClass (h : m.Archivable c names) :
    m.archivableClass (m.className c) = .ok c := by
  simp [Machine.archivableClass, h.registered, h.ready, h.loader]

theorem Archivable.confined (h : m.Archivable c names) : m.Confined ⟨m.className c, names⟩ c :=
  ⟨h.registered, isReady_iff.1 h.ready, h.loader, h.declared, h.onBoot⟩

/-- The found objects are as many as there are in the graph. -/
theorem Collected.length_le {limit : Nat} (h : m.Collected c names found s)
    (hlimit : {o | m.Reaches (names.map (m.static c)) o}.encard ≤ limit) :
    found.length ≤ limit := by
  have hset : {o | m.Reaches (names.map (m.static c)) o} = (found.toFinset : Set ObjectId) := by
    ext o
    rw [Set.mem_ofPred_eq, List.coe_toFinset, Set.mem_ofPred_eq]
    exact (h.mem_found o).symm
  rw [hset, Set.encard_coe_eq_coe_finsetCard, List.toFinset_card_of_nodup h.nodup] at hlimit
  exact_mod_cast hlimit

/-- **The record of a graph that can be stored.** -/
theorem Collected.storable (h : m.Collected c names found s) (hg : m.GraphStorable c names) :
    s.Storable := by
  have hfound : found.length ≤ maxLength := h.length_le hg.objectCount
  constructor
  · rw [h.className]
    exact hg.className
  · rw [h.fields]
    constructor
    · rw [getD_presentList, List.length_map]
      exact hg.fieldCount
    · intro f hf
      rw [getD_presentList] at hf
      obtain ⟨name, hname, rfl⟩ := List.mem_map.1 hf
      obtain ⟨hvalid, hvalue⟩ := hg.fields name hname
      exact ⟨hvalid, ValueRecord.storable_numbered hvalue found⟩
  · constructor
    · exact h.length_classes.trans hfound
    · intro name hname
      obtain ⟨-, o, ho, rfl⟩ := (h.mem_classes name).1 hname
      exact (hg.objects o ((h.mem_found o).1 ho)).1
  · rw [h.objects]
    constructor
    · rw [getD_presentList, List.length_map]
      exact hfound
    · intro r hr
      rw [getD_presentList] at hr
      obtain ⟨o, ho, rfl⟩ := List.mem_map.1 hr
      obtain ⟨hname, hobject⟩ := hg.objects o ((h.mem_found o).1 ho)
      exact storable_objectRecord found hname hobject

/-- **A graph that can be archived has a record**, and decoding the stored record gives it back. -/
theorem exists_stored (h : m.Archivable c names) (hg : m.GraphStorable c names) :
    ∃ found s, m.collectSubgraph ⟨m.className c, names⟩ = .ok s ∧ m.Collected c names found s ∧
      Subgraph.decode? s.encode = some s := by
  obtain ⟨s, hs⟩ : ∃ s, m.collectSubgraph ⟨m.className c, names⟩ = .ok s :=
    h.confined.exists_collectSubgraph
  obtain ⟨c', found, hc', hcollected⟩ := collected_of_collectSubgraph hs
  obtain rfl : c = c' := Except.ok.inj (h.archivableClass.symm.trans hc')
  refine ⟨found, s, hs, hcollected, ?_⟩
  rw [Subgraph.decode?_encode (hcollected.storable hg), hcollected.trimmed]

end Graphs

end Machine

end ClassSharing
