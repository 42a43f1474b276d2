import ClassSharing.Image.Collect
import ClassSharing.Proofs.Image.Codec
import ClassSharing.Proofs.Machine.Graph
import Mathlib.Data.List.Forall2
import Mathlib.Data.List.Nodup

/-!
# What is collected

A value is archived while the list of found objects still grows, and its number is the place of its
object in the list as it is then. Since the list grows at its end only and has every object once,
that is also the place in the final list. So all records can be described by the final list alone:
the subgraph of a class is the values of its fields and the contents of the found objects, numbered
by the list of found objects.

That list has exactly the objects that can be reached from the fields. It is closed because the loop
comes to every place of the list, and the fuel of the loop suffices because every found object
exists.

## Main definitions

* `Image.ValueRecord.numbered`, `Machine.objectRecord`: records by a list of objects
* `Collector.Valid`: what is true of every collector
* `Machine.Collected`: what is collected
* `Machine.Collects`: how it is collected

## Main results

* `Machine.collected_of_collectSubgraph`: every subgraph is what it should be
* `Machine.archivableClass_eq_ok_iff`: the classes whose state can be archived
-/

namespace ClassSharing

open Image

/-- What is related to a list member by member is related to a member of it. -/
theorem exists_mem_of_forall₂ {α β : Type} {r : α → β → Prop} {xs : List α} {ys : List β} {y : β}
    (h : List.Forall₂ r xs ys) (hy : y ∈ ys) : ∃ x ∈ xs, r x y := by
  induction h with
  | nil => cases hy
  | @cons x first xs ys hfirst _ ih =>
    rcases List.mem_cons.1 hy with rfl | hy
    · exact ⟨x, List.mem_cons_self, hfirst⟩
    · obtain ⟨x', hx', hr⟩ := ih hy
      exact ⟨x', List.mem_cons_of_mem x hx', hr⟩

/-- A chain of two computations gives a result if both do. -/
theorem exceptBind_eq_ok_iff {ε α β : Type} {x : Except ε α} {f : α → Except ε β} {b : β} :
    x >>= f = .ok b ↔ ∃ a, x = .ok a ∧ f a = .ok b := by
  cases x with
  | error e =>
    constructor
    · intro h
      cases h
    · rintro ⟨a, h, -⟩
      cases h
  | ok a =>
    constructor
    · exact fun h => ⟨a, rfl, h⟩
    · rintro ⟨a', h, hf⟩
      obtain rfl := Except.ok.inj h
      exact hf

/-- A chain of two computations fails if one of them does. -/
theorem exceptBind_eq_error_iff {ε α β : Type} {x : Except ε α} {f : α → Except ε β} {e : ε} :
    x >>= f = .error e ↔ x = .error e ∨ ∃ a, x = .ok a ∧ f a = .error e := by
  cases x with
  | error e' =>
    constructor
    · intro h
      exact .inl (congrArg Except.error (Except.error.inj h))
    · rintro (h | ⟨a, h, -⟩)
      · exact congrArg Except.error (Except.error.inj h)
      · cases h
  | ok a =>
    constructor
    · exact fun h => .inr ⟨a, rfl, h⟩
    · rintro (h | ⟨a', h, hf⟩)
      · cases h
      · obtain rfl := Except.ok.inj h
        exact hf

/-! ### Records by a list of objects -/

/-- The archived form of a value whose object is numbered by its place in a list. -/
def Image.ValueRecord.numbered (found : List ObjectId) : Value → ValueRecord
  | .nil => .nil
  | .int n => .ofInt n
  | .bool b => .ofBool b
  | .str s => .ofText s
  | .obj o => .ofIndex (found.idxOf o)

namespace Machine

/-- The archived form of an object whose references are numbered by their places in a list. -/
def objectRecord (m : Machine) (found : List ObjectId) (o : ObjectId) : ObjectRecord :=
  ⟨m.classNameOf o, presentList ((m.objectAt o).slots.map (ValueRecord.numbered found)),
    (m.objectAt o).isIndexed,
    presentList ((m.objectAt o).elementList.map (ValueRecord.numbered found))⟩

/-- The class of an object is defined by the boot loader. -/
def OnBoot (m : Machine) (o : ObjectId) : Prop :=
  ∃ c, (m.objectAt o).classId = some c ∧ (m.classAt c).loader = some .boot

theorem OnBoot.lt_size {m : Machine} {o : ObjectId} (h : m.OnBoot o) : o < m.objects.size := by
  obtain ⟨c, hc, -⟩ := h
  exact lt_size_of_class hc

theorem OnBoot.classNameOf {m : Machine} {o : ObjectId} {c : ClassId}
    (hc : (m.objectAt o).classId = some c) : m.classNameOf o = (m.classAt c).fullName := by
  rw [Machine.classNameOf, hc]
  rfl

end Machine

namespace Collector

variable {m : Machine} {col col' col'' : Collector}

/-! ### Invariants -/

/-- What is true of every collector. -/
structure Valid (m : Machine) (col : Collector) : Prop where
  nodup : col.objects.Nodup
  onBoot : ∀ o ∈ col.objects, m.OnBoot o
  classes : ∀ name,
    name ∈ col.classes ↔ name ≠ col.owner ∧ ∃ o ∈ col.objects, m.classNameOf o = name
  distinct : col.classes.Nodup

theorem valid_start (m : Machine) (owner : Text) : Valid m ⟨[], [], owner⟩ :=
  ⟨List.nodup_nil, by simp, by simp, List.nodup_nil⟩

theorem Valid.length_le (h : col.Valid m) : col.objects.length ≤ m.objects.size := by
  have hsub : col.objects ⊆ List.range m.objects.size := fun o ho =>
    List.mem_range.2 (h.onBoot o ho).lt_size
  have hle := h.nodup.length_le_of_subset hsub
  rwa [List.length_range] at hle

theorem Valid.length_classes_le (h : col.Valid m) : col.classes.length ≤ col.objects.length := by
  have hsub : col.classes ⊆ col.objects.map m.classNameOf := fun name hname => by
    obtain ⟨-, o, ho, rfl⟩ := (h.classes name).1 hname
    exact List.mem_map.2 ⟨o, ho, rfl⟩
  have hle := h.distinct.length_le_of_subset hsub
  rwa [List.length_map] at hle

/-- The class of a new object is kept, unless it is the one that the record is about. -/
theorem mem_classes_add (col : Collector) (o : ObjectId) (name other : Text) :
    other ∈ (col.add o name).classes ↔
      other ∈ col.classes ∨ other = name ∧ name ≠ col.owner := by
  change other ∈ (if _ then col.classes else _) ↔ _
  split
  · rename_i hseen
    rw [Bool.or_eq_true, decide_eq_true_eq, List.contains_iff_mem] at hseen
    refine ⟨Or.inl, ?_⟩
    rintro (hother | ⟨rfl, hne⟩)
    · exact hother
    · exact hseen.resolve_left hne
  · rename_i hseen
    rw [Bool.or_eq_true, decide_eq_true_eq, not_or] at hseen
    rw [List.mem_append, List.mem_singleton, and_iff_left hseen.1]

theorem nodup_classes_add (h : col.classes.Nodup) (o : ObjectId) (name : Text) :
    (col.add o name).classes.Nodup := by
  change (if _ then col.classes else _).Nodup
  split
  · exact h
  · rename_i hseen
    rw [Bool.or_eq_true, decide_eq_true_eq, List.contains_iff_mem, not_or] at hseen
    exact List.nodup_append.2 ⟨h, List.nodup_singleton _, fun other hother new hnew heq =>
      hseen.2 (List.mem_singleton.1 hnew ▸ heq ▸ hother)⟩

theorem Valid.add {o : ObjectId} (h : col.Valid m) (hnew : o ∉ col.objects) (ho : m.OnBoot o) :
    (col.add o (m.classNameOf o)).Valid m := by
  have hmem : ∀ p, p ∈ col.objects ++ [o] ↔ p ∈ col.objects ∨ p = o := fun p => by simp
  refine ⟨?_, ?_, ?_, nodup_classes_add h.distinct o _⟩
  · exact List.nodup_append.2 ⟨h.nodup, List.nodup_singleton o, fun p hp q hq heq =>
      hnew (List.mem_singleton.1 hq ▸ heq ▸ hp)⟩
  · intro p hp
    rcases (hmem p).1 hp with hp | rfl
    · exact h.onBoot p hp
    · exact ho
  · intro name
    rw [mem_classes_add, h.classes]
    constructor
    · rintro (⟨hne, p, hp, heq⟩ | ⟨rfl, hne⟩)
      · exact ⟨hne, p, List.mem_append_left _ hp, heq⟩
      · exact ⟨hne, o, List.mem_append_right _ (List.mem_singleton_self o), rfl⟩
    · rintro ⟨hne, p, hp, rfl⟩
      rcases (hmem p).1 hp with hp | rfl
      · exact Or.inl ⟨hne, p, hp, rfl⟩
      · exact Or.inr ⟨rfl, hne⟩

/-! ### Growth -/

/-- A collector becomes another one when values are archived. -/
structure Grows (m : Machine) (col : Collector) (values : List Value) (col' : Collector) :
    Prop where
  valid : col'.Valid m
  owner : col'.owner = col.owner
  isPrefix : col.objects <+: col'.objects
  found : ∀ o, .obj o ∈ values → o ∈ col'.objects
  sought : ∀ o ∈ col'.objects, o ∈ col.objects ∨ .obj o ∈ values

theorem Grows.refl (h : col.Valid m) : Grows m col [] col :=
  ⟨h, rfl, List.prefix_refl _, by simp, fun _ ho => Or.inl ho⟩

theorem Grows.trans {values values' : List Value} (h : Grows m col values col')
    (h' : Grows m col' values' col'') : Grows m col (values ++ values') col'' where
  valid := h'.valid
  owner := h'.owner.trans h.owner
  isPrefix := h.isPrefix.trans h'.isPrefix
  found o ho := by
    rcases List.mem_append.1 ho with ho | ho
    · exact h'.isPrefix.subset (h.found o ho)
    · exact h'.found o ho
  sought o ho := by
    rcases h'.sought o ho with ho | ho
    · rcases h.sought o ho with ho | ho
      · exact Or.inl ho
      · exact Or.inr (List.mem_append_left _ ho)
    · exact Or.inr (List.mem_append_right _ ho)

/-- The number of a found object does not change any more. -/
theorem idxOf_of_prefix {found found' : List ObjectId} {o : ObjectId} (ho : o ∈ found)
    (h : found <+: found') : found'.idxOf o = found.idxOf o := by
  obtain ⟨rest, rfl⟩ := h
  exact List.idxOf_append_of_mem ho

/-! ### Values -/

theorem grows_of_recordObject {o : ObjectId} {r : ValueRecord} (hvalid : col.Valid m)
    (h : col.recordObject m o = .ok (r, col')) :
    Grows m col [.obj o] col' ∧ r = .ofIndex (col'.objects.idxOf o) := by
  rw [recordObject] at h
  split at h
  · rename_i i hi
    obtain ⟨rfl, rfl⟩ := Prod.mk.inj (Except.ok.inj h)
    have hmem : o ∈ col.objects := by
      rw [← List.isSome_idxOf?, hi]
      rfl
    refine ⟨⟨hvalid, rfl, List.prefix_refl _, ?_, fun _ hp => Or.inl hp⟩, ?_⟩
    · intro p hp
      obtain rfl := Value.obj.inj (List.mem_singleton.1 hp)
      exact hmem
    · rw [List.idxOf_eq_getD_idxOf?, hi]
      rfl
  · rename_i hnone
    have hnew : o ∉ col.objects := List.idxOf?_eq_none_iff.1 hnone
    split at h
    · cases h
    · rename_i c hc
      simp only at h
      split at h
      · cases h
      · rename_i hboot
        obtain ⟨rfl, rfl⟩ := Prod.mk.inj (Except.ok.inj h)
        have honBoot : m.OnBoot o := ⟨c, hc, not_not.1 hboot⟩
        rw [← Machine.OnBoot.classNameOf hc]
        refine ⟨⟨hvalid.add hnew honBoot, rfl, List.prefix_append _ _, ?_, ?_⟩, ?_⟩
        · intro p hp
          obtain rfl := Value.obj.inj (List.mem_singleton.1 hp)
          exact List.mem_append_right _ (List.mem_singleton_self p)
        · intro p hp
          rcases List.mem_append.1 hp with hp | hp
          · exact Or.inl hp
          · exact Or.inr (List.mem_singleton.1 hp ▸ List.mem_singleton_self _)
        · rw [show (col.add o (m.classNameOf o)).objects = col.objects ++ [o] from rfl,
            List.idxOf_append_of_notMem hnew, List.idxOf_cons_self, Nat.add_zero]

/-- Archiving a value grows the collector by its object, and the record is the one that any longer
list of objects gives. -/
theorem grows_of_record {v : Value} {r : ValueRecord} (hvalid : col.Valid m)
    (h : col.record m v = .ok (r, col')) :
    Grows m col [v] col' ∧
      ∀ found, col'.objects <+: found → r = ValueRecord.numbered found v := by
  have hplain : ∀ w : Value, (∀ o, w ≠ .obj o) → Grows m col [w] col := fun w hw =>
    ⟨hvalid, rfl, List.prefix_refl _,
      fun o ho => absurd (List.mem_singleton.1 ho).symm (hw o), fun _ ho => Or.inl ho⟩
  cases v with
  | obj o =>
    obtain ⟨hgrows, rfl⟩ := grows_of_recordObject hvalid h
    refine ⟨hgrows, fun found hfound => ?_⟩
    rw [ValueRecord.numbered,
      idxOf_of_prefix (hgrows.found o (List.mem_singleton_self _)) hfound]
  | nil =>
    obtain ⟨rfl, rfl⟩ := Prod.mk.inj (Except.ok.inj h)
    exact ⟨hplain _ (by simp), fun _ _ => rfl⟩
  | int n =>
    obtain ⟨rfl, rfl⟩ := Prod.mk.inj (Except.ok.inj h)
    exact ⟨hplain _ (by simp), fun _ _ => rfl⟩
  | bool b =>
    obtain ⟨rfl, rfl⟩ := Prod.mk.inj (Except.ok.inj h)
    exact ⟨hplain _ (by simp), fun _ _ => rfl⟩
  | str s =>
    obtain ⟨rfl, rfl⟩ := Prod.mk.inj (Except.ok.inj h)
    exact ⟨hplain _ (by simp), fun _ _ => rfl⟩

theorem grows_of_recordAll {values : List Value} {rs : List ValueRecord} (hvalid : col.Valid m)
    (h : col.recordAll m values = .ok (rs, col')) :
    Grows m col values col' ∧
      ∀ found, col'.objects <+: found → rs = values.map (ValueRecord.numbered found) := by
  induction values generalizing col rs with
  | nil =>
    obtain ⟨rfl, rfl⟩ := Prod.mk.inj (Except.ok.inj h)
    exact ⟨.refl hvalid, fun _ _ => rfl⟩
  | cons v rest ih =>
    rw [recordAll] at h
    obtain ⟨⟨r, col₁⟩, hr, h⟩ := exceptBind_eq_ok_iff.1 h
    obtain ⟨⟨rs', col₂⟩, hrs, h⟩ := exceptBind_eq_ok_iff.1 h
    obtain ⟨rfl, rfl⟩ := Prod.mk.inj (Except.ok.inj h)
    obtain ⟨hfirst, hrecord⟩ := grows_of_record hvalid hr
    obtain ⟨hrest, hrecords⟩ := ih hfirst.valid hrs
    refine ⟨hfirst.trans hrest, fun found hfound => ?_⟩
    rw [List.map_cons, hrecord found (hrest.isPrefix.trans hfound), hrecords found hfound]

theorem grows_of_recordContents {o : ObjectId} {r : ObjectRecord} (hvalid : col.Valid m)
    (h : col.recordContents m o = .ok (r, col')) :
    Grows m col (m.objectAt o).contents col' ∧
      ∀ found, col'.objects <+: found → r = m.objectRecord found o := by
  obtain ⟨⟨slots, col₁⟩, hslots, h⟩ := exceptBind_eq_ok_iff.1 h
  obtain ⟨⟨elements, col₂⟩, helements, h⟩ := exceptBind_eq_ok_iff.1 h
  obtain ⟨rfl, rfl⟩ := Prod.mk.inj (Except.ok.inj h)
  obtain ⟨hfirst, hslots⟩ := grows_of_recordAll hvalid hslots
  obtain ⟨hrest, helements⟩ := grows_of_recordAll hfirst.valid helements
  refine ⟨hfirst.trans hrest, fun found hfound => ?_⟩
  rw [hslots found (hrest.isPrefix.trans hfound), helements found hfound]
  rfl

/-- The record of a static field. -/
def fieldRecord (m : Machine) (c : ClassId) (found : List ObjectId) (name : Text) : FieldRecord :=
  ⟨name, ValueRecord.numbered found (m.static c name)⟩

theorem grows_of_recordFields {c : ClassId} {className : Text} {names : List Text}
    {fs : List FieldRecord} (hvalid : col.Valid m)
    (h : recordFields m c className col names = .ok (fs, col')) :
    Grows m col (names.map (m.static c)) col' ∧
      ∀ found, col'.objects <+: found → fs = names.map (fieldRecord m c found) := by
  induction names generalizing col fs with
  | nil =>
    obtain ⟨rfl, rfl⟩ := Prod.mk.inj (Except.ok.inj h)
    exact ⟨.refl hvalid, fun _ _ => rfl⟩
  | cons name rest ih =>
    rw [recordFields] at h
    split at h
    · cases h
    · split at h
      · cases h
      · cases h
      · rename_i r col₁ hr
        obtain ⟨⟨fs', col₂⟩, hfs, h⟩ := exceptBind_eq_ok_iff.1 h
        obtain ⟨rfl, rfl⟩ := Prod.mk.inj (Except.ok.inj h)
        obtain ⟨hfirst, hrecord⟩ := grows_of_record hvalid hr
        obtain ⟨hrest, hrecords⟩ := ih hfirst.valid hfs
        refine ⟨hfirst.trans hrest, fun found hfound => ?_⟩
        rw [List.map_cons, hrecords found hfound, fieldRecord,
          ← hrecord found (hrest.isPrefix.trans hfound)]

/-! ### The loop over the found objects -/

/-- What the loop has done when it is over, if it began at place `i`. -/
structure Completes (m : Machine) (col : Collector) (i : Nat) (rs : List ObjectRecord)
    (col' : Collector) : Prop where
  valid : col'.Valid m
  owner : col'.owner = col.owner
  isPrefix : col.objects <+: col'.objects
  records : rs = (col'.objects.drop i).map (m.objectRecord col'.objects)
  closed : ∀ o ∈ col'.objects.drop i, ∀ p, .obj p ∈ (m.objectAt o).contents → p ∈ col'.objects
  /-- Whatever is true of the objects found before and goes over to what they hold. -/
  inherited : ∀ q : ObjectId → Prop, (∀ o p, q o → .obj p ∈ (m.objectAt o).contents → q p) →
    (∀ o ∈ col.objects, q o) → ∀ o ∈ col'.objects, q o

theorem completes_of_length_le {i : Nat} (hvalid : col.Valid m) (hi : col.objects.length ≤ i) :
    Completes m col i [] col := by
  have hdrop : col.objects.drop i = [] := List.drop_eq_nil_of_le hi
  exact ⟨hvalid, rfl, List.prefix_refl _, by rw [hdrop]; rfl, by simp [hdrop], fun _ _ h => h⟩

/-- **The loop over the found objects.** The fuel is more than the places that are left, because
there are no more found objects than objects. -/
theorem completes_of_recordObjects {fuel i : Nat} {rs : List ObjectRecord} (hvalid : col.Valid m)
    (hfuel : m.objects.size < fuel + i) (h : recordObjects m fuel i col = .ok (rs, col')) :
    Completes m col i rs col' := by
  induction fuel generalizing i col rs with
  | zero =>
    obtain ⟨rfl, rfl⟩ := Prod.mk.inj (Except.ok.inj h)
    have hle := hvalid.length_le
    exact completes_of_length_le hvalid (by omega)
  | succ fuel ih =>
    rw [recordObjects] at h
    split at h
    · rename_i hnone
      obtain ⟨rfl, rfl⟩ := Prod.mk.inj (Except.ok.inj h)
      exact completes_of_length_le hvalid (List.getElem?_eq_none_iff.1 hnone)
    · rename_i o ho
      obtain ⟨⟨r, col₁⟩, hr, h⟩ := exceptBind_eq_ok_iff.1 h
      obtain ⟨⟨rs', col₂⟩, hrs, h⟩ := exceptBind_eq_ok_iff.1 h
      obtain ⟨rfl, rfl⟩ := Prod.mk.inj (Except.ok.inj h)
      obtain ⟨hfirst, hrecord⟩ := grows_of_recordContents hvalid hr
      have hrest := ih hfirst.valid (by omega) hrs
      -- the object at place `i` keeps its place, so the records from there on begin with its own
      have hprefix := hfirst.isPrefix.trans hrest.isPrefix
      obtain ⟨hi, hget⟩ := List.getElem?_eq_some_iff.1 ho
      have hlt : i < col₂.objects.length := Nat.lt_of_lt_of_le hi hprefix.length_le
      have hdrop : col₂.objects.drop i = o :: col₂.objects.drop (i + 1) := by
        rw [List.drop_eq_getElem_cons hlt, ← hprefix.getElem hi, hget]
      refine ⟨hrest.valid, hrest.owner.trans hfirst.owner, hprefix, ?_, ?_, ?_⟩
      · rw [hdrop, List.map_cons, hrecord col₂.objects hrest.isPrefix, hrest.records]
      · rw [hdrop, List.forall_mem_cons]
        exact ⟨fun p hp => hrest.isPrefix.subset (hfirst.found p hp), hrest.closed⟩
      · intro q hq hstart
        refine hrest.inherited q hq fun p hp => ?_
        rcases hfirst.sought p hp with hp | hp
        · exact hstart p hp
        · exact hq o p (hstart o (List.mem_of_getElem? ho)) hp

end Collector

namespace Machine

/-! ### Subgraphs -/

/-- The subgraph of some static fields of a class, described by the list of objects behind them. -/
structure Collected (m : Machine) (c : ClassId) (names : List Text) (found : List ObjectId)
    (s : Subgraph) : Prop where
  className : s.className = m.className c
  fields : s.fields = presentList (names.map (Collector.fieldRecord m c found))
  objects : s.objects = presentList (found.map (m.objectRecord found))
  classes : s.classes = presentList (s.classes.getD [])
  mem_classes : ∀ name, name ∈ s.classes.getD [] ↔
    name ≠ m.className c ∧ ∃ o ∈ found, m.classNameOf o = name
  length_classes : (s.classes.getD []).length ≤ found.length
  nodup : found.Nodup
  mem_found : ∀ o, o ∈ found ↔ m.Reaches (names.map (m.static c)) o

variable {m : Machine} {spec : FieldSpec} {s : Subgraph}

/-- How a subgraph is collected: the fields are archived first, and then, one after another, the
objects that have been found on the way. -/
structure Collects (m : Machine) (spec : FieldSpec) (c : ClassId) (fields : List FieldRecord)
    (met : Collector) (objects : List ObjectRecord) (final : Collector) : Prop where
  archivable : m.archivableClass spec.className = .ok c
  fields : Collector.recordFields m c spec.className ⟨[], [], m.className c⟩ spec.fields
    = .ok (fields, met)
  objects : Collector.recordObjects m (m.objects.size + 1) 0 met = .ok (objects, final)

theorem exists_collects (h : m.collectSubgraph spec = .ok s) :
    ∃ c fields met objects final, Collects m spec c fields met objects final ∧
      s = ⟨m.className c, presentList fields, presentList final.classes, presentList objects⟩ := by
  rw [collectSubgraph] at h
  split at h
  · cases h
  · rename_i c hc
    obtain ⟨⟨fields, met⟩, hfields, h⟩ := exceptBind_eq_ok_iff.1 h
    obtain ⟨⟨objects, final⟩, hobjects, h⟩ := exceptBind_eq_ok_iff.1 h
    exact ⟨c, fields, met, objects, final, ⟨hc, hfields, hobjects⟩, (Except.ok.inj h).symm⟩

section Collects

variable {c : ClassId} {fields : List FieldRecord} {met final : Collector}
  {objects : List ObjectRecord}

theorem Collects.grows (h : Collects m spec c fields met objects final) :
    Collector.Grows m ⟨[], [], m.className c⟩ (spec.fields.map (m.static c)) met :=
  (Collector.grows_of_recordFields (Collector.valid_start m (m.className c)) h.fields).1

theorem Collects.completes (h : Collects m spec c fields met objects final) :
    Collector.Completes m met 0 objects final :=
  Collector.completes_of_recordObjects h.grows.valid (by omega) h.objects

theorem Collects.owner (h : Collects m spec c fields met objects final) :
    final.owner = m.className c := h.completes.owner.trans h.grows.owner

theorem Collects.collected (h : Collects m spec c fields met objects final) :
    m.Collected c spec.fields final.objects
      ⟨m.className c, presentList fields, presentList final.classes, presentList objects⟩ := by
  have hgrows := h.grows
  have hloop := h.completes
  obtain ⟨-, hfields⟩ :=
    Collector.grows_of_recordFields (Collector.valid_start m (m.className c)) h.fields
  constructor
  · rfl
  · exact congrArg presentList (hfields _ hloop.isPrefix)
  · exact congrArg presentList hloop.records
  · simp only [getD_presentList]
  · intro name
    rw [getD_presentList, hloop.valid.classes, h.owner]
  · rw [getD_presentList]
    exact hloop.valid.length_classes_le
  · exact hloop.valid.nodup
  · intro o
    constructor
    · refine hloop.inherited _ (fun o p ho hp => .step ho hp) (fun o ho => ?_) o
      rcases hgrows.sought o ho with ho | ho
      · cases ho
      · exact .root ho
    · intro ho
      exact ho.induct (fun o ho => hloop.isPrefix.subset (hgrows.found o ho))
        fun o p ho hp => hloop.closed o ho p hp

end Collects

/-- **Every subgraph is what it should be**: the values of the fields and the contents of the
objects behind them, numbered by a list of exactly these objects. -/
theorem collected_of_collectSubgraph (h : m.collectSubgraph spec = .ok s) :
    ∃ c found, m.archivableClass spec.className = .ok c ∧ m.Collected c spec.fields found s := by
  obtain ⟨c, fields, met, objects, final, hcollects, rfl⟩ := exists_collects h
  exact ⟨c, final.objects, hcollects.archivable, hcollects.collected⟩

/-- What is collected has its empty lists absent already. -/
theorem Collected.trimmed {c : ClassId} {names : List Text} {found : List ObjectId}
    (h : m.Collected c names found s) : s.trimmed = s := by
  have hobject : ∀ r ∈ found.map (m.objectRecord found), r.trimmed = r := fun r hr => by
    obtain ⟨o, -, rfl⟩ := List.mem_map.1 hr
    rw [ObjectRecord.trimmed, objectRecord]
    simp only [trimList_id_presentList]
  have hclasses : trimList id s.classes = s.classes := by
    rw [h.classes, trimList_id_presentList]
  rw [Subgraph.trimmed, hclasses, h.objects, trimList_presentList hobject, ← h.objects]

theorem isReady_iff {c : ClassId} : (m.classAt c).isReady = true ↔ m.stateOf c = .ready := by
  rw [Class.isReady, stateOf]
  cases (m.classAt c).state with
  | ready => exact ⟨fun _ => rfl, fun _ => rfl⟩
  | uninitialized => exact ⟨fun h => (nomatch h), fun h => (nomatch h)⟩
  | running => exact ⟨fun h => (nomatch h), fun h => (nomatch h)⟩
  | erroneous fault => exact ⟨fun h => (nomatch h), fun h => (nomatch h)⟩

/-- The classes whose state can be archived. -/
theorem archivableClass_eq_ok_iff {name : Text} {c : ClassId} :
    m.archivableClass name = .ok c ↔
      m.lookup name = some c ∧ m.stateOf c = .ready ∧ (m.classAt c).loader = some .boot := by
  rw [archivableClass, ← isReady_iff]
  constructor
  · intro h
    split at h
    · cases h
    · rename_i k hk
      split at h
      · cases h
      · rename_i hready
        split at h
        · cases h
        · rename_i hloader
          obtain rfl := Except.ok.inj h
          exact ⟨hk, by simpa using hready, not_not.1 hloader⟩
  · rintro ⟨hlookup, hready, hloader⟩
    simp only [hlookup, hready, hloader, Bool.not_true, ne_eq, not_true_eq_false, if_false,
      Bool.false_eq_true]

/-- Only classes that are ready are archived. -/
theorem ready_of_archivableClass {name : Text} {c : ClassId}
    (h : m.archivableClass name = .ok c) : m.stateOf c = .ready :=
  (archivableClass_eq_ok_iff.1 h).2.1

theorem lookup_of_archivableClass {name : Text} {c : ClassId}
    (h : m.archivableClass name = .ok c) : m.lookup name = some c :=
  (archivableClass_eq_ok_iff.1 h).1

end Machine

end ClassSharing
