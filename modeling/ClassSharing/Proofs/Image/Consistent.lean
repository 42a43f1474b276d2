import ClassSharing.Proofs.Image.Materialize

/-!
# Records that can be built

A record may come from anywhere, so nothing about it is known in advance: its values may have any
tag, its references may be any numbers, and its objects may claim any class. Building it succeeds
for exactly those records whose objects have classes among the listed ones, with the right number of
slots, and whose values can all be decoded. What is built is described by a relation between records
and values, because the result depends on where the heap ends.

## Main definitions

* `Image.ValueRecord.Denotes`, `Image.ObjectRecord.Builds`: what a record stands for on a heap
* `Image.ValueRecord.Decodable`: a record that stands for something
* `Image.Subgraph.Consistent`: a record that describes the class and can be built

## Main results

* `Image.Subgraph.built_of_materialize`: what is built for a record
* `Image.Subgraph.exists_materialize_iff`: which records can be built
* `Image.Subgraph.Built.lastIn`: the last of several values of a field counts
-/

namespace ClassSharing

namespace Image

/-! ### Values -/

/-- A record stands for a value, if the objects of the record list lie from `start` on. -/
inductive ValueRecord.Denotes (start count : Nat) (v : ValueRecord) : Value → Prop where
  | nil (h : v.tag = nilTag) : Denotes start count v .nil
  | int (h : v.tag = intTag) : Denotes start count v (.int v.int)
  | bool (h : v.tag = boolTag) : Denotes start count v (.bool (v.int ≠ 0))
  | str (h : v.tag = stringTag) : Denotes start count v (.str v.str)
  | obj {i : Nat} (h : v.tag = referenceTag) (hi : v.ref.toInt = i) (hlt : i < count) :
      Denotes start count v (.obj (start + i))

/-- The tag of a record is known, and a reference is an index of one of `count` objects. -/
def ValueRecord.Decodable (count : Nat) (v : ValueRecord) : Prop :=
  v.tag ∈ [nilTag, intTag, boolTag, stringTag] ∨
    v.tag = referenceTag ∧ 0 ≤ v.ref.toInt ∧ v.ref.toInt < count

instance (count : Nat) : DecidablePred (ValueRecord.Decodable count) := fun v =>
  inferInstanceAs (Decidable (v.tag ∈ [nilTag, intTag, boolTag, stringTag] ∨
    v.tag = referenceTag ∧ 0 ≤ v.ref.toInt ∧ v.ref.toInt < count))

section Values

variable {start count : Nat} {v : ValueRecord} {x : Value}

theorem ValueRecord.toValue_of_reference (h : v.tag = referenceTag) :
    v.toValue start count
      = if v.ref < 0 || (count : Int) ≤ v.ref.toInt then .error (.of (.record (.reference v.ref)))
        else .ok (.obj (start + v.ref.toInt.toNat)) := by
  rw [toValue, h]
  rfl

theorem ValueRecord.inside_iff :
    (v.ref < 0 || (count : Int) ≤ v.ref.toInt) = false ↔ 0 ≤ v.ref.toInt ∧ v.ref.toInt < count := by
  rw [Bool.or_eq_false_iff, decide_eq_false_iff_not, decide_eq_false_iff_not,
    Int64.lt_iff_toInt_lt, Int64.toInt_zero]
  omega

theorem ValueRecord.toValue_eq_ok_iff :
    v.toValue start count = .ok x ↔ v.Denotes start count x := by
  constructor
  · intro h
    by_cases href : v.tag = referenceTag
    · rw [toValue_of_reference href] at h
      split at h
      · cases h
      · rename_i hinside
        obtain ⟨hnonneg, hlt⟩ := inside_iff.1 (Bool.eq_false_iff.2 hinside)
        obtain rfl := Except.ok.inj h
        exact .obj href (by omega) (by omega)
    · rw [toValue] at h
      split_ifs at h with hnil hint hbool hstr
      · exact Except.ok.inj h ▸ .nil hnil
      · exact Except.ok.inj h ▸ .int hint
      · exact Except.ok.inj h ▸ .bool hbool
      · exact Except.ok.inj h ▸ .str hstr
  · intro h
    cases h with
    | nil h => rw [toValue, if_pos h]
    | int h =>
      rw [toValue, h]
      rfl
    | bool h =>
      rw [toValue, h]
      rfl
    | str h =>
      rw [toValue, h]
      rfl
    | @obj i h hi hlt =>
      rw [toValue_of_reference h, if_neg (Bool.eq_false_iff.1 (inside_iff.2 (by omega))), hi,
        Int.toNat_natCast]

theorem ValueRecord.exists_toValue_iff (start : Nat) :
    (∃ x, v.toValue start count = .ok x) ↔ v.Decodable count := by
  simp only [toValue_eq_ok_iff]
  constructor
  · rintro ⟨x, h⟩
    cases h with
    | nil h => exact .inl (by simp [h])
    | int h => exact .inl (by simp [h])
    | bool h => exact .inl (by simp [h])
    | str h => exact .inl (by simp [h])
    | obj h hi hlt => exact .inr ⟨h, by omega, by omega⟩
  · rintro (h | ⟨h, hnonneg, hlt⟩)
    · simp only [List.mem_cons, List.not_mem_nil, or_false] at h
      rcases h with h | h | h | h
      · exact ⟨_, .nil h⟩
      · exact ⟨_, .int h⟩
      · exact ⟨_, .bool h⟩
      · exact ⟨_, .str h⟩
    · exact ⟨_, .obj (i := v.ref.toInt.toNat) h (by omega) (by omega)⟩

end Values

/-! ### Objects -/

/-- A record stands for an object of a class. -/
structure ObjectRecord.Builds (start count : Nat) (k : ClassId) (r : ObjectRecord) (o : Object) :
    Prop where
  classId : o.classId = some k
  slots : List.Forall₂ (ValueRecord.Denotes start count) (r.slots.getD []) o.slots
  indexed : o.isIndexed = r.indexed
  elements : List.Forall₂ (ValueRecord.Denotes start count) (r.elements.getD []) o.elementList

/-- The values that an object record holds, slots first. -/
def ObjectRecord.values (r : ObjectRecord) : List ValueRecord :=
  r.slots.getD [] ++ r.elements.getD []

/-- An object record that is not indexed has no elements. -/
def ObjectRecord.Plain (r : ObjectRecord) : Prop := r.indexed = false → r.elements.getD [] = []

section Objects

variable {start count : Nat} {k : ClassId} {r : ObjectRecord} {o : Object} {m : Machine}
  {allowed : Table ClassId}

theorem ObjectRecord.plain_iff :
    (!r.indexed && !(r.elements.getD []).isEmpty) = false ↔ r.Plain := by
  rw [Plain, Bool.and_eq_false_iff, Bool.not_eq_false', Bool.not_eq_false', List.isEmpty_iff]
  cases r.indexed <;> simp

theorem ObjectRecord.fit_eq_ok_iff {i : Nat} :
    r.fit m allowed i = .ok k ↔ allowed.get? r.className = some k ∧
      (r.slots.getD []).length = (m.classAt k).slotCount ∧ r.Plain := by
  rw [fit, ← plain_iff]
  cases hget : allowed.get? r.className with
  | none => simp only [reduceCtorEq, false_and]
  | some k' =>
    simp only [Option.some.injEq]
    constructor
    · intro h
      split_ifs at h with hslots hplain
      obtain rfl := Except.ok.inj h
      exact ⟨rfl, not_not.1 hslots, Bool.eq_false_iff.2 hplain⟩
    · rintro ⟨rfl, hslots, hplain⟩
      rw [if_neg (not_not.2 hslots), if_neg (Bool.eq_false_iff.1 hplain)]

theorem ObjectRecord.builds_of_toObject (hplain : r.Plain)
    (h : r.toObject k start count = .ok o) : r.Builds start count k o := by
  obtain ⟨slots, hslots, h⟩ := exceptBind_eq_ok_iff.1 h
  obtain ⟨elements, helements, h⟩ := exceptBind_eq_ok_iff.1 h
  obtain rfl := Except.ok.inj h
  rw [exceptMapM_eq_ok_iff] at hslots helements
  simp only [ValueRecord.toValue_eq_ok_iff] at hslots helements
  cases hindexed : r.indexed with
  | true => exact ⟨rfl, hslots, by rw [hindexed]; rfl, helements⟩
  | false =>
    refine ⟨rfl, hslots, by rw [hindexed]; rfl, ?_⟩
    rw [hplain hindexed]
    exact .nil

theorem ValueRecord.exists_toValues_iff (start : Nat) {vs : List ValueRecord} :
    (∃ xs, vs.mapM (fun v => v.toValue start count) = .ok xs) ↔ ∀ v ∈ vs, v.Decodable count := by
  rw [exists_exceptMapM_iff]
  exact forall₂_congr fun v _ => v.exists_toValue_iff start

theorem ObjectRecord.exists_toObject_iff (start : Nat) :
    (∃ o, r.toObject k start count = .ok o) ↔ ∀ v ∈ r.values, v.Decodable count := by
  rw [values, List.forall_mem_append, ← ValueRecord.exists_toValues_iff start,
    ← ValueRecord.exists_toValues_iff start]
  constructor
  · rintro ⟨o, h⟩
    obtain ⟨slots, hslots, h⟩ := exceptBind_eq_ok_iff.1 h
    obtain ⟨elements, helements, -⟩ := exceptBind_eq_ok_iff.1 h
    exact ⟨⟨slots, hslots⟩, elements, helements⟩
  · rintro ⟨⟨slots, hslots⟩, elements, helements⟩
    exact ⟨_, exceptBind_eq_ok_iff.2
      ⟨slots, hslots, exceptBind_eq_ok_iff.2 ⟨elements, helements, rfl⟩⟩⟩

end Objects

/-! ### Subgraphs -/

namespace Subgraph

/-- The values that a record holds, those of the objects first. -/
def values (r : Subgraph) : List ValueRecord :=
  (r.objects.getD []).flatMap ObjectRecord.values ++ (r.fields.getD []).map FieldRecord.value

/-- An object record fits the class that is found for it. -/
structure FitsClass (m : Machine) (classes : Text → Option ClassId) (o : ObjectRecord) :
    Prop where
  slots : ∃ k, classes o.className = some k ∧ (o.slots.getD []).length = (m.classAt k).slotCount
  plain : o.Plain

/-- What is built for a record: an object for each object record, and a value for each field. -/
structure Built (r : Subgraph) (classes : Text → Option ClassId) (start : Nat)
    (objects : List Object) (values : List (Text × Value)) : Prop where
  objects : List.Forall₂ (fun o x => ∃ k, classes o.className = some k ∧
    o.Builds start (r.objects.getD []).length k x) (r.objects.getD []) objects
  values : List.Forall₂ (fun f kv => kv.1 = f.name ∧
    f.value.Denotes start (r.objects.getD []).length kv.2) (r.fields.getD []) values

variable {r : Subgraph} {m m' : Machine} {classes : Text → Option ClassId}
  {allowed allowed' : Table ClassId} {objects : List Object} {values : List (Text × Value)}

theorem forall₂_zip {α β γ : Type} {p : α × Nat → β → Prop} {q : α × β → γ → Prop} {xs : List α}
    {ys : List β} {zs : List γ} {n : Nat} (hp : List.Forall₂ p (xs.zipIdx n) ys)
    (hq : List.Forall₂ q (xs.zip ys) zs) :
    List.Forall₂ (fun x z => ∃ y i, p (x, i) y ∧ q (x, y) z) xs zs := by
  induction xs generalizing ys zs n with
  | nil =>
    cases hq
    exact .nil
  | cons x xs ih =>
    cases hp with
    | cons hfirst hp =>
      cases hq with
      | cons hbuilt hq => exact .cons ⟨_, n, hfirst, hbuilt⟩ (ih hp hq)

/-- **What is built for a record.** -/
theorem built_of_materialize (hallowed : ∀ name, allowed.get? name = classes name)
    (h : r.materialize m allowed = .ok (objects, values)) :
    r.Built classes m.objects.size objects values := by
  obtain ⟨fitting, hfitting, h⟩ := exceptBind_eq_ok_iff.1 h
  obtain ⟨objects', hobjects, h⟩ := exceptBind_eq_ok_iff.1 h
  obtain ⟨values', hvalues, h⟩ := exceptBind_eq_ok_iff.1 h
  obtain ⟨rfl, rfl⟩ := Prod.mk.inj (Except.ok.inj h)
  constructor
  · have hboth := forall₂_zip (exceptMapM_eq_ok_iff.1 hfitting) (exceptMapM_eq_ok_iff.1 hobjects)
    refine hboth.imp fun o x hox => ?_
    obtain ⟨k, i, hfit, hobject⟩ := hox
    obtain ⟨hget, -, hplain⟩ := ObjectRecord.fit_eq_ok_iff.1 hfit
    exact ⟨k, (hallowed o.className).symm.trans hget,
      ObjectRecord.builds_of_toObject hplain hobject⟩
  · refine (exceptMapM_eq_ok_iff.1 hvalues).imp fun f kv hkv => ?_
    obtain ⟨v, hv, hnamed⟩ := exceptBind_eq_ok_iff.1 hkv
    obtain rfl := Except.ok.inj hnamed
    exact ⟨rfl, ValueRecord.toValue_eq_ok_iff.1 hv⟩

/-- What is built is for the fields of the record. -/
theorem exists_field_of_materialize (h : r.materialize m allowed = .ok (objects, values))
    {kv : Text × Value} (hkv : kv ∈ values) : ∃ f ∈ r.fields.getD [], f.name = kv.1 := by
  obtain ⟨f, hf, hname, -⟩ :=
    exists_mem_of_forall₂ (built_of_materialize (fun _ => rfl) h).values hkv
  exact ⟨f, hf, hname.symm⟩

/-- An object is built for each object record. -/
theorem length_of_materialize (h : r.materialize m allowed = .ok (objects, values)) :
    objects.length = (r.objects.getD []).length :=
  (built_of_materialize (fun _ => rfl) h).objects.length_eq.symm

/-- What is built has classes, and they are among the allowed ones. -/
theorem exists_classId_of_materialize (h : r.materialize m allowed = .ok (objects, values))
    {o : Object} (ho : o ∈ objects) :
    ∃ k name, o.classId = some k ∧ allowed.get? name = some k := by
  obtain ⟨record, -, k, hget, hbuilds⟩ :=
    exists_mem_of_forall₂ (built_of_materialize (fun _ => rfl) h).objects ho
  exact ⟨k, record.className, hbuilds.classId, hget⟩

/-! ### Whether a record can be built -/

theorem fitsClass_congr (hslots : ∀ k, (m'.classAt k).slotCount = (m.classAt k).slotCount)
    (o : ObjectRecord) : FitsClass m' classes o ↔ FitsClass m classes o := by
  have hcounts : (∃ k, classes o.className = some k ∧
      (o.slots.getD []).length = (m'.classAt k).slotCount) ↔ ∃ k, classes o.className = some k ∧
      (o.slots.getD []).length = (m.classAt k).slotCount := by simp only [hslots]
  exact ⟨fun h => ⟨hcounts.1 h.slots, h.plain⟩, fun h => ⟨hcounts.2 h.slots, h.plain⟩⟩

theorem exists_fitAll_iff (hallowed : ∀ name, allowed.get? name = classes name) :
    (∃ fitting, r.fitAll m allowed = .ok fitting) ↔
      ∀ o ∈ r.objects.getD [], FitsClass m classes o := by
  have hfit : ∀ (o : ObjectRecord) (i : Nat),
      (∃ k, o.fit m allowed i = .ok k) ↔ FitsClass m classes o := fun o i => by
    simp only [ObjectRecord.fit_eq_ok_iff, hallowed o.className]
    exact ⟨fun ⟨k, hget, hslots, hplain⟩ => ⟨⟨k, hget, hslots⟩, hplain⟩,
      fun ⟨⟨k, hget, hslots⟩, hplain⟩ => ⟨k, hget, hslots, hplain⟩⟩
  have hnumbered : ((r.objects.getD []).zipIdx).map Prod.fst = r.objects.getD [] :=
    List.zipIdx_map_fst 0 _
  rw [fitAll, exists_exceptMapM_iff]
  conv_rhs => rw [← hnumbered]
  rw [List.forall_mem_map]
  exact forall₂_congr fun p _ => hfit p.1 p.2

theorem exists_objects_iff (start : Nat) {count : Nat} {records : List ObjectRecord}
    {fitting : List ClassId} (hlength : records.length ≤ fitting.length) :
    (∃ objects, (records.zip fitting).mapM (fun p => p.1.toObject p.2 start count) = .ok objects) ↔
      ∀ v ∈ records.flatMap ObjectRecord.values, v.Decodable count := by
  have hfirst : (records.zip fitting).map Prod.fst = records := List.map_fst_zip hlength
  rw [exists_exceptMapM_iff]
  conv_rhs => rw [← hfirst]
  rw [List.forall_mem_flatMap, List.forall_mem_map]
  exact forall₂_congr fun p _ => ObjectRecord.exists_toObject_iff start

theorem exists_fields_iff (start : Nat) {count : Nat} {fields : List FieldRecord} :
    (∃ values, fields.mapM (fun f => do return (f.name, ← f.value.toValue start count) :
      FieldRecord → Except Fault (Text × Value)) = .ok values) ↔
      ∀ v ∈ fields.map FieldRecord.value, v.Decodable count := by
  rw [exists_exceptMapM_iff, List.forall_mem_map]
  refine forall₂_congr fun f _ => ?_
  rw [← f.value.exists_toValue_iff start]
  constructor
  · rintro ⟨kv, h⟩
    obtain ⟨v, hv, -⟩ := exceptBind_eq_ok_iff.1 h
    exact ⟨v, hv⟩
  · rintro ⟨v, hv⟩
    exact ⟨(f.name, v), exceptBind_eq_ok_iff.2 ⟨v, hv, rfl⟩⟩

/-- **Which records can be built.** -/
theorem exists_materialize_iff (hallowed : ∀ name, allowed.get? name = classes name) :
    (∃ made, r.materialize m allowed = .ok made) ↔
      (∀ o ∈ r.objects.getD [], FitsClass m classes o) ∧
        ∀ v ∈ r.values, v.Decodable (r.objects.getD []).length := by
  have hlength : ∀ {fitting}, r.fitAll m allowed = .ok fitting →
      (r.objects.getD []).length ≤ fitting.length := fun h => by
    have hlength := length_of_exceptMapM h
    rw [List.length_zipIdx] at hlength
    exact hlength.ge
  rw [Subgraph.values, List.forall_mem_append, ← exists_fitAll_iff hallowed,
    ← exists_fields_iff m.objects.size]
  constructor
  · rintro ⟨made, h⟩
    obtain ⟨fitting, hfitting, h⟩ := exceptBind_eq_ok_iff.1 h
    obtain ⟨objects, hobjects, h⟩ := exceptBind_eq_ok_iff.1 h
    obtain ⟨values, hvalues, -⟩ := exceptBind_eq_ok_iff.1 h
    exact ⟨⟨fitting, hfitting⟩,
      (exists_objects_iff _ (hlength hfitting)).1 ⟨objects, hobjects⟩, values, hvalues⟩
  · rintro ⟨⟨fitting, hfitting⟩, hdecodable, values, hvalues⟩
    obtain ⟨objects, hobjects⟩ :=
      (exists_objects_iff m.objects.size (hlength hfitting)).2 hdecodable
    exact ⟨(objects, values), exceptBind_eq_ok_iff.2 ⟨fitting, hfitting,
      exceptBind_eq_ok_iff.2 ⟨objects, hobjects, exceptBind_eq_ok_iff.2 ⟨values, hvalues, rfl⟩⟩⟩⟩

/-- **Whether a record can be built** depends on the numbers of slots and on the classes that its
objects may have, but not on what is on the heap. -/
theorem exists_materialize (hslots : ∀ c, (m'.classAt c).slotCount = (m.classAt c).slotCount)
    (hallowed : ∀ name, allowed'.get? name = allowed.get? name)
    (h : ∃ made, r.materialize m allowed = .ok made) :
    ∃ made, r.materialize m' allowed' = .ok made := by
  rw [exists_materialize_iff fun _ => rfl] at h
  rw [exists_materialize_iff hallowed]
  exact ⟨fun o ho => (fitsClass_congr hslots o).2 (h.1 o ho), h.2⟩

/-! ### Records of a class -/

/-- The class that an object of a record of the class `c` has: a listed one, or `c` itself. -/
def classFor (r : Subgraph) (m : Machine) (c : ClassId) (name : Text) : Option ClassId :=
  if name ∈ r.classes.getD [] then m.lookup name
  else if name = m.className c then some c else none

/-- **A record that describes the class `c` and can be built.** -/
structure Consistent (r : Subgraph) (m : Machine) (c : ClassId) : Prop where
  className : r.className = m.className c
  declared : ∀ f ∈ r.fields.getD [], (m.classAt c).statics.has f.name = true
  fits : ∀ o ∈ r.objects.getD [], FitsClass m (r.classFor m c) o
  decodable : ∀ v ∈ r.values, v.Decodable (r.objects.getD []).length

/-- The last of the fields of a name. -/
def lastField (r : Subgraph) (name : Text) : Option FieldRecord :=
  ((r.fields.getD []).filter fun f => f.name = name).getLast?

/-- The last value that is built for a name is the one of its last field. -/
theorem Built.lastIn {start : Nat} (h : r.Built classes start objects values) (name : Text) :
    Option.Rel (fun f => f.value.Denotes start (r.objects.getD []).length) (r.lastField name)
      (Statics.lastIn name values) := by
  rw [lastField]
  refine List.Forall₂.rec .none ?_ h.values
  rintro f ⟨k, v⟩ fields values ⟨rfl, hdenotes⟩ - ih
  rw [Statics.lastIn]
  by_cases hname : f.name = name
  · have hfirst : (f :: fields).filter (fun f => f.name = name)
        = f :: fields.filter fun f => f.name = name :=
      List.filter_cons_of_pos (decide_eq_true hname)
    rw [hfirst, List.getLast?_cons, if_pos hname]
    generalize (fields.filter fun f => f.name = name).getLast? = last at ih ⊢
    generalize Statics.lastIn name values = x at ih ⊢
    cases ih with
    | none => exact .some hdenotes
    | some hlast => exact .some hlast
  · rw [List.filter_cons_of_neg (by simpa using hname), if_neg hname, Option.or_none]
    exact ih

end Subgraph

end Image

end ClassSharing
