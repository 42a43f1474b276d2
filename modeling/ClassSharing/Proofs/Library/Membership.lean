import ClassSharing.Proofs.Library.SetTable
import Mathlib.Data.List.Induction

/-!
# What stands in a table

A table of elements answers as a set does: a value is found if and only if it is one of the
elements, whatever its hash is. A probe compares whole values, so a value with the hash of an
element is not taken for it; a hash below zero falls on a place like any other; and a value that has
no hash is in no table.

A list of elements has a table exactly if it consists of different integers and strings. If it does
not, there is a first element to blame, and the elements before it do have a table: that table
decides what the fault is. There is always a free place left when an element is entered, so no table
is ever full.

## Main definitions

* `SetTable.Scalar`: integers and strings
* `SetTable.Admissible`: different integers and strings
* `SetTable.Holds`: a table of elements, in which they can be found

## Main results

* `SetTable.Holds.contains`: a table contains its elements and nothing else
* `SetTable.exists_ofElements_iff`: the lists of elements that have a table
* `SetTable.ofElements_of_repeated`, `SetTable.ofElements_of_not_scalar`: the element to blame
-/

namespace ClassSharing

namespace SetTable

/-! ### Elements -/

/-- Integers and strings. -/
def Scalar : Value → Prop
  | .int _ => True
  | .str _ => True
  | _ => False

instance : DecidablePred Scalar
  | .int _ => isTrue trivial
  | .str _ => isTrue trivial
  | .nil => isFalse id
  | .bool _ => isFalse id
  | .obj _ => isFalse id

theorem hashable_iff {v : Value} : Hashable v ↔ Scalar v := by
  constructor
  · rintro ⟨h, hhash⟩
    cases v with
    | int n => trivial
    | str s => trivial
    | nil => cases hhash
    | bool b => cases hhash
    | obj o => cases hhash
  · intro h
    cases v with
    | int n => exact ⟨_, rfl⟩
    | str s => exact hashable_str s
    | nil => exact h.elim
    | bool b => exact h.elim
    | obj o => exact h.elim

theorem hash_of_not_scalar {v : Value} (h : ¬ Scalar v) :
    hash v = .error (.of (.unhashable v.tagName)) := by
  cases v with
  | int n => exact absurd trivial h
  | str s => exact absurd trivial h
  | nil => rfl
  | bool b => rfl
  | obj o => rfl

/-- Different integers and strings. -/
def Admissible (elements : List Value) : Prop := (∀ v ∈ elements, Scalar v) ∧ elements.Nodup

instance : DecidablePred Admissible := fun _ => inferInstanceAs (Decidable (_ ∧ _))

theorem admissible_append_singleton {before : List Value} {v : Value} (h : Admissible before) :
    Admissible (before ++ [v]) ↔ Scalar v ∧ v ∉ before := by
  constructor
  · rintro ⟨hscalar, hdistinct⟩
    refine ⟨hscalar v (by simp), fun hmem => ?_⟩
    exact (List.nodup_append.1 hdistinct).2.2 v hmem v List.mem_cons_self rfl
  · rintro ⟨hscalar, hnew⟩
    refine ⟨fun w hw => ?_, ?_⟩
    · rcases List.mem_append.1 hw with hw | hw
      · exact h.1 w hw
      · exact List.mem_singleton.1 hw ▸ hscalar
    · rw [← List.concat_eq_append]
      exact h.2.concat hnew

/-- **The element to blame** is the first one that is no integer or string, or a repetition. -/
theorem exists_blamed {elements : List Value} (h : ¬ Admissible elements) :
    ∃ before v after, elements = before ++ v :: after ∧ Admissible before ∧
      (¬ Scalar v ∨ v ∈ before) := by
  induction elements using List.reverseRecOn with
  | nil => exact absurd ⟨by simp, List.nodup_nil⟩ h
  | append_singleton before v ih =>
    by_cases hbefore : Admissible before
    · rw [admissible_append_singleton hbefore, not_and_or, not_not] at h
      exact ⟨before, v, [], rfl, hbefore, h⟩
    · obtain ⟨first, blamed, after, rfl, hblamed⟩ := ih hbefore
      exact ⟨first, blamed, after ++ [v], by simp, hblamed⟩

/-! ### Tables of elements -/

/-- A table of elements, in which they can be found. -/
structure Holds (table elements : List Value) : Prop where
  findable : Findable table
  distinct : elements.Nodup
  present : (present table).Perm elements

section Probes

variable {table elements : List Value} {v : Value} {place : Nat}

/-- A probe that finds a value ended where it stands. -/
theorem mem_of_probeFrom {steps start : Nat} (hv : v ≠ .nil)
    (h : probeFrom table v steps start = .ok (place, true)) : v ∈ table := by
  induction steps generalizing start with
  | zero => cases h
  | succ steps ih =>
    rw [probeFrom] at h
    by_cases hfree : (table[start]?.getD .nil).isNil = true
    · simp only [hfree, if_true] at h
      cases h
    · simp only [if_neg hfree] at h
      split at h
      · rename_i heq
        cases hget : table[start]? with
        | none =>
          rw [hget] at heq
          exact absurd heq.symm hv
        | some w =>
          rw [hget] at heq
          obtain rfl : w = v := heq
          exact List.mem_of_getElem? hget
      · exact ih h

theorem mem_of_probe (h : probe table v = .ok (place, true)) : v ∈ table := by
  have hv := ne_nil_of_probe h
  rw [probe] at h
  split at h
  · cases h
  · exact mem_of_probeFrom hv h

theorem Holds.mem_iff (h : Holds table elements) : v ∈ elements ↔ v ∈ table ∧ v ≠ .nil := by
  rw [← h.present.mem_iff, mem_present_iff]

/-- **A table contains its elements and nothing else.** -/
theorem Holds.contains (h : Holds table elements) (v : Value) :
    contains table v = decide (v ∈ elements) := by
  cases table with
  | nil =>
    have hnone : v ∉ elements := fun hmem => List.not_mem_nil (h.mem_iff.1 hmem).1
    rw [SetTable.contains, decide_eq_false hnone]
  | cons first rest =>
    by_cases hmem : v ∈ elements
    · obtain ⟨hstands, hne⟩ := h.mem_iff.1 hmem
      obtain ⟨place, hprobe⟩ := h.findable v hstands hne
      simp only [SetTable.contains, hprobe, decide_eq_true hmem]
    · rw [decide_eq_false hmem]
      cases hprobe : probe (first :: rest) v with
      | error fault => simp only [SetTable.contains, hprobe]
      | ok answer =>
        obtain ⟨place, found⟩ := answer
        cases found with
        | false => simp only [SetTable.contains, hprobe]
        | true => exact absurd (h.mem_iff.2 ⟨mem_of_probe hprobe, ne_nil_of_probe hprobe⟩) hmem

end Probes

/-! ### Entering elements -/

section Entering

variable {describe : Value → Text} {table entered before after elements : List Value} {v : Value}

theorem findable_of_enterAll (hfindable : Findable table)
    (h : enterAll describe table elements = .ok entered) : Findable entered := by
  induction elements generalizing table with
  | nil =>
    obtain rfl := Except.ok.inj h
    exact hfindable
  | cons first rest ih =>
    rw [enterAll] at h
    split at h
    · cases h
    · cases h
    · rename_i hprobe
      exact ih (hfindable.set hprobe) h

theorem holds_of_ofElements (h : ofElements describe elements = .ok table) :
    Holds table elements := by
  obtain ⟨hdistinct, hpresent⟩ := of_ofElements h
  exact ⟨findable_of_enterAll (findable_replicate _) h, hdistinct, hpresent⟩

/-- Elements that are entered are followed by the others. -/
theorem enterAll_append (h : enterAll describe table before = .ok entered) :
    enterAll describe table (before ++ after) = enterAll describe entered after := by
  induction before generalizing table with
  | nil =>
    obtain rfl := Except.ok.inj h
    rfl
  | cons first rest ih =>
    rw [List.cons_append, enterAll]
    rw [enterAll] at h
    split at h
    · cases h
    · cases h
    · exact ih h

/-- The elements before the one to blame are entered in the table for all of them. -/
theorem exists_enterAll_blamed (describe : Value → Text) (hbefore : Admissible before) :
    ∃ entered, Holds entered before ∧
      ofElements describe (before ++ v :: after) = enterAll describe entered (v :: after) := by
  have hhash : ∀ w ∈ before, Hashable w := fun w hw => hashable_iff.2 (hbefore.1 w hw)
  have hroom : before.length ≤ (List.replicate (placesPerElement * (before ++ v :: after).length)
      Value.nil).count .nil := by
    rw [List.count_replicate_self, placesPerElement, List.length_append]
    omega
  obtain ⟨entered, hentered, -, -⟩ := exists_enterAll hhash hbefore.2
    (fun w hw hmem => (hhash w hw).ne_nil (List.eq_of_mem_replicate hmem)) hroom
  refine ⟨entered, ⟨findable_of_enterAll (findable_replicate _) (hentered describe), hbefore.2, ?_⟩,
    enterAll_append (hentered describe)⟩
  have hpresent := (of_enterAll (findable_replicate _) (hentered describe)).2.2
  rwa [present_replicate, List.append_nil] at hpresent

/-- **A repetition is to blame.** -/
theorem ofElements_of_repeated (describe : Value → Text) (hbefore : Admissible before)
    (hv : v ∈ before) :
    ofElements describe (before ++ v :: after) = .error (.of (.duplicateElement (describe v))) := by
  obtain ⟨entered, hholds, heq⟩ := exists_enterAll_blamed describe hbefore
  obtain ⟨hstands, hne⟩ := hholds.mem_iff.1 hv
  obtain ⟨place, hprobe⟩ := hholds.findable v hstands hne
  rw [heq, enterAll, hprobe]

/-- **A value that is no integer or string is to blame.** -/
theorem ofElements_of_not_scalar (describe : Value → Text) (hbefore : Admissible before)
    (hv : ¬ Scalar v) :
    ofElements describe (before ++ v :: after) = .error (.of (.unhashable v.tagName)) := by
  obtain ⟨entered, -, heq⟩ := exists_enterAll_blamed describe hbefore
  rw [heq, enterAll, probe, hash_of_not_scalar hv]

/-- **Elements have a table** exactly if they are different integers and strings. -/
theorem exists_ofElements_iff (describe : Value → Text) (elements : List Value) :
    (∃ table, ofElements describe elements = .ok table) ↔ Admissible elements := by
  constructor
  · rintro ⟨table, htable⟩
    by_contra hnot
    obtain ⟨before, v, after, rfl, hbefore, hblamed⟩ := exists_blamed hnot
    rcases hblamed with hv | hv
    · rw [ofElements_of_not_scalar describe hbefore hv] at htable
      cases htable
    · rw [ofElements_of_repeated describe hbefore hv] at htable
      cases htable
  · rintro ⟨hscalar, hdistinct⟩
    obtain ⟨table, htable, -⟩ :=
      exists_ofElements (fun v hv => hashable_iff.2 (hscalar v hv)) hdistinct
    exact ⟨table, htable describe⟩

/-- **No table is ever full.** -/
theorem ofElements_ne_fullTable (describe : Value → Text) (elements : List Value) :
    ofElements describe elements ≠ .error (.of .fullTable) := by
  by_cases hadmissible : Admissible elements
  · obtain ⟨table, htable⟩ := (exists_ofElements_iff describe elements).2 hadmissible
    rw [htable]
    intro h
    cases h
  · obtain ⟨before, v, after, rfl, hbefore, hblamed⟩ := exists_blamed hadmissible
    rcases hblamed with hv | hv
    · rw [ofElements_of_not_scalar describe hbefore hv]
      intro h
      cases h
    · rw [ofElements_of_repeated describe hbefore hv]
      intro h
      cases h

end Entering

end SetTable

end ClassSharing
