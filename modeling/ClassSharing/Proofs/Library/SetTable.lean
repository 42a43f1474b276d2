import ClassSharing.Library.SetTable
import Mathlib.Data.Int.ModEq
import Mathlib.Data.List.Nodup
import Mathlib.Data.List.Perm.Subperm
import Mathlib.Tactic.Ring

/-!
# Tables of different elements

A table with a free place has room for one more element: going round from any place on, a probe
comes to every place, so it finds the element or a free place. A table begins with twice as many
free places as there are elements to enter, and each of them takes one.

Conversely, a value that stands in a table is found by its probe, because no place before it on the
way is free. So entering elements refuses every repetition. A walk goes round the table once: the
salt decides about the order of what it finds and about nothing else.

## Main definitions

* `SetTable.present`: the places of a table that are not free
* `SetTable.Findable`: what stands in a table is found

## Main results

* `SetTable.exists_probeFrom`: a probe for a value that is not in the table ends at a free place
* `SetTable.exists_ofElements`: different integers and strings have a table
* `SetTable.of_ofElements`: only different elements have one, and they are what it holds
* `SetTable.visit_perm`: a walk finds what the table holds
-/

namespace ClassSharing

namespace SetTable

/-! ### Probes -/

section Probes

variable {table : List Value} {v : Value}

theorem getElem?_eq_nil {place : Nat} (hplace : place < table.length)
    (h : (table[place]?.getD .nil).isNil = true) : table[place]? = some .nil := by
  rw [List.getElem?_eq_getElem hplace] at h ⊢
  cases hvalue : table[place] with
  | nil => rfl
  | int n => rw [hvalue] at h; cases h
  | bool b => rw [hvalue] at h; cases h
  | str s => rw [hvalue] at h; cases h
  | obj o => rw [hvalue] at h; cases h

/-- A probe ends at a free place, or none of the places that it came to is free. -/
theorem probeFrom_cases (hv : v ∉ table) {steps place : Nat} (hplace : place < table.length) :
    (∃ p, p < table.length ∧ table[p]? = some .nil ∧
      probeFrom table v steps place = .ok (p, false)) ∨
    ∀ i < steps, table[(place + i) % table.length]? ≠ some .nil := by
  induction steps generalizing place with
  | zero => exact .inr fun i hi => absurd hi (Nat.not_lt_zero i)
  | succ steps ih =>
    have hlength : 0 < table.length := Nat.zero_lt_of_lt hplace
    rw [probeFrom]
    by_cases hfree : (table[place]?.getD .nil).isNil = true
    · exact .inl ⟨place, hplace, getElem?_eq_nil hplace hfree, by simp only [hfree, if_true]⟩
    · have hother : table[place]?.getD .nil ≠ v := fun heq => by
        rw [List.getElem?_eq_getElem hplace] at heq
        exact hv (heq ▸ List.getElem_mem hplace)
      simp only [if_neg hfree, if_neg hother]
      refine (ih (Nat.mod_lt (place + 1) hlength)).imp id fun hrest i hi => ?_
      cases i with
      | zero =>
        rw [Nat.add_zero, Nat.mod_eq_of_lt hplace]
        intro heq
        rw [heq] at hfree
        exact hfree rfl
      | succ i =>
        have hnext := hrest i (Nat.lt_of_succ_lt_succ hi)
        rw [Nat.mod_add_mod] at hnext
        rwa [Nat.add_right_comm, ← Nat.add_assoc] at *

/-- **A probe for a value that is not in the table ends at a free place**, if there is one. -/
theorem exists_probeFrom (hv : v ∉ table) (hfree : .nil ∈ table) {place : Nat}
    (hplace : place < table.length) :
    ∃ p, p < table.length ∧ table[p]? = some .nil ∧
      probeFrom table v table.length place = .ok (p, false) := by
  refine (probeFrom_cases hv hplace).resolve_right fun hnone => ?_
  obtain ⟨i, hi, hget⟩ := List.mem_iff_getElem.1 hfree
  -- the probe comes to the free place after going round as far as it lies ahead
  have hreach : (place + (i + table.length - place) % table.length) % table.length = i := by
    rw [Nat.add_mod_mod, Nat.add_sub_cancel' (by omega), Nat.add_mod_right, Nat.mod_eq_of_lt hi]
  refine hnone ((i + table.length - place) % table.length) (Nat.mod_lt _ (by omega)) ?_
  rw [hreach, List.getElem?_eq_getElem hi, hget]

end Probes

/-! ### Tables -/

/-- An integer or a string. -/
def Hashable (v : Value) : Prop := ∃ h, hash v = .ok h

theorem hashable_str (s : Text) : Hashable (.str s) := ⟨_, rfl⟩

theorem Hashable.ne_nil {v : Value} (h : Hashable v) : v ≠ .nil := by
  rintro rfl
  obtain ⟨hashed, hhash⟩ := h
  cases hhash

theorem wrap_lt (x : Int) {n : Nat} (hn : 0 < n) : wrap x n < n := by
  have hmod := Int.emod_lt_of_pos x (Int.natCast_pos.2 hn)
  have hnonneg := Int.emod_nonneg x (Int.natCast_ne_zero.2 (Nat.ne_of_gt hn))
  rw [wrap]
  omega

theorem exists_probe {table : List Value} {v : Value} (hv : Hashable v) (hnew : v ∉ table)
    (hfree : .nil ∈ table) :
    ∃ p, p < table.length ∧ table[p]? = some .nil ∧ probe table v = .ok (p, false) := by
  obtain ⟨h, hhash⟩ := hv
  rw [probe, hhash]
  exact exists_probeFrom hnew hfree (wrap_lt _ (List.length_pos_of_mem hfree))

/-- Different elements that are not in a table are entered in it, if there are free places for all.
-/
theorem exists_enterAll {table elements : List Value} (hhash : ∀ v ∈ elements, Hashable v)
    (hdistinct : elements.Nodup) (hnew : ∀ v ∈ elements, v ∉ table)
    (hroom : elements.length ≤ table.count .nil) :
    ∃ entered, (∀ describe, enterAll describe table elements = .ok entered) ∧
      entered.length = table.length ∧ ∀ v ∈ entered, v ∈ table ∨ v ∈ elements := by
  induction elements generalizing table with
  | nil => exact ⟨table, fun _ => rfl, rfl, fun v hv => .inl hv⟩
  | cons first rest ih =>
    obtain ⟨hfirst, hrest⟩ := List.forall_mem_cons.1 hhash
    obtain ⟨hfirstNew, hrestNew⟩ := List.forall_mem_cons.1 hnew
    obtain ⟨hnotMem, hdistinct⟩ := List.nodup_cons.1 hdistinct
    rw [List.length_cons] at hroom
    have hfree : .nil ∈ table := List.count_pos_iff.1 (by omega)
    obtain ⟨p, hp, hplace, hprobe⟩ := exists_probe hfirst hfirstNew hfree
    have hget : table[p] = .nil := by
      rw [List.getElem?_eq_getElem hp] at hplace
      exact Option.some.inj hplace
    have hmem : ∀ v ∈ table.set p first, v ∈ table ∨ v = first := fun v hv =>
      List.mem_or_eq_of_mem_set hv
    have hcount : (table.set p first).count .nil = table.count .nil - 1 := by
      rw [List.count_set hp, hget]
      simp [hfirst.ne_nil]
    have hstillNew : ∀ v ∈ rest, v ∉ table.set p first := fun v hv hset =>
      (hmem v hset).elim (hrestNew v hv) fun heq => hnotMem (heq ▸ hv)
    obtain ⟨entered, hentered, hlength, hmembers⟩ := ih hrest hdistinct hstillNew (by omega)
    refine ⟨entered, fun describe => ?_, by rw [hlength, List.length_set], fun v hv => ?_⟩
    · rw [enterAll, hprobe]
      exact hentered describe
    · rcases hmembers v hv with hv | hv
      · exact (hmem v hv).imp_right fun heq => by rw [heq]; exact List.mem_cons_self
      · exact .inr (List.mem_cons_of_mem _ hv)

/-- **Different integers and strings have a table.** It has two places for each of them, and holds
nothing else. -/
theorem exists_ofElements {elements : List Value} (hhash : ∀ v ∈ elements, Hashable v)
    (hdistinct : elements.Nodup) :
    ∃ table, (∀ describe, ofElements describe elements = .ok table) ∧
      table.length = placesPerElement * elements.length ∧
      ∀ v ∈ table, v = .nil ∨ v ∈ elements := by
  have hnew : ∀ v ∈ elements, v ∉ List.replicate (placesPerElement * elements.length) .nil :=
    fun v hv hmem => (hhash v hv).ne_nil (List.eq_of_mem_replicate hmem)
  obtain ⟨table, htable, hlength, hmembers⟩ := exists_enterAll hhash hdistinct hnew
    (by rw [List.count_replicate_self, placesPerElement]; omega)
  refine ⟨table, htable, by rw [hlength, List.length_replicate], fun v hv => ?_⟩
  exact (hmembers v hv).imp List.eq_of_mem_replicate id

/-! ### What a table holds -/

/-- The places of a table that are not free. -/
def present (table : List Value) : List Value := table.filter fun v => !v.isNil

theorem isNil_eq_true_iff {v : Value} : v.isNil = true ↔ v = .nil := by
  cases v <;> simp [Value.isNil]

theorem mem_present_iff {table : List Value} {v : Value} :
    v ∈ present table ↔ v ∈ table ∧ v ≠ .nil := by
  rw [present, List.mem_filter, Bool.not_eq_true', ← Bool.not_eq_true, isNil_eq_true_iff]

theorem present_replicate (n : Nat) : present (List.replicate n .nil) = [] := by
  rw [present, List.filter_eq_nil_iff]
  intro v hv
  rw [List.eq_of_mem_replicate hv]
  simp [Value.isNil]

/-- A value that takes a free place is the only one that is new. -/
theorem present_set_perm {table : List Value} {place : Nat} {v : Value} (hv : v ≠ .nil)
    (hfree : table[place]? = some .nil) :
    (present (table.set place v)).Perm (v :: present table) := by
  obtain ⟨hplace, hget⟩ := List.getElem?_eq_some_iff.1 hfree
  have hsplit : table = table.take place ++ .nil :: table.drop (place + 1) := by
    rw [← hget, List.getElem_cons_drop, List.take_append_drop]
  have hv' : (!v.isNil) = true := by
    rw [Bool.not_eq_true', ← Bool.not_eq_true, isNil_eq_true_iff]
    exact hv
  have hnil : (!Value.nil.isNil) = false := rfl
  have hset : table.set place v = table.take place ++ v :: table.drop (place + 1) :=
    List.set_eq_take_append_cons_drop.trans (if_pos hplace)
  have hpresent : present table
      = present (table.take place) ++ present (table.drop (place + 1)) := by
    conv_lhs => rw [hsplit]
    rw [present, List.filter_append, List.filter_cons, hnil]
    rfl
  rw [hset, hpresent, present, List.filter_append, List.filter_cons, if_pos hv']
  exact List.perm_middle

section Findable

variable {table : List Value} {v w : Value} {place : Nat}

/-- Where a probe that finds nothing ends. -/
theorem free_of_probeFrom {steps start : Nat} (hlength : start < table.length)
    (h : probeFrom table v steps start = .ok (place, false)) : table[place]? = some .nil := by
  induction steps generalizing start with
  | zero => cases h
  | succ steps ih =>
    rw [probeFrom] at h
    by_cases hfree : (table[start]?.getD .nil).isNil = true
    · simp only [hfree, if_true] at h
      obtain ⟨rfl, -⟩ := Prod.mk.inj (Except.ok.inj h)
      exact getElem?_eq_nil hlength hfree
    · simp only [if_neg hfree] at h
      split at h
      · cases h
      · exact ih (Nat.mod_lt _ (Nat.zero_lt_of_lt hlength)) h

/-- A probe that finds a value still does when a free place is taken. -/
theorem probeFrom_set_of_found {steps start found : Nat} (hfree : table[place]? = some .nil)
    (h : probeFrom table w steps start = .ok (found, true)) :
    probeFrom (table.set place v) w steps start = .ok (found, true) := by
  induction steps generalizing start with
  | zero => cases h
  | succ steps ih =>
    rw [probeFrom] at h ⊢
    by_cases hnil : (table[start]?.getD .nil).isNil = true
    · simp only [hnil, if_true] at h
      cases h
    · have hother : place ≠ start := fun heq => by
        rw [← heq, hfree] at hnil
        exact hnil rfl
      simp only [if_neg hnil] at h
      simp only [List.getElem?_set_ne hother, if_neg hnil, List.length_set]
      split at h
      · rename_i heq
        simp only [heq, if_true]
        exact h
      · rename_i hne
        simp only [if_neg hne]
        exact ih h

/-- A probe finds the value that takes the free place where it ended. -/
theorem probeFrom_set_self {steps start : Nat} (hv : v ≠ .nil) (hfree : table[place]? = some .nil)
    (h : probeFrom table v steps start = .ok (place, false)) :
    probeFrom (table.set place v) v steps start = .ok (place, true) := by
  have hplace := (List.getElem?_eq_some_iff.1 hfree).1
  induction steps generalizing start with
  | zero => cases h
  | succ steps ih =>
    rw [probeFrom] at h ⊢
    by_cases hnil : (table[start]?.getD .nil).isNil = true
    · simp only [hnil, if_true] at h
      obtain ⟨rfl, -⟩ := Prod.mk.inj (Except.ok.inj h)
      have hset : (table.set start v)[start]?.getD .nil = v := by
        rw [List.getElem?_set_self hplace]
        rfl
      simp only [hset, isNil_eq_true_iff, hv, if_false, if_true]
    · have hother : place ≠ start := fun heq => by
        rw [← heq, hfree] at hnil
        exact hnil rfl
      simp only [if_neg hnil] at h
      simp only [List.getElem?_set_ne hother, if_neg hnil, List.length_set]
      split at h
      · cases h
      · rename_i hne
        simp only [if_neg hne]
        exact ih h

/-- What stands in a table is found. -/
def Findable (table : List Value) : Prop :=
  ∀ v ∈ table, v ≠ .nil → ∃ place, probe table v = .ok (place, true)

theorem findable_replicate (n : Nat) : Findable (List.replicate n .nil) :=
  fun _ hv hne => absurd (List.eq_of_mem_replicate hv) hne

theorem ne_nil_of_probe {found : Bool} (h : probe table v = .ok (place, found)) : v ≠ .nil := by
  rintro rfl
  cases h

/-- Where a probe that finds nothing ends. -/
theorem free_of_probe (h : probe table v = .ok (place, false)) : table[place]? = some .nil := by
  rw [probe] at h
  split at h
  · cases h
  · rename_i hashed hhash
    cases table with
    | nil => cases h
    | cons first rest => exact free_of_probeFrom (wrap_lt _ (Nat.succ_pos _)) h

theorem Findable.set (h : Findable table) (hprobe : probe table v = .ok (place, false)) :
    Findable (table.set place v) := by
  have hfree := free_of_probe hprobe
  intro w hw hne
  rcases List.mem_or_eq_of_mem_set hw with hold | rfl
  · obtain ⟨found, hfound⟩ := h w hold hne
    refine ⟨found, ?_⟩
    rw [probe] at hfound ⊢
    split at hfound
    · cases hfound
    · rw [List.length_set]
      exact probeFrom_set_of_found hfree hfound
  · refine ⟨place, ?_⟩
    rw [probe] at hprobe ⊢
    split at hprobe
    · cases hprobe
    · rw [List.length_set]
      exact probeFrom_set_self hne hfree hprobe

/-- A value stays in a table when a free place is taken. -/
theorem mem_set_of_mem (hfree : table[place]? = some .nil) (hw : w ≠ .nil) (hmem : w ∈ table) :
    w ∈ table.set place v := by
  obtain ⟨i, hi, rfl⟩ := List.mem_iff_getElem.1 hmem
  have hother : place ≠ i := fun heq => by
    rw [heq, List.getElem?_eq_getElem hi] at hfree
    exact hw (Option.some.inj hfree)
  have hi' : i < (table.set place v).length := by rw [List.length_set]; exact hi
  rw [← List.getElem_set_ne hother hi']
  exact List.getElem_mem hi'

/-- Elements that have been entered were different from each other and from what the table held, and
now they are in it too. -/
theorem of_enterAll {describe : Value → Text} {elements entered : List Value}
    (hfindable : Findable table) (h : enterAll describe table elements = .ok entered) :
    elements.Nodup ∧ (∀ v ∈ elements, v ≠ .nil ∧ v ∉ table) ∧
      (present entered).Perm (elements ++ present table) := by
  induction elements generalizing table with
  | nil =>
    obtain rfl := Except.ok.inj h
    exact ⟨List.nodup_nil, by simp, .refl _⟩
  | cons first rest ih =>
    rw [enterAll] at h
    split at h
    · cases h
    · cases h
    · rename_i place hprobe
      have hfree := free_of_probe hprobe
      have hne := ne_nil_of_probe hprobe
      have hplace := (List.getElem?_eq_some_iff.1 hfree).1
      obtain ⟨hdistinct, hnew, hperm⟩ := ih (hfindable.set hprobe) h
      refine ⟨List.nodup_cons.2 ⟨fun hmem => ?_, hdistinct⟩,
        List.forall_mem_cons.2 ⟨⟨hne, fun hmem => ?_⟩, fun v hv => ?_⟩, ?_⟩
      · exact (hnew first hmem).2 (List.mem_set hplace first)
      · obtain ⟨found, hfound⟩ := hfindable first hmem hne
        rw [hprobe] at hfound
        cases hfound
      · obtain ⟨hv', hset⟩ := hnew v hv
        exact ⟨hv', fun hmem => hset (mem_set_of_mem hfree hv' hmem)⟩
      · refine hperm.trans (((present_set_perm hne hfree).append_left rest).trans ?_)
        exact List.perm_middle

/-- **Only different elements have a table**, and they are what it holds. -/
theorem of_ofElements {describe : Value → Text} {elements : List Value}
    (h : ofElements describe elements = .ok table) :
    elements.Nodup ∧ (present table).Perm elements := by
  obtain ⟨hdistinct, -, hperm⟩ := of_enterAll (findable_replicate _) h
  rw [present_replicate, List.append_nil] at hperm
  exact ⟨hdistinct, hperm⟩

end Findable

/-! ### Walks -/

/-- The step of a walk. -/
def stride (backwards : Bool) : Int := if backwards then -1 else 1

theorem natCast_wrap (x : Int) {n : Nat} (hn : 0 < n) : ((wrap x n : Nat) : Int) = x % n :=
  Int.toNat_of_nonneg (Int.emod_nonneg x (Int.natCast_ne_zero.2 (Nat.ne_of_gt hn)))

theorem next_wrap (backwards : Bool) {n : Nat} (hn : 0 < n) (x : Int) :
    next backwards n (wrap x n) = wrap (x + stride backwards) n := by
  have hstep : ((next backwards n (wrap x n) : Nat) : Int) = (x + stride backwards) % n := by
    cases backwards with
    | true =>
      rw [next, if_pos rfl, natCast_wrap _ hn, natCast_wrap x hn, Int.sub_eq_add_neg,
        Int.emod_add_emod]
      rfl
    | false =>
      rw [next, if_neg Bool.false_ne_true, Int.natCast_emod, Int.natCast_add, natCast_wrap x hn,
        Int.emod_add_emod]
      rfl
  rw [← Int.natCast_inj, hstep, natCast_wrap _ hn]

/-- The places of a walk, one step after another. -/
theorem walk_eq (table : List Value) (backwards : Bool) (steps : Nat) (x : Int)
    (hlength : 0 < table.length) :
    walk table backwards steps (wrap x table.length)
      = present ((List.range steps).map fun (i : Nat) =>
        table[wrap (x + stride backwards * i) table.length]?.getD .nil) := by
  induction steps generalizing x with
  | zero => rfl
  | succ steps ih =>
    have hrest := ih (x + stride backwards)
    have hshift : ∀ i : Nat, x + stride backwards + stride backwards * i
        = x + stride backwards * ((i + 1 : Nat) : Int) := fun i => by push_cast; ring
    simp only [hshift] at hrest
    rw [walk, next_wrap backwards hlength, hrest, List.range_succ_eq_map, List.map_cons,
      List.map_map]
    simp only [Nat.cast_zero, mul_zero, add_zero, present, List.filter_cons, Function.comp_def]
    cases (table[wrap x table.length]?.getD .nil).isNil <;> rfl

/-- A walk comes to different places as long as it has not gone round. -/
theorem wrap_injective (backwards : Bool) (x : Int) {n i j : Nat} (hi : i < n) (hj : j < n)
    (h : wrap (x + stride backwards * i) n = wrap (x + stride backwards * j) n) : i = j := by
  have hmod : (x + stride backwards * i) % n = (x + stride backwards * j) % n := by
    rw [← natCast_wrap _ (Nat.zero_lt_of_lt hi), h, natCast_wrap _ (Nat.zero_lt_of_lt hi)]
  have hdvd : (n : Int) ∣ (i : Int) - j := by
    have hsub : (n : Int) ∣ _ := Int.ModEq.dvd (Int.ModEq.symm hmod)
    have hfactor : x + stride backwards * i - (x + stride backwards * j)
        = stride backwards * ((i : Int) - j) := by ring
    rw [hfactor] at hsub
    cases backwards with
    | true => exact Int.dvd_neg.1 (by simpa only [stride, if_true, neg_one_mul] using hsub)
    | false => simpa [stride] using hsub
  have hzero := Int.eq_zero_of_abs_lt_dvd hdvd (by rw [abs_lt]; omega)
  omega

/-- **A walk finds what the table holds**, whatever the salt is. -/
theorem visit_perm (table : List Value) (salt : Int64) (backwards : Bool) :
    (visit table salt backwards).Perm (present table) := by
  cases hlength : table.length with
  | zero =>
    obtain rfl := List.eq_nil_of_length_eq_zero hlength
    exact .refl _
  | succ n =>
    have hpos : 0 < table.length := by omega
    rw [visit, walk_eq table backwards table.length salt.toInt hpos]
    have hplaces : ((List.range table.length).map fun (i : Nat) =>
        wrap (salt.toInt + stride backwards * i) table.length).Perm (List.range table.length) := by
      refine (List.subperm_of_subset ?_ ?_).perm_of_length_le (by simp)
      · refine List.Nodup.map_on (fun i hi j hj heq => ?_) List.nodup_range
        exact wrap_injective backwards salt.toInt (List.mem_range.1 hi) (List.mem_range.1 hj) heq
      · intro place hplace
        obtain ⟨i, -, rfl⟩ := List.mem_map.1 hplace
        exact List.mem_range.2 (wrap_lt _ hpos)
    have hall : (List.range table.length).map (fun place => table[place]?.getD .nil) = table :=
      List.ext_getElem (by simp) fun i hi hi' => by simp [hi']
    have hvisited := (hplaces.map fun place => table[place]?.getD .nil).filter fun v => !v.isNil
    rw [hall, List.map_map] at hvisited
    exact hvisited

end SetTable

end ClassSharing
