import ClassSharing.Sorting
import ClassSharing.Table
import Mathlib.Data.List.Induction
import Mathlib.Data.List.Nodup
import Mathlib.Data.List.Perm.Subperm

/-!
# Ascending lists and tables

The order of a table is part of its representation, and insertion keeps it. A table in ascending
order has every name once, so that looking a name up and finding its entry in the list are the same.

## Main definitions

* `Table.Ascending`: the names of a table are in strictly ascending order
* `Table.map`: a table with other values

## Main results

* `Text.sorted_eq_of_perm`: sorting forgets the order
* `Text.pairwise_sortedUnique`, `Text.mem_sortedUnique`, `Text.sortedUnique_eq`: sorting without
  repetitions
* `Table.ascending_insert`, `Table.ascending_ofList`: tables are ascending
* `Table.mem_entries_iff`: the entries of an ascending table are what look-ups find
* `Table.get?_ofList_of_mem`: a table made from distinct names has all of them
* `Table.eq_of_get?_eq`, `Table.ofList_eq_of_perm`: a table is its look-ups
-/

namespace ClassSharing

/-- The next member of a list stays if it has not occurred before. -/
theorem eraseDups_concat {α : Type} [DecidableEq α] (l : List α) (a : α) :
    (l ++ [a]).eraseDups = if a ∈ l then l.eraseDups else l.eraseDups ++ [a] := by
  rw [List.eraseDups_append, List.removeAll]
  by_cases h : a ∈ l <;> simp [h, List.eraseDups_cons]

theorem nodup_eraseDups {α : Type} [DecidableEq α] (l : List α) : l.eraseDups.Nodup := by
  induction l using List.reverseRecOn with
  | nil => exact List.nodup_nil
  | append_singleton l a ih =>
    rw [eraseDups_concat]
    split
    · exact ih
    · rename_i hnew
      exact List.nodup_append.2 ⟨ih, List.nodup_singleton a, fun b hb c hc heq =>
        hnew (List.mem_eraseDups.1 (List.mem_singleton.1 hc ▸ heq ▸ hb))⟩

theorem prefix_eraseDups_append {α : Type} [DecidableEq α] (l more : List α) :
    l.eraseDups <+: (l ++ more).eraseDups := by
  rw [List.eraseDups_append]
  exact List.prefix_append _ _

/-! ### Texts in ascending order -/

namespace Text

theorem precedes_irrefl (a : Text) : a.precedes a = false := Bytes.precedes_irrefl a.bytes

theorem precedes_trans {a b c : Text} (hab : a.precedes b = true) (hbc : b.precedes c = true) :
    a.precedes c = true :=
  Bytes.precedes_trans hab hbc

theorem ne_of_precedes {a b : Text} (h : a.precedes b = true) : a ≠ b := by
  rintro rfl
  rw [precedes_irrefl] at h
  cases h

/-- Of two different texts one precedes the other. -/
theorem precedes_of_ne {a b : Text} (hne : a ≠ b) (h : b.precedes a = false) :
    a.precedes b = true := by
  by_contra hab
  have hle : b.atMost a = true := by simpa [atMost] using hab
  have hge : a.atMost b = true := by simp [atMost, h]
  exact hne (atMost_antisymm hge hle)

theorem precedes_of_precedes_of_atMost {a b c : Text} (hab : a.precedes b = true)
    (hbc : b.atMost c = true) : a.precedes c = true := by
  rcases eq_or_ne b c with rfl | hne
  · exact hab
  · exact precedes_trans hab (precedes_of_ne hne (by simpa [atMost] using hbc))

theorem mem_dropRepeats {t : Text} {ts : List Text} : t ∈ dropRepeats ts ↔ t ∈ ts := by
  fun_induction dropRepeats ts with
  | case1 => rfl
  | case2 u => rfl
  | case3 u rest ih => simp [ih]
  | case4 u v rest hne ih => rw [List.mem_cons, ih, ← List.mem_cons]

theorem pairwise_dropRepeats {ts : List Text} (h : ts.Pairwise fun a b => a.atMost b = true) :
    (dropRepeats ts).Pairwise fun a b => a.precedes b = true := by
  fun_induction dropRepeats ts with
  | case1 => exact List.Pairwise.nil
  | case2 t => exact List.pairwise_singleton _ t
  | case3 u rest ih => exact ih (List.pairwise_cons.1 h).2
  | case4 t u rest hne ih =>
    obtain ⟨hfirst, htail⟩ := List.pairwise_cons.1 h
    refine List.pairwise_cons.2 ⟨fun v hv => ?_, ih htail⟩
    have htu : t.precedes u = true :=
      precedes_of_ne hne (by simpa [atMost] using hfirst u List.mem_cons_self)
    rcases List.mem_cons.1 (mem_dropRepeats.1 hv) with rfl | hmem
    · exact htu
    · exact precedes_of_precedes_of_atMost htu ((List.pairwise_cons.1 htail).1 v hmem)

theorem sorted_perm (ts : List Text) : (sorted ts).Perm ts := List.mergeSort_perm ts _

theorem pairwise_sorted (ts : List Text) : (sorted ts).Pairwise fun a b => a.atMost b = true := by
  refine List.pairwise_mergeSort ?_ ?_ ts
  · exact fun a b c => atMost_trans
  · intro a b
    rw [Bool.or_eq_true]
    exact atMost_total a b

/-- Sorting does not remember in which order the texts were. -/
theorem sorted_eq_of_perm {ts us : List Text} (h : ts.Perm us) : sorted ts = sorted us := by
  have hperm : (sorted ts).Perm (sorted us) :=
    (sorted_perm ts).trans (h.trans (sorted_perm us).symm)
  exact hperm.eq_of_pairwise (fun a b _ _ => atMost_antisymm) (pairwise_sorted ts)
    (pairwise_sorted us)

theorem sorted_sorted (ts : List Text) : sorted (sorted ts) = sorted ts :=
  sorted_eq_of_perm (sorted_perm ts)

/-- **Sorting without repetitions** keeps exactly the texts of the list, -/
theorem mem_sortedUnique {t : Text} {ts : List Text} : t ∈ sortedUnique ts ↔ t ∈ ts := by
  rw [sortedUnique, mem_dropRepeats, (sorted_perm ts).mem_iff]

/-- and puts them in strictly ascending order. -/
theorem pairwise_sortedUnique (ts : List Text) :
    (sortedUnique ts).Pairwise fun a b => a.precedes b = true :=
  pairwise_dropRepeats (pairwise_sorted ts)

theorem length_sortedUnique_le (ts : List Text) : (sortedUnique ts).length ≤ ts.length := by
  have hnodup : (sortedUnique ts).Nodup := (pairwise_sortedUnique ts).imp ne_of_precedes
  exact (List.subperm_of_subset hnodup fun _ => mem_sortedUnique.1).length_le

/-- There is one ascending list of given texts, so it is what sorting gives. -/
theorem sortedUnique_eq {ts us : List Text} (hmem : ∀ t, t ∈ ts ↔ t ∈ us)
    (hus : us.Pairwise fun a b => a.precedes b = true) : sortedUnique ts = us := by
  have hsorted := pairwise_sortedUnique ts
  have hperm : (sortedUnique ts).Perm us := by
    refine (List.perm_ext_iff_of_nodup (hsorted.imp ne_of_precedes) (hus.imp ne_of_precedes)).2 ?_
    exact fun t => mem_sortedUnique.trans (hmem t)
  refine List.Perm.eq_of_pairwise (fun a b _ _ hab hba => ?_) hsorted hus hperm
  exact absurd rfl (ne_of_precedes (precedes_trans hab hba))

end Text

/-! ### Tables -/

namespace Table

variable {α : Type}

/-- The names of a table are in strictly ascending order. -/
def Ascending (t : Table α) : Prop := t.entries.Pairwise fun e f => e.1.precedes f.1 = true

/-- A look-up in the entries whose names pass a test. -/
theorem find?_filter (p : Text → Bool) (name : Text) (entries : List (Text × α)) :
    find? name (entries.filter fun e => p e.1) = if p name then find? name entries else none := by
  induction entries with
  | nil => simp [find?]
  | cons e rest ih =>
    obtain ⟨k, v⟩ := e
    by_cases hk : k = name
    · subst hk
      cases hp : p k <;> simp [find?, hp, ih]
    · cases hp : p k <;> simp [find?, hp, hk, ih]

theorem ascending_empty : (empty : Table α).Ascending := List.Pairwise.nil

theorem mem_place {name : Text} {value : α} {entries : List (Text × α)} {entry : Text × α}
    (h : entry ∈ place name value entries) : entry = (name, value) ∨ entry ∈ entries := by
  induction entries with
  | nil => exact Or.inl (List.mem_singleton.1 h)
  | cons first rest ih =>
    obtain ⟨k, v⟩ := first
    rw [place] at h
    split at h
    · rename_i hk
      rcases List.mem_cons.1 h with rfl | h
      · exact Or.inl (by rw [hk])
      · exact Or.inr (List.mem_cons_of_mem _ h)
    · split at h
      · exact List.mem_cons.1 h
      · rcases List.mem_cons.1 h with rfl | h
        · exact Or.inr List.mem_cons_self
        · rcases ih h with heq | hmem
          · exact Or.inl heq
          · exact Or.inr (List.mem_cons_of_mem _ hmem)

/-- **Insertion keeps the order.** -/
theorem ascending_insert {t : Table α} (h : t.Ascending) (name : Text) (value : α) :
    (t.insert name value).Ascending := by
  obtain ⟨entries⟩ := t
  induction entries with
  | nil => exact List.pairwise_singleton _ _
  | cons first rest ih =>
    obtain ⟨k, v⟩ := first
    obtain ⟨hfirst, hrest⟩ := List.pairwise_cons.1 h
    rw [Ascending, insert, place]
    split
    · rename_i hk
      exact List.pairwise_cons.2 ⟨hfirst, hrest⟩
    · rename_i hk
      split
      · rename_i hname
        refine List.pairwise_cons.2 ⟨fun entry hentry => ?_, h⟩
        rcases List.mem_cons.1 hentry with rfl | hmem
        · exact hname
        · exact Text.precedes_trans hname (hfirst entry hmem)
      · rename_i hname
        refine List.pairwise_cons.2 ⟨fun entry hentry => ?_, ih hrest⟩
        rcases mem_place hentry with rfl | hmem
        · exact Text.precedes_of_ne hk (Bool.eq_false_iff.2 hname)
        · exact hfirst entry hmem

theorem ascending_ofList (bindings : List (Text × α)) : (ofList bindings).Ascending := by
  have hfold : ∀ t : Table α, t.Ascending →
      (bindings.foldl (fun t b => t.insert b.1 b.2) t).Ascending := by
    induction bindings with
    | nil => exact fun t ht => ht
    | cons b rest ih => exact fun t ht => ih _ (ascending_insert ht b.1 b.2)
  exact hfold empty ascending_empty

theorem mem_of_mem_ofList {bindings : List (Text × α)} {entry : Text × α}
    (h : entry ∈ (ofList bindings).entries) : entry ∈ bindings := by
  have hfold : ∀ t : Table α, entry ∈ (bindings.foldl (fun t b => t.insert b.1 b.2) t).entries →
      entry ∈ t.entries ∨ entry ∈ bindings := by
    clear h
    induction bindings with
    | nil => exact fun t h => Or.inl h
    | cons b rest ih =>
      intro t h
      rcases ih (t.insert b.1 b.2) h with h | h
      · rcases mem_place h with rfl | h
        · exact Or.inr List.mem_cons_self
        · exact Or.inl h
      · exact Or.inr (List.mem_cons_of_mem _ h)
  exact (hfold empty h).resolve_left List.not_mem_nil

theorem mem_of_find?_eq_some {name : Text} {value : α} {entries : List (Text × α)}
    (h : find? name entries = some value) : (name, value) ∈ entries := by
  induction entries with
  | nil => cases h
  | cons first rest ih =>
    obtain ⟨k, v⟩ := first
    rw [find?] at h
    split at h
    · rename_i hk
      obtain rfl := Option.some.inj h
      exact hk ▸ List.mem_cons_self
    · exact List.mem_cons_of_mem _ (ih h)

/-- **The entries of a table are what look-ups find.** -/
theorem mem_entries_iff {t : Table α} (h : t.Ascending) {name : Text} {value : α} :
    (name, value) ∈ t.entries ↔ t.get? name = some value := by
  refine ⟨fun hmem => ?_, mem_of_find?_eq_some⟩
  obtain ⟨entries⟩ := t
  rw [get?]
  induction entries with
  | nil => cases hmem
  | cons first rest ih =>
    obtain ⟨k, v⟩ := first
    obtain ⟨hfirst, hrest⟩ := List.pairwise_cons.1 h
    rw [find?]
    rcases List.mem_cons.1 hmem with heq | hmem
    · obtain ⟨rfl, rfl⟩ := Prod.mk.inj heq
      rw [if_pos rfl]
    · rw [if_neg (Text.ne_of_precedes (hfirst _ hmem))]
      exact ih hrest hmem

/-- A table has no more entries than it was made from. -/
theorem length_entries_ofList_le (bindings : List (Text × α)) :
    (ofList bindings).entries.length ≤ bindings.length := by
  have hnodup : (ofList bindings).entries.Nodup :=
    (ascending_ofList bindings).imp fun hlt heq => Text.ne_of_precedes hlt (congrArg Prod.fst heq)
  exact (List.subperm_of_subset hnodup fun _ => mem_of_mem_ofList).length_le

/-- A table made from distinct names has all of them. -/
theorem get?_ofList_of_mem {bindings : List (Text × α)} (h : (bindings.map Prod.fst).Nodup)
    {name : Text} {value : α} (hmem : (name, value) ∈ bindings) :
    (ofList bindings).get? name = some value := by
  have hothers : ∀ (rest : List (Text × α)) (t : Table α), name ∉ rest.map Prod.fst →
      (rest.foldl (fun t b => t.insert b.1 b.2) t).get? name = t.get? name := by
    intro rest
    induction rest with
    | nil => exact fun t _ => rfl
    | cons b rest ih =>
      intro t hnot
      rw [List.map_cons, List.mem_cons, not_or] at hnot
      rw [List.foldl_cons, ih _ hnot.2, get?_insert, if_neg hnot.1]
  have hfold : ∀ t : Table α,
      (bindings.foldl (fun t b => t.insert b.1 b.2) t).get? name = some value := by
    induction bindings with
    | nil => cases hmem
    | cons b rest ih =>
      intro t
      rw [List.map_cons, List.nodup_cons] at h
      rw [List.foldl_cons]
      rcases List.mem_cons.1 hmem with rfl | hmem
      · rw [hothers rest _ h.1, get?_insert, if_pos rfl]
      · exact ih h.2 hmem _
  exact hfold empty

/-- There is one ascending table with given look-ups. -/
theorem eq_of_get?_eq {t u : Table α} (ht : t.Ascending) (hu : u.Ascending)
    (h : ∀ name, t.get? name = u.get? name) : t = u := by
  have hne : ∀ {e f : Text × α}, e.1.precedes f.1 = true → e ≠ f :=
    fun hlt heq => Text.ne_of_precedes hlt (congrArg Prod.fst heq)
  have hperm : t.entries.Perm u.entries := by
    refine (List.perm_ext_iff_of_nodup (ht.imp hne) (hu.imp hne)).2 ?_
    rintro ⟨name, value⟩
    rw [mem_entries_iff ht, mem_entries_iff hu, h name]
  have hentries : t.entries = u.entries :=
    hperm.eq_of_pairwise (fun e f _ _ hef hfe => absurd rfl (hne (Text.precedes_trans hef hfe)))
      ht hu
  cases t
  cases u
  exact congrArg mk hentries

/-- The table of bindings of distinct names does not remember their order. -/
theorem ofList_eq_of_perm {bindings bindings' : List (Text × α)} (hperm : bindings.Perm bindings')
    (h : (bindings.map Prod.fst).Nodup) : ofList bindings = ofList bindings' := by
  have h' : (bindings'.map Prod.fst).Nodup := (hperm.map Prod.fst).nodup_iff.1 h
  refine eq_of_get?_eq (ascending_ofList _) (ascending_ofList _) fun name => ?_
  refine Option.ext fun value => ?_
  constructor
  · intro hfound
    have hmem := mem_of_mem_ofList ((mem_entries_iff (ascending_ofList _)).2 hfound)
    exact get?_ofList_of_mem h' (hperm.mem_iff.1 hmem)
  · intro hfound
    have hmem := mem_of_mem_ofList ((mem_entries_iff (ascending_ofList _)).2 hfound)
    exact get?_ofList_of_mem h (hperm.mem_iff.2 hmem)

/-- A new name makes a table longer by one. -/
theorem size_insert_of_none {t : Table α} {name : Text} (h : t.get? name = none) (value : α) :
    (t.insert name value).size = t.size + 1 := by
  obtain ⟨entries⟩ := t
  show (place name value entries).length = entries.length + 1
  induction entries with
  | nil => rfl
  | cons first rest ih =>
    obtain ⟨k, v⟩ := first
    have hk : k ≠ name := by
      rintro rfl
      simp [get?, find?] at h
    have hrest : (⟨rest⟩ : Table α).get? name = none := by simpa [get?, find?, hk] using h
    rw [place, if_neg hk]
    split
    · rfl
    · rw [List.length_cons, List.length_cons, ih hrest]

/-! ### Changed values -/

/-- The table with another value for each name. -/
def map {β : Type} (f : α → β) (t : Table α) : Table β := ⟨t.entries.map fun e => (e.1, f e.2)⟩

theorem get?_map {β : Type} (f : α → β) (t : Table α) (name : Text) :
    (t.map f).get? name = (t.get? name).map f := by
  obtain ⟨entries⟩ := t
  show find? name (entries.map fun e => (e.1, f e.2)) = (find? name entries).map f
  induction entries with
  | nil => rfl
  | cons first rest ih =>
    rw [List.map_cons, find?, find?]
    split
    · rfl
    · exact ih

theorem Ascending.map {β : Type} {t : Table α} (h : t.Ascending) (f : α → β) :
    (t.map f).Ascending :=
  List.pairwise_map.2 h

theorem get?_eq_none_iff {t : Table α} {name : Text} :
    t.get? name = none ↔ ∀ entry ∈ t.entries, entry.1 ≠ name := by
  obtain ⟨entries⟩ := t
  rw [get?]
  induction entries with
  | nil => simp [find?]
  | cons first rest ih =>
    obtain ⟨k, v⟩ := first
    rw [find?, List.forall_mem_cons]
    by_cases hk : k = name
    · simp [hk]
    · simp [hk, ih]

end Table

end ClassSharing
