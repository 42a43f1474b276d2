import ClassSharing.Proofs.Image.Refusal
import ClassSharing.Proofs.Image.Writer

/-!
# Specifications of one class

A writer takes its specifications one by one, and keeps two tables: the subgraph of a class, or the
reason why there is none. A specification is entered in one of them under the name of its class, and
nobody looks at the other one. So everything is as it should be for a class that is named once. For
the others a later specification takes the place of an earlier one in the same table, and leaves it
where it is in the other table.

That is not what was asked for: a class can be archived and skipped at once, and the fields of its
archivable specifications are lost without a reason, but for the last one. An instance of both is at
the end.

## Main definitions

* `Machine.Archives`: the graph behind the fields of a specification can be archived
* `Image.lastFor`: the last answer that specifications of a class give
* `Writer.Sorts`: what becomes of the classes that specifications name

## Main results

* `Writer.archiveEach_tables`: both tables after all specifications
* `Writer.archiveFields_sorts`: archiving fields succeeds, and sorts the classes
* `Writer.archived_and_skipped_repeatedSpecs`: a class in both tables, and a field that is lost
-/

namespace ClassSharing

open Image

theorem Table.mem_keys_iff {α : Type} {t : Table α} {name : Text} :
    name ∈ t.keys ↔ ∃ value, t.get? name = some value := by
  rw [← Option.ne_none_iff_exists', Ne, get?_eq_none_iff, keys, List.mem_map]
  push Not
  rfl

namespace Image

/-- The last answer that the specifications of a class give. -/
def lastFor {α : Type} (answer : FieldSpec → Option α) (name : Text) : List FieldSpec → Option α
  | [] => none
  | spec :: rest =>
    (lastFor answer name rest).or (if spec.className = name then answer spec else none)

section LastFor

variable {α : Type} {answer : FieldSpec → Option α} {name : Text} {specs : List FieldSpec}

theorem lastFor_eq_none_iff : lastFor answer name specs = none ↔
    ∀ spec ∈ specs, spec.className = name → answer spec = none := by
  induction specs with
  | nil => simp [lastFor]
  | cons spec rest ih =>
    rw [lastFor, Option.or_eq_none_iff, ih, List.forall_mem_cons, and_comm]
    by_cases hname : spec.className = name
    · simp [hname]
    · simp [hname]

/-- An answer counts if no later specification of the class has one. -/
theorem lastFor_eq_some {before after : List FieldSpec} {spec : FieldSpec} {a : α}
    (ha : answer spec = some a)
    (hafter : ∀ later ∈ after, later.className = spec.className → answer later = none) :
    lastFor answer spec.className (before ++ spec :: after) = some a := by
  induction before with
  | nil =>
    rw [List.nil_append, lastFor, lastFor_eq_none_iff.2 hafter, if_pos rfl, ha]
    rfl
  | cons first rest ih =>
    rw [List.cons_append, lastFor, ih]
    rfl

end LastFor

end Image

namespace Machine

/-! ### Answers -/

/-- The graph behind the fields of a specification can be archived. -/
def Archives (m : Machine) (spec : FieldSpec) : Prop := ∃ c, m.Confined spec c

/-- The subgraph of a specification. -/
def collected? (m : Machine) (spec : FieldSpec) : Option Subgraph :=
  (m.collectSubgraph spec).toOption

/-- The fault for which a specification is refused. -/
def refusal? (m : Machine) (spec : FieldSpec) : Option Fault :=
  match m.collectSubgraph spec with
  | .error (.fault fault) => some fault
  | _ => none

variable {m : Machine} {spec : FieldSpec}

theorem collected?_eq_none_iff : m.collected? spec = none ↔ ¬ m.Archives spec := by
  rw [collected?]
  cases h : m.collectSubgraph spec with
  | ok s => exact iff_of_false (Option.some_ne_none s) (not_not.2 (confined_of_collectSubgraph h))
  | error e =>
    refine iff_of_true rfl ?_
    rintro ⟨c, hc⟩
    exact (refuses_of_collectSubgraph h).not_confined hc

theorem refusal?_eq_none_iff (hclassed : m.Classed) : m.refusal? spec = none ↔ m.Archives spec := by
  rw [refusal?]
  cases h : m.collectSubgraph spec with
  | ok s => exact iff_of_true rfl (confined_of_collectSubgraph h)
  | error e =>
    have hrefuses := refuses_of_collectSubgraph h
    obtain ⟨fault, rfl, -⟩ := hrefuses.kinds hclassed
    refine iff_of_false (Option.some_ne_none fault) ?_
    rintro ⟨c, hc⟩
    exact hrefuses.not_confined hc

/-- A specification that can be archived has a subgraph with exactly its fields. -/
theorem Archives.exists_collected (h : m.Archives spec) :
    ∃ s, m.collectSubgraph spec = .ok s ∧
      (s.fields.getD []).map FieldRecord.name = spec.fields := by
  obtain ⟨c, hc⟩ := h
  obtain ⟨s, hs⟩ := hc.exists_collectSubgraph
  obtain ⟨c', found, -, hcollected⟩ := collected_of_collectSubgraph hs
  refine ⟨s, hs, ?_⟩
  rw [hcollected.fields, getD_presentList, List.map_map]
  exact List.map_id _

end Machine

namespace Writer

variable {m : Machine} {specs : List FieldSpec} {w w' : Writer} {name : Text}

/-! ### The two tables -/

/-- A specification is entered in one of the two tables. -/
theorem archiveEach_cons_cases (hclassed : m.Classed) (w : Writer) (spec : FieldSpec)
    (rest : List FieldSpec) :
    (∃ s, m.collectSubgraph spec = .ok s ∧ archiveEach m w (spec :: rest)
        = archiveEach m { w with subgraphs := w.subgraphs.insert spec.className s } rest) ∨
      ∃ fault, m.collectSubgraph spec = .error (.fault fault) ∧ archiveEach m w (spec :: rest)
        = archiveEach m { w with skipped := w.skipped.insert spec.className fault } rest := by
  cases h : m.collectSubgraph spec with
  | ok s => exact .inl ⟨s, rfl, by rw [archiveEach, h]; rfl⟩
  | error e =>
    obtain ⟨fault, rfl, -⟩ := (Machine.refuses_of_collectSubgraph h).kinds hclassed
    exact .inr ⟨fault, rfl, by rw [archiveEach, h]; rfl⟩

theorem or_get?_insert {α : Type} (later : Option α) (t : Table α) (k name : Text) (value : α) :
    later.or ((t.insert k value).get? name)
      = (later.or (if k = name then some value else none)).or (t.get? name) := by
  rw [Table.get?_insert, Option.or_assoc]
  by_cases h : k = name
  · simp [h]
  · simp [h, Ne.symm h]

/-- **The tables after all specifications.** Every class has the subgraph of its last specification
that can be archived, and the reason of its last one that cannot. -/
theorem archiveEach_tables (hclassed : m.Classed) (w : Writer) (specs : List FieldSpec) :
    ∃ w', archiveEach m w specs = (.ok (), w') ∧
      (∀ name, w'.subgraphs.get? name
        = (lastFor m.collected? name specs).or (w.subgraphs.get? name)) ∧
      ∀ name, w'.skipped.get? name
        = (lastFor m.refusal? name specs).or (w.skipped.get? name) := by
  induction specs generalizing w with
  | nil => exact ⟨w, rfl, fun _ => rfl, fun _ => rfl⟩
  | cons spec rest ih =>
    rcases archiveEach_cons_cases hclassed w spec rest with ⟨s, hs, hstep⟩ | ⟨fault, hfault, hstep⟩
    · obtain ⟨w', hw', hsubgraphs, hskipped⟩ :=
        ih { w with subgraphs := w.subgraphs.insert spec.className s }
      refine ⟨w', hstep.trans hw', fun name => ?_, fun name => ?_⟩
      · rw [hsubgraphs, or_get?_insert, lastFor, Machine.collected?, hs]
        rfl
      · rw [hskipped, lastFor, Machine.refusal?, hs, ite_self, Option.or_none]
    · obtain ⟨w', hw', hsubgraphs, hskipped⟩ :=
        ih { w with skipped := w.skipped.insert spec.className fault }
      refine ⟨w', hstep.trans hw', fun name => ?_, fun name => ?_⟩
      · rw [hsubgraphs, lastFor, Machine.collected?, hfault]
        simp [Except.toOption]
      · rw [hskipped, or_get?_insert, lastFor, Machine.refusal?, hfault]

/-! ### Archived and skipped classes -/

/-- What becomes of the classes that specifications name. -/
structure Sorts (m : Machine) (specs : List FieldSpec) (w w' : Writer) : Prop where
  /-- Archived are the classes with a specification that can be archived, -/
  archived : ∀ name, name ∈ w'.archived ↔
    name ∈ w.archived ∨ ∃ spec ∈ specs, spec.className = name ∧ m.Archives spec
  /-- skipped are those with one that cannot, -/
  skipped : ∀ name, name ∈ w'.skipped.keys ↔
    name ∈ w.skipped.keys ∨ ∃ spec ∈ specs, spec.className = name ∧ ¬ m.Archives spec
  /-- and the others are in the tables as they were. -/
  others : ∀ name, (∀ spec ∈ specs, spec.className ≠ name) →
    w'.subgraphs.get? name = w.subgraphs.get? name ∧ w'.skipped.get? name = w.skipped.get? name
  /-- The record of a class has the fields of its last specification that can be archived. -/
  record : ∀ before spec after, specs = before ++ spec :: after → m.Archives spec →
    (∀ later ∈ after, later.className = spec.className → ¬ m.Archives later) →
    ∃ s, m.collectSubgraph spec = .ok s ∧ w'.subgraphs.get? spec.className = some s ∧
      (s.fields.getD []).map FieldRecord.name = spec.fields
  /-- A class is skipped for the reason of its last specification that cannot be archived. -/
  reason : ∀ before spec after, specs = before ++ spec :: after → ¬ m.Archives spec →
    (∀ later ∈ after, later.className = spec.className → m.Archives later) →
    ∃ fault, w'.skipped.get? spec.className = some fault ∧ m.Refuses spec (.fault fault)
  /-- A class that is named once, and was in neither table, is archived with all the fields, or it
  is skipped. -/
  once : ∀ spec ∈ specs, (∀ other ∈ specs, other.className = spec.className → other = spec) →
    spec.className ∉ w.archived → spec.className ∉ w.skipped.keys →
    (spec.className ∈ w'.archived ∧ spec.className ∉ w'.skipped.keys ∧
        ∃ s, w'.subgraphs.get? spec.className = some s ∧
          (s.fields.getD []).map FieldRecord.name = spec.fields) ∨
      spec.className ∉ w'.archived ∧ spec.className ∈ w'.skipped.keys

/-- A table that takes the last answers knows the names of those that answer. -/
theorem mem_keys_iff_of_get?_eq {α : Type} {answer : FieldSpec → Option α} {t t' : Table α}
    (h : t'.get? name = (lastFor answer name specs).or (t.get? name)) :
    name ∈ t'.keys ↔
      name ∈ t.keys ∨ ∃ spec ∈ specs, spec.className = name ∧ answer spec ≠ none := by
  have hnone : name ∉ t'.keys ↔ lastFor answer name specs = none ∧ name ∉ t.keys := by
    simp only [Table.mem_keys_iff, ← Option.ne_none_iff_exists', not_not, h, Option.or_eq_none_iff]
  rw [← not_iff_not, hnone, lastFor_eq_none_iff, not_or, and_comm]
  push Not
  rfl

/-- The last place of a specification. -/
theorem exists_last {spec : FieldSpec} (h : spec ∈ specs) :
    ∃ before after, specs = before ++ spec :: after ∧ spec ∉ after := by
  obtain ⟨after, before, hreverse, hlast⟩ := List.eq_append_cons_of_mem (List.mem_reverse.2 h)
  refine ⟨before.reverse, after.reverse, ?_, fun hmem => hlast (List.mem_reverse.1 hmem)⟩
  rw [← List.reverse_reverse specs, hreverse]
  simp

/-- The record of the last specification of a class that can be archived. -/
theorem exists_record {before after : List FieldSpec} {spec : FieldSpec}
    (h : w'.subgraphs.get? spec.className
      = (lastFor m.collected? spec.className (before ++ spec :: after)).or
          (w.subgraphs.get? spec.className))
    (harchives : m.Archives spec)
    (hafter : ∀ later ∈ after, later.className = spec.className → ¬ m.Archives later) :
    ∃ s, m.collectSubgraph spec = .ok s ∧ w'.subgraphs.get? spec.className = some s ∧
      (s.fields.getD []).map FieldRecord.name = spec.fields := by
  obtain ⟨s, hs, hfields⟩ := harchives.exists_collected
  refine ⟨s, hs, ?_, hfields⟩
  have hlast : ∀ later ∈ after, later.className = spec.className → m.collected? later = none :=
    fun later hlater hname => Machine.collected?_eq_none_iff.2 (hafter later hlater hname)
  rw [h, lastFor_eq_some (a := s) (by rw [Machine.collected?, hs]; rfl) hlast]
  rfl

/-- The reason of the last specification of a class that cannot be archived. -/
theorem exists_reason (hclassed : m.Classed) {before after : List FieldSpec} {spec : FieldSpec}
    (h : w'.skipped.get? spec.className
      = (lastFor m.refusal? spec.className (before ++ spec :: after)).or
          (w.skipped.get? spec.className))
    (hnot : ¬ m.Archives spec)
    (hafter : ∀ later ∈ after, later.className = spec.className → m.Archives later) :
    ∃ fault, w'.skipped.get? spec.className = some fault ∧ m.Refuses spec (.fault fault) := by
  cases hcollect : m.collectSubgraph spec with
  | ok s => exact absurd (Machine.confined_of_collectSubgraph hcollect) hnot
  | error e =>
    have hrefuses := Machine.refuses_of_collectSubgraph hcollect
    obtain ⟨fault, rfl, -⟩ := hrefuses.kinds hclassed
    refine ⟨fault, ?_, hrefuses⟩
    have hlast : ∀ later ∈ after, later.className = spec.className → m.refusal? later = none :=
      fun later hlater hname =>
        (Machine.refusal?_eq_none_iff hclassed).2 (hafter later hlater hname)
    rw [h, lastFor_eq_some (a := fault) (by rw [Machine.refusal?, hcollect]) hlast]
    rfl

/-- **What becomes of the classes that specifications name.** Archiving static fields succeeds, on
every machine whose objects all have classes. -/
theorem archiveFields_sorts (hclassed : m.Classed) (w : Writer) (hkind : w.kind ≠ dynamicKind)
    (specs : List FieldSpec) :
    ∃ w', w.archiveFields m specs = (.ok (), w') ∧ Sorts m specs w w' := by
  obtain ⟨w', hw', hsubgraphs, hskipped⟩ := archiveEach_tables hclassed w specs
  have harchived : ∀ name, name ∈ w'.archived ↔
      name ∈ w.archived ∨ ∃ spec ∈ specs, spec.className = name ∧ m.Archives spec := fun name => by
    rw [archived, mem_keys_iff_of_get?_eq (hsubgraphs name)]
    simp only [Ne, Machine.collected?_eq_none_iff, not_not]
    rfl
  have hskippedKeys : ∀ name, name ∈ w'.skipped.keys ↔
      name ∈ w.skipped.keys ∨ ∃ spec ∈ specs, spec.className = name ∧ ¬ m.Archives spec :=
    fun name => by
      rw [mem_keys_iff_of_get?_eq (hskipped name)]
      simp only [Ne, Machine.refusal?_eq_none_iff hclassed]
  refine ⟨w', by rw [archiveFields, if_neg hkind, hw'], harchived, hskippedKeys,
    fun name hnone => ?_, ?_, ?_, fun spec hmem honly hnew hnew' => ?_⟩
  · have hempty : ∀ {α : Type} (answer : FieldSpec → Option α), lastFor answer name specs = none :=
      fun answer => lastFor_eq_none_iff.2 fun spec hspec hname => absurd hname (hnone spec hspec)
    rw [hsubgraphs, hskipped, hempty, hempty]
    exact ⟨rfl, rfl⟩
  · rintro before spec after rfl harchives hafter
    exact exists_record (hsubgraphs _) harchives hafter
  · rintro before spec after rfl hnot hafter
    exact exists_reason hclassed (hskipped _) hnot hafter
  · -- All specifications of the class are this one, so they agree about it.
    have hsame : ∀ P : FieldSpec → Prop,
        (∃ other ∈ specs, other.className = spec.className ∧ P other) ↔ P spec := by
      intro P
      constructor
      · rintro ⟨other, hother, hname, hP⟩
        exact honly other hother hname ▸ hP
      · exact fun hP => ⟨spec, hmem, rfl, hP⟩
    rw [harchived, hskippedKeys, hsame, hsame]
    by_cases harchives : m.Archives spec
    · obtain ⟨before, after, rfl, hlast⟩ := exists_last hmem
      obtain ⟨s, -, hs⟩ := exists_record (hsubgraphs _) harchives fun later hlater hname => by
        have hin : later ∈ before ++ spec :: after := by simp [hlater]
        exact absurd (honly later hin hname ▸ hlater) hlast
      exact .inl ⟨.inr harchives, by simp [hnew', harchives], s, hs⟩
    · exact .inr ⟨by simp [hnew, harchives], .inr harchives⟩

/-! ### Classes that are named several times -/

/-- A machine with two initialized classes on the boot loader, one with two static fields and one
with one. -/
def sharedMachine : Machine :=
  let pair := Machine.new.addClass
    { name := "D", space := "", superclass := some Machine.objectClass, loader := some .boot
      instanceVariables := [], slotCount := 0, statics := ⟨[("x", .int 1), ("y", .int 2)]⟩
      initializer := .none, state := .ready }
  (pair.2.addClass
    { name := "C", space := "", superclass := some Machine.objectClass, loader := some .boot
      instanceVariables := [], slotCount := 0, statics := ⟨[("a", .int 3)]⟩
      initializer := .none, state := .ready }).2

/-- A writer that has gathered nothing. -/
def blankWriter : Writer := new staticKind ⟨"1", "release", "vm", 21⟩ 42 0

/-- Each class is named once. -/
def singleSpecs : List FieldSpec := [⟨"D", ["x", "y"]⟩, ⟨"C", ["a", "b"]⟩]

theorem archiveFields_sorts_singleSpecs :
    sharedMachine.Classed ∧ blankWriter.kind ≠ dynamicKind ∧
      ∃ w', blankWriter.archiveFields sharedMachine singleSpecs = (.ok (), w') ∧
        (("D" : Text) ∈ w'.archived ∧ ("D" : Text) ∉ w'.skipped.keys ∧
          ∃ s, w'.subgraphs.get? "D" = some s ∧
            (s.fields.getD []).map FieldRecord.name = (["x", "y"] : List Text)) ∧
        ("C" : Text) ∉ w'.archived ∧ ("C" : Text) ∈ w'.skipped.keys := by
  have hclassed : sharedMachine.Classed := by decide
  have hkind : blankWriter.kind ≠ dynamicKind := by decide
  obtain ⟨w', hw', hsorts⟩ := archiveFields_sorts hclassed blankWriter hkind singleSpecs
  have harchives : sharedMachine.Archives ⟨"D", ["x", "y"]⟩ :=
    Machine.confined_of_collectSubgraph (s := _) rfl
  have hrefused : ¬ sharedMachine.Archives ⟨"C", ["a", "b"]⟩ := by
    rw [← Machine.collected?_eq_none_iff]
    rfl
  have honce : ∀ spec ∈ singleSpecs, ∀ other ∈ singleSpecs, other.className = spec.className →
      other = spec := by decide
  have hD := hsorts.once ⟨"D", ["x", "y"]⟩ (by decide) (honce _ (by decide)) (by decide) (by decide)
  have hC := hsorts.once ⟨"C", ["a", "b"]⟩ (by decide) (honce _ (by decide)) (by decide) (by decide)
  refine ⟨hclassed, hkind, w', hw', hD.resolve_right fun h => h.1 ?_, hC.resolve_left fun h => ?_⟩
  · exact (hsorts.archived "D").2 (.inr ⟨_, by decide, rfl, harchives⟩)
  · exact h.2.1 ((hsorts.skipped "C").2 (.inr ⟨_, by decide, rfl, hrefused⟩))

/-- Each class is named twice, and of the second one a field that it does not have. -/
def repeatedSpecs : List FieldSpec := [⟨"D", ["x"]⟩, ⟨"D", ["y"]⟩, ⟨"C", ["a"]⟩, ⟨"C", ["b"]⟩]

/-- **A class is archived and skipped at once**, and of the other one a field is lost. -/
theorem archived_and_skipped_repeatedSpecs :
    sharedMachine.Classed ∧ blankWriter.kind = staticKind ∧
      (blankWriter.archiveFields sharedMachine repeatedSpecs).1 = .ok () ∧
      ("C" : Text) ∈ (blankWriter.archiveFields sharedMachine repeatedSpecs).2.archived ∧
      ("C" : Text) ∈ (blankWriter.archiveFields sharedMachine repeatedSpecs).2.skipped.keys ∧
      ∃ s, (blankWriter.archiveFields sharedMachine repeatedSpecs).2.subgraphs.get? "D" = some s ∧
        (s.fields.getD []).map FieldRecord.name = (["y"] : List Text) := by
  refine ⟨by decide, rfl, rfl, by decide, by decide, _, rfl, by decide⟩

end Writer

end ClassSharing
