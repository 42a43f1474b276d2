import ClassSharing.Proofs.Image.Collect

/-!
# Graphs that leave the boot loader

An object is examined once, when it is found, and not when its contents are archived. So where
collecting stops depends on the order, but whether it stops does not: the objects that are examined
are reachable, and if none of them is refused then all reachable ones have been examined, because
the found objects are closed then.

Every failure is given with its reason (`Machine.Refuses`), and each reason denies one of the
conditions under which there is a subgraph. An object without a class is the only one whose reason
is a panic.

## Main definitions

* `Machine.Classed`: every object that is referred to has a class
* `Machine.Confined`: the graph behind the fields stays inside the boot loader
* `Machine.Refuses`: the reasons for which there is no subgraph, with their failures

## Main results

* `Machine.refuses_of_collectSubgraph`: every failure has a reason
* `Machine.Confined.exists_collectSubgraph`: every confined graph has a subgraph
* `Machine.collectSubgraph_decides`: collecting decides whether a graph is confined
-/

namespace ClassSharing

open Image

/-- A failure as it is seen from a field. -/
def Failure.inField (name : Text) : Failure → Failure
  | .fault f => .fault (.within (.field name) f)
  | .panic p => .panic p

namespace Machine

/-! ### Conditions -/

/-- If a value is an object, then the object has a class. -/
def ClassedValue (m : Machine) : Value → Prop
  | .obj o => (m.objectAt o).classId ≠ none
  | _ => True

instance (m : Machine) : DecidablePred m.ClassedValue := fun v =>
  match v with
  | .obj o => inferInstanceAs (Decidable ((m.objectAt o).classId ≠ none))
  | .nil | .int _ | .bool _ | .str _ => .isTrue trivial

/-- Every object that is referred to has a class. -/
structure Classed (m : Machine) : Prop where
  statics : ∀ k ∈ m.classes.toList, ∀ field ∈ k.statics.fields, m.ClassedValue field.2
  contents : ∀ x ∈ m.objects.toList, ∀ v ∈ x.contents, m.ClassedValue v

instance (m : Machine) : Decidable m.Classed :=
  decidable_of_iff ((∀ k ∈ m.classes.toList, ∀ field ∈ k.statics.fields, m.ClassedValue field.2) ∧
      ∀ x ∈ m.objects.toList, ∀ v ∈ x.contents, m.ClassedValue v)
    ⟨fun h => ⟨h.1, h.2⟩, fun h => ⟨h.statics, h.contents⟩⟩

/-- **The graph behind some static fields of a class stays inside the boot loader.** -/
structure Confined (m : Machine) (spec : FieldSpec) (c : ClassId) : Prop where
  registered : m.lookup spec.className = some c
  ready : m.stateOf c = .ready
  loader : (m.classAt c).loader = some .boot
  declared : ∀ name ∈ spec.fields, (m.classAt c).statics.has name = true
  onBoot : ∀ o, m.Reaches (spec.fields.map (m.static c)) o → m.OnBoot o

/-- An object is refused with a failure. -/
inductive Refusal (m : Machine) (o : ObjectId) : Failure → Prop where
  | missing (h : (m.objectAt o).classId = none) : Refusal m o (.panic .missingObject)
  | foreign {c : ClassId} (hc : (m.objectAt o).classId = some c)
      (hloader : (m.classAt c).loader ≠ some .boot) :
      Refusal m o (.fault (.of (.archiving (.foreignReference (m.classAt c).fullName
        (Collector.loaderText (m.classAt c).loader)))))

/-- The reasons for which there is no subgraph of some static fields, with their failures. -/
inductive Refuses (m : Machine) (spec : FieldSpec) : Failure → Prop where
  | unregistered (h : m.lookup spec.className = none) :
      Refuses m spec (.fault (.of (.classNotFound spec.className)))
  | unready {c : ClassId} (hc : m.lookup spec.className = some c) (h : m.stateOf c ≠ .ready) :
      Refuses m spec (.fault (.of (.archiving (.uninitialized spec.className))))
  | offBoot {c : ClassId} (hc : m.lookup spec.className = some c)
      (h : (m.classAt c).loader ≠ some .boot) :
      Refuses m spec (.fault (.of (.archiving (.notOnBootLoader spec.className))))
  | undeclared {c : ClassId} {name : Text} (hc : m.lookup spec.className = some c)
      (hname : name ∈ spec.fields) (h : (m.classAt c).statics.has name = false) :
      Refuses m spec (.fault (.of (.archiving (.noStaticField spec.className name))))
  | field {c : ClassId} {name : Text} {o : ObjectId} {e : Failure}
      (hc : m.lookup spec.className = some c) (hname : name ∈ spec.fields)
      (ho : m.static c name = .obj o) (he : m.Refusal o e) : Refuses m spec (e.inField name)
  | object {c : ClassId} {o : ObjectId} {e : Failure} (hc : m.lookup spec.className = some c)
      (ho : m.Reaches (spec.fields.map (m.static c)) o) (he : m.Refusal o e) : Refuses m spec e

variable {m : Machine} {spec : FieldSpec} {c : ClassId} {o : ObjectId} {e : Failure}

theorem Refusal.not_onBoot (h : m.Refusal o e) : ¬ m.OnBoot o := by
  rintro ⟨c, hc, hloader⟩
  cases h with
  | missing hnone => cases hc.symm.trans hnone
  | foreign hc' hforeign =>
    obtain rfl := Option.some.inj (hc.symm.trans hc')
    exact hforeign hloader

/-- Each reason denies one of the conditions. -/
theorem Refuses.not_confined (h : m.Refuses spec e) (hc : m.Confined spec c) : False := by
  have hsame : ∀ {c'}, m.lookup spec.className = some c' → c' = c := fun h' =>
    Option.some.inj (h'.symm.trans hc.registered)
  cases h with
  | unregistered h => cases h.symm.trans hc.registered
  | unready hlookup h => exact h (hsame hlookup ▸ hc.ready)
  | offBoot hlookup h => exact h (hsame hlookup ▸ hc.loader)
  | undeclared hlookup hname h =>
    obtain rfl := hsame hlookup
    rw [hc.declared _ hname] at h
    cases h
  | field hlookup hname ho he =>
    obtain rfl := hsame hlookup
    exact he.not_onBoot (hc.onBoot _ (.root (ho ▸ List.mem_map_of_mem hname)))
  | object hlookup ho he =>
    obtain rfl := hsame hlookup
    exact he.not_onBoot (hc.onBoot _ ho)

theorem Refusal.eq_missingObject {p : Panic} (h : m.Refusal o (.panic p)) : p = .missingObject := by
  cases h with
  | missing => rfl

/-- The only panic among the reasons. -/
theorem Refuses.eq_missingObject {p : Panic} (h : m.Refuses spec (.panic p)) :
    p = .missingObject := by
  generalize hp : Failure.panic p = e at h
  cases h with
  | unregistered => cases hp
  | unready => cases hp
  | offBoot => cases hp
  | undeclared => cases hp
  | object _ _ he => exact (hp ▸ he).eq_missingObject
  | @field _ _ _ e' _ _ _ he =>
    cases e' with
    | fault f => cases hp
    | panic p' => exact (Failure.panic.inj hp) ▸ he.eq_missingObject

end Machine

/-! ### Failures of collecting -/

namespace Collector

variable {m : Machine} {col : Collector} {e : Failure}

theorem refusal_of_record {v : Value} (h : col.record m v = .error e) :
    ∃ o, v = .obj o ∧ m.Refusal o e := by
  cases v with
  | obj o =>
    refine ⟨o, rfl, ?_⟩
    rw [record, recordObject] at h
    split at h
    · cases h
    · split at h
      · rename_i hnone
        obtain rfl := Except.error.inj h
        exact .missing hnone
      · rename_i c hc
        simp only at h
        split at h
        · rename_i hloader
          obtain rfl := Except.error.inj h
          exact .foreign hc hloader
        · cases h
  | nil => cases h
  | int n => cases h
  | bool b => cases h
  | str s => cases h

theorem refusal_of_recordAll {values : List Value} (h : col.recordAll m values = .error e) :
    ∃ o, .obj o ∈ values ∧ m.Refusal o e := by
  induction values generalizing col with
  | nil => cases h
  | cons v rest ih =>
    rw [recordAll] at h
    rcases exceptBind_eq_error_iff.1 h with h | ⟨⟨r, col₁⟩, -, h⟩
    · obtain ⟨o, rfl, ho⟩ := refusal_of_record h
      exact ⟨o, List.mem_cons_self, ho⟩
    · rcases exceptBind_eq_error_iff.1 h with h | ⟨_, -, h⟩
      · obtain ⟨o, hmem, ho⟩ := ih h
        exact ⟨o, List.mem_cons_of_mem _ hmem, ho⟩
      · cases h

theorem refusal_of_recordContents {o : ObjectId} (h : col.recordContents m o = .error e) :
    ∃ p, .obj p ∈ (m.objectAt o).contents ∧ m.Refusal p e := by
  rcases exceptBind_eq_error_iff.1 h with h | ⟨⟨slots, col₁⟩, -, h⟩
  · obtain ⟨p, hmem, hp⟩ := refusal_of_recordAll h
    exact ⟨p, List.mem_append_left _ hmem, hp⟩
  · rcases exceptBind_eq_error_iff.1 h with h | ⟨_, -, h⟩
    · obtain ⟨p, hmem, hp⟩ := refusal_of_recordAll h
      exact ⟨p, List.mem_append_right _ hmem, hp⟩
    · cases h

/-- **The loop over the found objects refuses nothing but what can be reached.** -/
theorem refusal_of_recordObjects {roots : List Value} {fuel i : Nat} (hvalid : col.Valid m)
    (hreach : ∀ o ∈ col.objects, m.Reaches roots o) (h : recordObjects m fuel i col = .error e) :
    ∃ o, m.Reaches roots o ∧ m.Refusal o e := by
  induction fuel generalizing i col with
  | zero => cases h
  | succ fuel ih =>
    rw [recordObjects] at h
    split at h
    · cases h
    · rename_i o hget
      have ho : m.Reaches roots o := hreach o (List.mem_of_getElem? hget)
      rcases exceptBind_eq_error_iff.1 h with h | ⟨⟨r, col₁⟩, hr, h⟩
      · obtain ⟨p, hmem, hp⟩ := refusal_of_recordContents h
        exact ⟨p, .step ho hmem, hp⟩
      · obtain ⟨hgrows, -⟩ := grows_of_recordContents hvalid hr
        have hnext : ∀ p ∈ col₁.objects, m.Reaches roots p := fun p hp =>
          (hgrows.sought p hp).elim (hreach p) (.step ho)
        rcases exceptBind_eq_error_iff.1 h with h | ⟨_, -, h⟩
        · exact ih hgrows.valid hnext h
        · cases h

theorem refuses_of_recordFields {spec : FieldSpec} {c : ClassId} {names : List Text}
    (hc : m.lookup spec.className = some c) (hsub : names ⊆ spec.fields)
    (h : recordFields m c spec.className col names = .error e) : m.Refuses spec e := by
  induction names generalizing col with
  | nil => cases h
  | cons name rest ih =>
    obtain ⟨hname, hrest⟩ := List.cons_subset.1 hsub
    rw [recordFields] at h
    split at h
    · rename_i hundeclared
      obtain rfl := Except.error.inj h
      exact .undeclared hc hname (by simpa using hundeclared)
    · split at h
      · rename_i fault hrecord
        obtain rfl := Except.error.inj h
        obtain ⟨o, ho, hrefusal⟩ := refusal_of_record hrecord
        exact .field hc hname ho hrefusal
      · rename_i p hrecord
        obtain rfl := Except.error.inj h
        obtain ⟨o, ho, hrefusal⟩ := refusal_of_record hrecord
        exact .field hc hname ho hrefusal
      · rcases exceptBind_eq_error_iff.1 h with h | ⟨_, -, h⟩
        · exact ih hrest h
        · cases h

theorem declared_of_recordFields {c : ClassId} {className : Text} {names : List Text}
    {fs : List FieldRecord} {col' : Collector}
    (h : recordFields m c className col names = .ok (fs, col')) :
    ∀ name ∈ names, (m.classAt c).statics.has name = true := by
  induction names generalizing col fs with
  | nil => exact List.forall_mem_nil _
  | cons name rest ih =>
    rw [recordFields] at h
    split at h
    · cases h
    · rename_i hdeclared
      split at h
      · cases h
      · cases h
      · obtain ⟨⟨fs', col₂⟩, hfs, h⟩ := exceptBind_eq_ok_iff.1 h
        obtain ⟨-, rfl⟩ := Prod.mk.inj (Except.ok.inj h)
        exact List.forall_mem_cons.2 ⟨by simpa using hdeclared, ih hfs⟩

end Collector

namespace Machine

variable {m : Machine} {spec : FieldSpec} {c : ClassId} {o : ObjectId} {e : Failure}

/-! ### Reasons -/

theorem refuses_of_archivableClass {fault : Fault}
    (h : m.archivableClass spec.className = .error fault) : m.Refuses spec (.fault fault) := by
  rw [archivableClass] at h
  split at h
  · rename_i hnone
    obtain rfl := Except.error.inj h
    exact .unregistered hnone
  · rename_i c hc
    split at h
    · rename_i hready
      obtain rfl := Except.error.inj h
      refine .unready hc fun hstate => ?_
      rw [isReady_iff.2 hstate] at hready
      cases hready
    · split at h
      · rename_i hloader
        obtain rfl := Except.error.inj h
        exact .offBoot hc hloader
      · cases h

/-- **Every failure of collecting has its reason.** -/
theorem refuses_of_collectSubgraph (h : m.collectSubgraph spec = .error e) : m.Refuses spec e := by
  rw [collectSubgraph] at h
  split at h
  · rename_i fault hfault
    obtain rfl := Except.error.inj h
    exact refuses_of_archivableClass hfault
  · rename_i c hc
    have hlookup := lookup_of_archivableClass hc
    rcases exceptBind_eq_error_iff.1 h with h | ⟨⟨fields, met⟩, hfields, h⟩
    · exact Collector.refuses_of_recordFields hlookup (List.Subset.refl _) h
    · obtain ⟨hgrows, -⟩ :=
        Collector.grows_of_recordFields (Collector.valid_start m (m.className c)) hfields
      have hreach : ∀ o ∈ met.objects, m.Reaches (spec.fields.map (m.static c)) o := fun o ho =>
        .root ((hgrows.sought o ho).resolve_left List.not_mem_nil)
      rcases exceptBind_eq_error_iff.1 h with h | ⟨_, -, h⟩
      · obtain ⟨o, ho, hrefusal⟩ := Collector.refusal_of_recordObjects hgrows.valid hreach h
        exact .object hlookup ho hrefusal
      · cases h

/-- The graph of every subgraph is confined. -/
theorem confined_of_collectSubgraph {s : Subgraph} (h : m.collectSubgraph spec = .ok s) :
    ∃ c, m.Confined spec c := by
  obtain ⟨c, fields, met, objects, final, hcollects, -⟩ := exists_collects h
  obtain ⟨hlookup, hready, hloader⟩ := archivableClass_eq_ok_iff.1 hcollects.archivable
  refine ⟨c, hlookup, hready, hloader, Collector.declared_of_recordFields hcollects.fields, ?_⟩
  intro o ho
  exact hcollects.completes.valid.onBoot o ((hcollects.collected.mem_found o).2 ho)

/-- **Every confined graph has a subgraph**, because every reason for a failure denies that. -/
theorem Confined.exists_collectSubgraph (h : m.Confined spec c) :
    ∃ s, m.collectSubgraph spec = .ok s := by
  cases hcollect : m.collectSubgraph spec with
  | ok s => exact ⟨s, rfl⟩
  | error e => exact ((refuses_of_collectSubgraph hcollect).not_confined h).elim

/-! ### Kinds -/

/-- What a static field refers to is kept in the field. -/
theorem mem_of_valueIn_eq_obj {name : Text} {fields : List (Text × Value)}
    (h : Statics.valueIn name fields = .obj o) : (name, .obj o) ∈ fields := by
  induction fields with
  | nil => cases h
  | cons field rest ih =>
    obtain ⟨k, v⟩ := field
    rw [Statics.valueIn] at h
    split at h
    · rename_i hk
      exact h ▸ hk ▸ List.mem_cons_self
    · exact List.mem_cons_of_mem _ (ih h)

theorem Classed.static (h : m.Classed) {name : Text} (ho : m.static c name = .obj o) :
    (m.objectAt o).classId ≠ none := by
  have hmem := mem_of_valueIn_eq_obj ho
  rw [classAt] at hmem
  cases hc : m.classes[c]? with
  | none =>
    rw [hc] at hmem
    cases hmem
  | some k =>
    rw [hc] at hmem
    exact h.statics k (Array.mem_toList_iff.2 (Array.mem_of_getElem? hc)) _ hmem

theorem Classed.content (h : m.Classed) {p : ObjectId} (hp : .obj p ∈ (m.objectAt o).contents) :
    (m.objectAt p).classId ≠ none := by
  rw [objectAt] at hp
  cases ho : m.objects[o]? with
  | none =>
    rw [ho] at hp
    cases hp
  | some x =>
    rw [ho] at hp
    exact h.contents x (Array.mem_toList_iff.2 (Array.mem_of_getElem? ho)) _ hp

theorem Classed.reaches (h : m.Classed) {names : List Text}
    (ho : m.Reaches (names.map (m.static c)) o) : (m.objectAt o).classId ≠ none := by
  cases ho with
  | root hmem =>
    obtain ⟨name, -, hname⟩ := List.mem_map.1 hmem
    exact h.static hname
  | step _ hmem => exact h.content hmem

/-- The kind of fault with which a specification is refused. -/
def refusalKind (m : Machine) (spec : FieldSpec) : FaultKind :=
  if m.lookup spec.className = none then .classNotFound else .notArchivable

theorem refusalKind_of_lookup (h : m.lookup spec.className = some c) :
    m.refusalKind spec = .notArchivable := by
  rw [refusalKind, h, if_neg (Option.some_ne_none c)]

/-- An object that has a class is refused because of the loader of its class. -/
theorem Refusal.kinds (h : m.Refusal o e) (ho : (m.objectAt o).classId ≠ none) :
    ∃ fault, e = .fault fault ∧ fault.kinds = [.notArchivable] := by
  cases h with
  | missing hnone => exact absurd hnone ho
  | foreign => exact ⟨_, rfl, rfl⟩

/-- **The kinds of the reasons.** -/
theorem Refuses.kinds (hclassed : m.Classed) (h : m.Refuses spec e) :
    ∃ fault, e = .fault fault ∧ fault.kinds = [m.refusalKind spec] := by
  cases h with
  | unregistered h =>
    rw [refusalKind, if_pos h]
    exact ⟨_, rfl, rfl⟩
  | unready hc =>
    rw [refusalKind_of_lookup hc]
    exact ⟨_, rfl, rfl⟩
  | offBoot hc =>
    rw [refusalKind_of_lookup hc]
    exact ⟨_, rfl, rfl⟩
  | undeclared hc =>
    rw [refusalKind_of_lookup hc]
    exact ⟨_, rfl, rfl⟩
  | field hc hname ho he =>
    rw [refusalKind_of_lookup hc]
    obtain ⟨fault, rfl, hkinds⟩ := he.kinds (hclassed.static ho)
    exact ⟨.within _ fault, rfl, hkinds⟩
  | object hc ho he =>
    rw [refusalKind_of_lookup hc]
    exact he.kinds (hclassed.reaches ho)

/-- **Collecting decides whether a graph is confined**: it gives a subgraph if and only if the class
is registered, ready and on the boot loader, declares the fields, and every object that can be
reached from them has a class on the boot loader. Otherwise it fails for a reason that denies one of
these, with a fault of one kind: the class is not registered, or it cannot be archived. Collecting
reads the machine and gives none back, so there is no other machine afterwards. -/
theorem collectSubgraph_decides (m : Machine) (hclassed : m.Classed) (spec : FieldSpec) :
    ((∃ s, m.collectSubgraph spec = .ok s) ↔ ∃ c, m.Confined spec c) ∧
      ∀ e, m.collectSubgraph spec = .error e → m.Refuses spec e ∧
        ∃ fault, e = .fault fault ∧
          fault.kinds = [if m.lookup spec.className = none then .classNotFound
            else .notArchivable] := by
  refine ⟨⟨fun ⟨s, hs⟩ => confined_of_collectSubgraph hs, fun ⟨c, hc⟩ =>
    hc.exists_collectSubgraph⟩, fun e he => ?_⟩
  have hreason := refuses_of_collectSubgraph he
  exact ⟨hreason, hreason.kinds hclassed⟩

/-! ### A guest behind a cycle -/

/-- A class whose static field leads through an array that holds itself to an object of a class on
another loader. -/
def guestMachine : Machine :=
  let pool := Machine.new.addClass
    { name := "Pool", space := "app", superclass := some objectClass, loader := some .boot
      instanceVariables := [], slotCount := 0, statics := ⟨[("head", .obj 0)]⟩
      initializer := .none, state := .ready }
  let guest := pool.2.addClass
    { name := "Guest", space := "app", superclass := some objectClass, loader := some .system
      instanceVariables := [], slotCount := 0, statics := .none, initializer := .none
      state := .ready }
  { guest.2 with
    objects := #[⟨some 1, [], some [.obj 0, .obj 1]⟩, ⟨some 1, [], some [.int 4, .obj 2]⟩,
      ⟨some 3, [], none⟩] }

theorem collectSubgraph_decides_guestMachine :
    guestMachine.Classed ∧
      guestMachine.collectSubgraph ⟨"app::Pool", ["head"]⟩ = .error (.fault
        (.of (.archiving (.foreignReference "app::Guest" "system")))) ∧
      ((∃ s, guestMachine.collectSubgraph ⟨"app::Pool", ["head"]⟩ = .ok s) ↔
        ∃ c, guestMachine.Confined ⟨"app::Pool", ["head"]⟩ c) ∧
      guestMachine.Refuses ⟨"app::Pool", ["head"]⟩ (.fault
        (.of (.archiving (.foreignReference "app::Guest" "system")))) := by
  have hclassed : guestMachine.Classed := by decide
  have herror : guestMachine.collectSubgraph ⟨"app::Pool", ["head"]⟩ = .error (.fault
      (.of (.archiving (.foreignReference "app::Guest" "system")))) := rfl
  obtain ⟨hiff, hfails⟩ := collectSubgraph_decides guestMachine hclassed ⟨"app::Pool", ["head"]⟩
  exact ⟨hclassed, herror, hiff, (hfails _ herror).1⟩

end Machine

end ClassSharing
