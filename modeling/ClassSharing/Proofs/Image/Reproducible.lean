import ClassSharing.Proofs.Image.Refusal
import ClassSharing.Proofs.Image.Writer

/-!
# Reproducible archives

The bytes of an archive depend on what a writer was given and not on the order or the portions in
which it was given. Modules are sorted by names that are distinct, so one order is left; class
names are sorted and repeated ones dropped; and the subgraphs are in a table, which is its look-ups.

Collecting a subgraph reads the machine and nothing of the writer, so each specification has its
outcome whatever came before. One outcome ends the writing: an object without a class is a panic,
and then there are no bytes. It is the only panic there is, so even then both writers agree.

## Main definitions

* `Writer.written`: the bytes after calls, or the panic of the first call that panics
* `Writer.Call.Reads`: a call reads no other machine

## Main results

* `Machine.panicsOnMissing_collectSubgraph`: the one panic of collecting
* `Writer.written_of_not_panics`, `Writer.written_of_panics`: when calls end in bytes
* `Writer.gathered_eq_of_perm`, `Writer.sortedModules_eq_of_perm`: what is gathered is in one order
* `Writer.written_eq_written`: the same contents, the same bytes
-/

namespace ClassSharing

open Image

/-! ### The panic of collecting -/

/-- A computation that panics only at an object that is not there. -/
def PanicsOnMissing {α : Type} (x : Except Failure α) : Prop :=
  ∀ p, x = .error (.panic p) → p = .missingObject

/-- **Collecting panics only at an object that is not there**: no other reason is a panic. -/
theorem Machine.panicsOnMissing_collectSubgraph (m : Machine) (spec : FieldSpec) :
    PanicsOnMissing (m.collectSubgraph spec) := fun _ h =>
  (refuses_of_collectSubgraph h).eq_missingObject

namespace Writer

/-! ### What calls end in -/

/-- The bytes that a writer writes after calls, or the panic of the first call that panics. -/
def written (w : Writer) : List Call → Except Panic Bytes
  | [] => .ok w.encode
  | .archiveFields m named specs :: rest =>
    match (w.archiveFields m specs).1 with
    | .error (.panic p) => .error p
    | _ => written (w.call (.archiveFields m named specs)) rest
  | c :: rest => written (w.call c) rest

namespace Call

/-- The specifications of the fields that a call archives. -/
def specs : Call → List FieldSpec
  | archiveFields _ _ specs => specs
  | _ => []

/-- A call reads no other machine. -/
def Reads (m : Machine) : Call → Prop
  | archiveFields m' _ _ => m' = m
  | _ => True

end Call

/-- Collecting a specification panics. -/
def Panics (m : Machine) (spec : FieldSpec) : Prop :=
  m.collectSubgraph spec = .error (.panic .missingObject)

theorem archiveEach_of_panics {m : Machine} {specs : List FieldSpec}
    (h : ∃ spec ∈ specs, Panics m spec) (w : Writer) :
    (archiveEach m w specs).1 = .error .missingObject := by
  induction specs generalizing w with
  | nil => simp at h
  | cons spec rest ih =>
    rw [List.exists_mem_cons_iff] at h
    rw [archiveEach]
    split
    · rename_i s hs
      refine ih (h.resolve_left ?_) _
      simp [Panics, hs]
    · rename_i f hf
      refine ih (h.resolve_left ?_) _
      simp [Panics, hf]
    · rename_i p hp
      rw [m.panicsOnMissing_collectSubgraph spec p hp]

theorem archiveEach_of_not_panics {m : Machine} {specs : List FieldSpec}
    (h : ∀ spec ∈ specs, ¬ Panics m spec) (w : Writer) : (archiveEach m w specs).1 = .ok () := by
  induction specs generalizing w with
  | nil => rfl
  | cons spec rest ih =>
    obtain ⟨hspec, hrest⟩ := List.forall_mem_cons.1 h
    rw [archiveEach]
    split
    · exact ih hrest _
    · exact ih hrest _
    · rename_i p hp
      rw [m.panicsOnMissing_collectSubgraph spec p hp] at hp
      exact absurd hp hspec

theorem archiveFields_outcome {w : Writer} (hkind : w.kind ≠ dynamicKind) (m : Machine)
    (specs : List FieldSpec) :
    (w.archiveFields m specs).1 = (archiveEach m w specs).1.mapError .panic := by
  rw [archiveFields, if_neg hkind]
  split
  · rename_i heq
    rw [heq]
    rfl
  · rename_i heq
    rw [heq]
    rfl

theorem kind_call (w : Writer) (c : Call) : (w.call c).kind = w.kind := by
  obtain ⟨skipped, heq⟩ := call_eq w c
  rw [heq]

section Machine

variable {m : Machine} {w : Writer} {calls : List Call}

/-- A layer is written whatever the machine holds. -/
theorem written_of_dynamic (hkind : w.kind = dynamicKind) (calls : List Call) :
    w.written calls = .ok (w.callAll calls).encode := by
  induction calls generalizing w with
  | nil => rfl
  | cons c rest ih =>
    have hrest := ih ((kind_call w c).trans hkind)
    cases c with
    | setBaseChecksum sum => exact hrest
    | addModules modules => exact hrest
    | addClasses names => exact hrest
    | archiveFields m named specs =>
      have hfault : (w.archiveFields m specs).1 = .error (.fault (.of .heapInDynamic)) := by
        rw [archiveFields, if_pos hkind]
      rw [written, hfault]
      exact hrest

/-- **Calls end in bytes** if no specification panics, -/
theorem written_of_not_panics (hreads : ∀ c ∈ calls, c.Reads m)
    (h : ∀ spec ∈ calls.flatMap Call.specs, ¬ Panics m spec) :
    w.written calls = .ok (w.callAll calls).encode := by
  by_cases hkind : w.kind = dynamicKind
  · exact written_of_dynamic hkind calls
  · induction calls generalizing w with
    | nil => rfl
    | cons c rest ih =>
      obtain ⟨hread, hreads⟩ := List.forall_mem_cons.1 hreads
      rw [List.flatMap_cons, List.forall_mem_append] at h
      have hrest := @ih (w.call c) hreads h.2 (by rwa [kind_call])
      cases c with
      | setBaseChecksum sum => exact hrest
      | addModules modules => exact hrest
      | addClasses names => exact hrest
      | archiveFields m' named specs =>
        obtain rfl : m' = m := hread
        have hnone : ∀ spec ∈ specs, ¬ Panics m' spec := h.1
        rw [written, archiveFields_outcome hkind, archiveEach_of_not_panics hnone]
        exact hrest

/-- and in the one panic there is if some specification does. -/
theorem written_of_panics (hkind : w.kind ≠ dynamicKind) (hreads : ∀ c ∈ calls, c.Reads m)
    (h : ∃ spec ∈ calls.flatMap Call.specs, Panics m spec) :
    w.written calls = .error .missingObject := by
  induction calls generalizing w with
  | nil => simp at h
  | cons c rest ih =>
    obtain ⟨hread, hreads⟩ := List.forall_mem_cons.1 hreads
    rw [List.flatMap_cons] at h
    have hrest := @ih (w.call c) (by rwa [kind_call]) hreads
    cases c with
    | setBaseChecksum sum => exact hrest h
    | addModules modules => exact hrest h
    | addClasses names => exact hrest h
    | archiveFields m' named specs =>
      obtain rfl : m' = m := hread
      rw [written, archiveFields_outcome hkind]
      by_cases hfirst : ∃ spec ∈ specs, Panics m' spec
      · rw [archiveEach_of_panics hfirst]
        rfl
      · have hnone : ∀ spec ∈ specs, ¬ Panics m' spec :=
          fun spec hspec hpanics => hfirst ⟨spec, hspec, hpanics⟩
        rw [archiveEach_of_not_panics hnone]
        obtain ⟨spec, hspec, hpanics⟩ := h
        rcases List.mem_append.1 hspec with hspec | hspec
        · exact absurd hpanics (hnone spec hspec)
        · exact hrest ⟨spec, hspec, hpanics⟩

end Machine

/-! ### One order is left -/

/-- The subgraph of a specification under the name of its class, if there is one. -/
def collected? (m : Machine) (spec : FieldSpec) : Option (Text × Subgraph) :=
  (m.collectSubgraph spec).toOption.map (spec.className, ·)

theorem collectEach_eq_filterMap {m : Machine} {specs : List FieldSpec}
    (h : ∀ spec ∈ specs, ¬ Panics m spec) :
    Call.collectEach m specs = specs.filterMap (collected? m) := by
  induction specs with
  | nil => rfl
  | cons spec rest ih =>
    obtain ⟨hspec, hrest⟩ := List.forall_mem_cons.1 h
    rw [Call.collectEach, List.filterMap_cons, ih hrest, collected?]
    split
    · rename_i s hs
      rw [hs]
      rfl
    · rename_i f hf
      rw [hf]
      rfl
    · rename_i p hp
      rw [m.panicsOnMissing_collectSubgraph spec p hp] at hp
      exact absurd hp hspec

/-- **Portions do not matter**: calls collect the subgraphs of all their specifications. -/
theorem subgraphs_eq_filterMap {m : Machine} {calls : List Call} (hreads : ∀ c ∈ calls, c.Reads m)
    (h : ∀ spec ∈ calls.flatMap Call.specs, ¬ Panics m spec) :
    calls.flatMap Call.subgraphs = (calls.flatMap Call.specs).filterMap (collected? m) := by
  induction calls with
  | nil => rfl
  | cons c rest ih =>
    obtain ⟨hread, hreads⟩ := List.forall_mem_cons.1 hreads
    rw [List.flatMap_cons, List.forall_mem_append] at h
    rw [List.flatMap_cons, List.flatMap_cons, List.filterMap_append, ih hreads h.2]
    congr 1
    cases c with
    | setBaseChecksum sum => rfl
    | addModules modules => rfl
    | addClasses names => rfl
    | archiveFields m' named specs =>
      obtain rfl : m' = m := hread
      exact collectEach_eq_filterMap h.1

/-- Items that keep their names keep them in order. -/
theorem map_filterMap_sublist {α β γ : Type} {f : α → Option β} {g : α → γ} {h : β → γ}
    (hf : ∀ a b, f a = some b → h b = g a) (xs : List α) :
    ((xs.filterMap f).map h).Sublist (xs.map g) := by
  induction xs with
  | nil => exact .slnil
  | cons a rest ih =>
    rw [List.filterMap_cons, List.map_cons]
    cases hb : f a with
    | none => exact ih.cons _
    | some b =>
      rw [List.map_cons, hf a b hb]
      exact ih.cons_cons _

theorem name_of_collected? {m : Machine} {spec : FieldSpec} {named : Text × Subgraph}
    (h : collected? m spec = some named) : named.1 = spec.className := by
  obtain ⟨s, -, rfl⟩ := Option.map_eq_some_iff.1 h
  rfl

theorem name_of_moduleRecord? {m : Module} {r : ModuleRecord} (h : moduleRecord? m = some r) :
    r.name = m.name := by
  obtain ⟨kind, -, rfl⟩ := Option.map_eq_some_iff.1 h
  rfl

/-- **The subgraphs** of distinct classes are gathered in any order. -/
theorem gathered_eq_of_perm {m : Machine} {calls calls' : List Call} (kind : UInt8)
    (hreads : ∀ c ∈ calls, c.Reads m) (hreads' : ∀ c ∈ calls', c.Reads m)
    (hspecs : (calls.flatMap Call.specs).Perm (calls'.flatMap Call.specs))
    (hdistinct : ((calls.flatMap Call.specs).map FieldSpec.className).Nodup)
    (h : ∀ spec ∈ calls.flatMap Call.specs, ¬ Panics m spec) :
    gathered kind calls = gathered kind calls' := by
  have h' : ∀ spec ∈ calls'.flatMap Call.specs, ¬ Panics m spec :=
    fun spec hspec => h spec (hspecs.mem_iff.2 hspec)
  rw [gathered, gathered, subgraphs_eq_filterMap hreads h, subgraphs_eq_filterMap hreads' h',
    Table.ofList_eq_of_perm (hspecs.filterMap (collected? m))
      (hdistinct.sublist (map_filterMap_sublist (fun _ _ => name_of_collected?) _))]

/-- **Modules** of distinct names have one ascending order. -/
theorem sortedModules_eq_of_perm {w w' : Writer} (hperm : w.modules.Perm w'.modules)
    (hdistinct : (w.modules.map ModuleRecord.name).Nodup) : w.sortedModules = w'.sortedModules := by
  have hperm' : w.sortedModules.Perm w'.sortedModules :=
    w.sortedModules_perm.trans (hperm.trans w'.sortedModules_perm.symm)
  refine hperm'.eq_of_pairwise (fun a b ha hb hab hba => ?_) w.sortedModules_pairwise
    w'.sortedModules_pairwise
  have hname : a.name = b.name := Text.atMost_antisymm (by simpa [Text.atMost] using hab)
    (by simpa [Text.atMost] using hba)
  have hb' : b ∈ w.sortedModules := hperm'.mem_iff.2 hb
  exact List.inj_on_of_nodup_map hdistinct (w.sortedModules_perm.mem_iff.1 ha)
    (w.sortedModules_perm.mem_iff.1 hb') hname

/-- The modules of calls that are linked to a loader. -/
def linkedModules (calls : List Call) : List Module :=
  (calls.flatMap Call.modules).filter fun m => m.loader.isSome

theorem moduleRecord?_eq_none {m : Module} (h : m.loader.isSome = false) :
    moduleRecord? m = none := by
  rw [moduleRecord?, Option.isSome_eq_false_iff, Option.isNone_iff_eq_none] at *
  rw [h]
  rfl

theorem filterMap_linkedModules (calls : List Call) :
    (linkedModules calls).filterMap moduleRecord?
      = (calls.flatMap Call.modules).filterMap moduleRecord? := by
  rw [linkedModules, List.filterMap_filter]
  refine List.filterMap_congr fun m _ => ?_
  cases h : m.loader.isSome with
  | true => rfl
  | false => exact (moduleRecord?_eq_none h).symm

/-! ### The same bytes -/

/-- What the bytes of an archive depend on. -/
theorem encode_eq_encode {w w' : Writer} (hkind : w.kind = w'.kind) (hbuild : w.build = w'.build)
    (hseed : w.seed = w'.seed) (hbase : w.baseChecksum = w'.baseChecksum)
    (hmodules : w.sortedModules = w'.sortedModules)
    (hclasses : Text.sortedUnique w.classes = Text.sortedUnique w'.classes)
    (hsubgraphs : w.subgraphs = w'.subgraphs) : w.encode = w'.encode := by
  have hdirectory : w.directory = w'.directory := by
    rw [directory, directory, hbuild, hseed, hmodules, hclasses, hsubgraphs]
  rw [encode, encode, header, header, hdirectory, hkind, hbase, hsubgraphs]

/-- **Archives are reproducible.** Two writers of the same kind, build, seed and base checksum are
given, in any calls, the same linked modules of distinct names, the same set of class names and the
same specifications of distinct classes of one machine. They write the same bytes. -/
theorem written_eq_written {kind : UInt8} {build : Build} {seed : Int64} {m : Machine}
    {calls calls' : List Call} (hreads : ∀ c ∈ calls, c.Reads m)
    (hreads' : ∀ c ∈ calls', c.Reads m)
    (hbase : calls.foldl Call.base 0 = calls'.foldl Call.base 0)
    (hmodules : (linkedModules calls).Perm (linkedModules calls'))
    (hnames : ((linkedModules calls).map Module.name).Nodup)
    (hclasses : ∀ name, name ∈ calls.flatMap Call.classes ↔ name ∈ calls'.flatMap Call.classes)
    (hspecs : (calls.flatMap Call.specs).Perm (calls'.flatMap Call.specs))
    (hdistinct : ((calls.flatMap Call.specs).map FieldSpec.className).Nodup) :
    (new kind build seed 0).written calls = (new kind build seed 0).written calls' := by
  have hbytes : gathered kind calls = gathered kind calls' →
      ((new kind build seed 0).callAll calls).encode
        = ((new kind build seed 0).callAll calls').encode := by
    intro hgathered
    obtain ⟨skipped, heq⟩ := callAll_new kind build seed calls
    obtain ⟨skipped', heq'⟩ := callAll_new kind build seed calls'
    rw [heq, heq']
    refine encode_eq_encode rfl rfl rfl hbase (sortedModules_eq_of_perm ?_ ?_) ?_ hgathered
    · show ((calls.flatMap Call.modules).filterMap moduleRecord?).Perm
        ((calls'.flatMap Call.modules).filterMap moduleRecord?)
      rw [← filterMap_linkedModules, ← filterMap_linkedModules]
      exact hmodules.filterMap moduleRecord?
    · show (((calls.flatMap Call.modules).filterMap moduleRecord?).map ModuleRecord.name).Nodup
      rw [← filterMap_linkedModules]
      exact hnames.sublist (map_filterMap_sublist (fun _ _ => name_of_moduleRecord?) _)
    · refine Text.sortedUnique_eq (fun name => ?_) (Text.pairwise_sortedUnique _)
      rw [Text.mem_sortedUnique]
      exact hclasses name
  -- A dynamic archive gathers nothing. For a static one, both sides panic or neither does.
  by_cases hkind : kind = dynamicKind
  · rw [written_of_dynamic (w := new kind build seed 0) hkind,
      written_of_dynamic (w := new kind build seed 0) hkind]
    refine congrArg Except.ok (hbytes ?_)
    rw [gathered, gathered, if_pos hkind, if_pos hkind]
  · by_cases hpanics : ∃ spec ∈ calls.flatMap Call.specs, Panics m spec
    · have hpanics' : ∃ spec ∈ calls'.flatMap Call.specs, Panics m spec := by
        obtain ⟨spec, hspec, h⟩ := hpanics
        exact ⟨spec, hspecs.mem_iff.1 hspec, h⟩
      rw [written_of_panics (w := new kind build seed 0) hkind hreads hpanics,
        written_of_panics (w := new kind build seed 0) hkind hreads' hpanics']
    · have hnone : ∀ spec ∈ calls.flatMap Call.specs, ¬ Panics m spec :=
        fun spec hspec h => hpanics ⟨spec, hspec, h⟩
      have hnone' : ∀ spec ∈ calls'.flatMap Call.specs, ¬ Panics m spec :=
        fun spec hspec => hnone spec (hspecs.mem_iff.2 hspec)
      have hgathered := gathered_eq_of_perm kind hreads hreads' hspecs hdistinct hnone
      rw [written_of_not_panics hreads hnone, written_of_not_panics hreads' hnone',
        hbytes hgathered]

/-- A machine with two initialized classes that have static state. -/
def pairMachine : Machine :=
  (loopMachine.addClass
    { name := "Leaf", space := "app", superclass := some Machine.objectClass
      loader := some .boot, instanceVariables := [], slotCount := 0
      statics := ⟨[("size", .int 3)]⟩, initializer := .none, state := .ready }).2

theorem wellNamed_pairMachine : pairMachine.WellNamed :=
  Machine.wellNamed_addClass wellNamed_loopMachine _

/-- Calls in one portion each. -/
def wholeCalls : List Call :=
  [.addModules [⟨"app", ["app.b"], some .system⟩, ⟨"base", [], some .boot⟩],
    .addClasses ["b", "a"],
    .archiveFields pairMachine wellNamed_pairMachine
      [⟨"app::Node", ["head"]⟩, ⟨"app::Leaf", ["size"]⟩]]

/-- The same contents in another order, in portions and with repetitions. -/
def scatteredCalls : List Call :=
  [.archiveFields pairMachine wellNamed_pairMachine [⟨"app::Leaf", ["size"]⟩],
    .addClasses ["a", "b", "a"],
    .addModules [⟨"base", [], some .boot⟩, ⟨"idle", [], none⟩],
    .archiveFields pairMachine wellNamed_pairMachine [⟨"app::Node", ["head"]⟩],
    .addClasses ["b"],
    .addModules [⟨"app", ["app.b"], some .system⟩]]

theorem written_scatteredCalls :
    (gathered staticKind wholeCalls).keys = (["app::Leaf", "app::Node"] : List Text) ∧
      (new staticKind ⟨"1", "release", "vm", 21⟩ 42 0).written wholeCalls
        = (new staticKind ⟨"1", "release", "vm", 21⟩ 42 0).written scatteredCalls := by
  refine ⟨by decide, written_eq_written (m := pairMachine) ?_ ?_ rfl ?_ ?_ ?_ ?_ ?_⟩
  · simp [wholeCalls, Call.Reads]
  · simp [scatteredCalls, Call.Reads]
  · exact List.Perm.swap _ _ _
  · decide
  · intro name
    show name ∈ (["b", "a"] : List Text) ↔ name ∈ (["a", "b", "a", "b"] : List Text)
    simp only [List.mem_cons, List.not_mem_nil, or_false]
    grind
  · exact List.Perm.swap _ _ _
  · decide

end Writer

end ClassSharing
