import ClassSharing.Bootstrap.Open

/-!
# What an opened bootstrap is like

There are four kinds of opened bootstraps: one without archives, one for a static dump, one for a
dynamic dump over its base, and one that uses its base and perhaps a layer on top of it. Everything
about a bootstrap follows from its kind. In particular a process uses an archive exactly if its
bootstrap has a base, and the status that its gates answer from is never inconsistent.

## Main definitions

* `MappedBoot.Opened`: the kinds of opened bootstraps

## Main results

* `MappedBoot.opened_of_openWith`: every bootstrap that has been opened is of one of these kinds
* `MappedBoot.Opened.sound`: its status is consistent
* `MappedBoot.Opened.exists_base`, `MappedBoot.Opened.no_base`: it has a base exactly if it uses one
-/

namespace ClassSharing

namespace MappedBoot

/-- The bootstraps that a configuration can lead to. -/
inductive Opened (t : FileTree) (c : Config) (build : Build) : MappedBoot → Prop where
  /-- No archive is asked for, or none can be used. -/
  | unused : Opened t c build ⟨c, build, loggingStatus c, none, none⟩
  | dumpStatic (mode : c.mode? = some .dumpStatic) : Opened t c build
      ⟨c, build, (loggingStatus c).set (Status.dumpingFlag ||| Status.staticFlag), none, none⟩
  | dumpDynamic (a : Archive) (base : mapBase t c build = .ok a) : Opened t c build
      ⟨c, build, (loggingStatus c).set (Status.usingFlag ||| Status.dumpingFlag), some a, none⟩
  | used (a : Archive) (top : Option Archive) (base : mapBase t c build = .ok a) : Opened t c build
      ⟨c, build, (loggingStatus c).set Status.usingFlag, some a, top⟩

section Opening

variable {t : FileTree} {c : Config} {build : Build} {b : MappedBoot}

/-! ### The archives -/

theorem exists_of_map_eq_ok {α β : Type} {x : Except Failure α} {f : α → β} {y : β}
    (h : x.map f = .ok y) : ∃ a, x = .ok a ∧ f a = y := by
  cases x with
  | error e => cases h
  | ok a => exact ⟨a, rfl, Except.ok.inj h⟩

/-- Mapping the archives in use begins with the base, and without one there is no layer. -/
theorem mapArchives_ok {optional : Bool} {base top : Option Archive}
    (h : mapArchives t c build optional = .ok (base, top)) :
    base = none ∧ top = none ∨ ∃ a, base = some a ∧ mapBase t c build = .ok a := by
  rw [mapArchives] at h
  split at h
  · cases h
  · obtain ⟨rfl, rfl⟩ := Prod.mk.inj (Except.ok.inj h)
    exact .inl ⟨rfl, rfl⟩
  · rename_i a hbase
    obtain ⟨top', -, heq⟩ := exists_of_map_eq_ok h
    obtain ⟨rfl, -⟩ := Prod.mk.inj heq
    refine .inr ⟨a, rfl, ?_⟩
    have hmapped : (mapBase t c build).map some = .ok (some a) := by
      cases optional with
      | false => exact hbase
      | true =>
        rw [if_pos rfl, mapOptionalBase] at hbase
        split at hbase
        · cases hbase
        · exact hbase
    obtain ⟨a', ha', heq⟩ := exists_of_map_eq_ok hmapped
    rw [ha', Option.some.inj heq]

theorem mapUsed_ok {optional : Bool} {base top : Option Archive}
    (h : mapUsed t c build optional = .ok (base, top)) :
    base = none ∧ top = none ∨ ∃ a, base = some a ∧ mapBase t c build = .ok a := by
  rw [mapUsed] at h
  split at h
  · rename_i archives heq
    exact mapArchives_ok (heq.trans h)
  · cases h
  · split at h
    · cases h
    · obtain ⟨rfl, rfl⟩ := Prod.mk.inj (Except.ok.inj h)
      exact .inl ⟨rfl, rfl⟩

/-- A base that has been mapped is what the file of the configuration holds. -/
theorem mapBase_ok {a : Archive} (h : mapBase t c build = .ok a) :
    ∃ data opened number, t.read c.archivePath = .ok data ∧ Archive.decode data = .ok opened ∧
      a = { opened with path := c.archivePath, source := some number } := by
  have hopen : Archive.openFile t c.archivePath = .ok a := by
    rw [mapBase] at h
    split at h
    · cases h
    · rename_i opened hopened
      split at h
      · cases h
      · split at h
        · cases h
        · exact hopened.trans h
  rw [Archive.openFile] at hopen
  split at hopen
  · cases hopen
  · rename_i number data hmap
    split at hopen
    · cases hopen
    · rename_i opened hdecode
      refine ⟨data, opened, number, ?_, hdecode, (Except.ok.inj hopen).symm⟩
      rw [Archive.mapFile] at hmap
      rw [FileTree.read]
      cases hfind : t.find c.archivePath with
      | error reason =>
        rw [hfind] at hmap
        cases hmap
      | ok node =>
        rw [hfind] at hmap
        cases node with
        | directory => cases hmap
        | fullDevice => cases hmap
        | file _ contents =>
          simp only at hmap
          split at hmap
          · cases hmap
          · exact congrArg Except.ok (Prod.mk.inj (Except.ok.inj hmap)).2

theorem mapBase_of_mapDumpBase {a : Archive} (h : mapDumpBase t c build = .ok a) :
    mapBase t c build = .ok a := by
  rw [mapDumpBase] at h
  split at h
  · rename_i base heq
    exact heq.trans h
  · cases h
  · cases h

/-! ### The kinds -/

/-- **Every opened bootstrap is of one of four kinds.** -/
theorem opened_of_openWith (h : openWith t c build = .ok b) : Opened t c build b := by
  rw [openWith] at h
  simp only at h
  split at h
  · cases h
  · obtain rfl := Except.ok.inj h
    exact .unused
  · rename_i hmode
    obtain rfl := Except.ok.inj h
    exact .dumpStatic hmode
  · obtain ⟨a, hbase, rfl⟩ := exists_of_map_eq_ok h
    exact .dumpDynamic a (mapBase_of_mapDumpBase hbase)
  · obtain ⟨⟨base, top⟩, hused, rfl⟩ := exists_of_map_eq_ok h
    rcases mapUsed_ok hused with ⟨rfl, rfl⟩ | ⟨a, rfl, hbase⟩
    · exact .unused
    · exact .used a top hbase

/-! ### What follows from the kind -/

theorem Opened.config_eq (h : Opened t c build b) : b.config = c := by cases h <;> rfl

theorem Opened.build_eq (h : Opened t c build b) : b.build = build := by cases h <;> rfl

/-- There are two statuses that do not depend on archives, so that what holds of both holds of the
status that opening begins with. -/
theorem loggingStatus_cases (c : Config) :
    loggingStatus c = Status.none ∨ loggingStatus c = Status.none.set Status.loggingFlag := by
  rw [loggingStatus]
  cases c.lambdaForms
  · exact .inl rfl
  · exact .inr rfl

/-- **The status of an opened bootstrap is consistent.** -/
theorem Opened.sound (h : Opened t c build b) : b.status.flaw? = none := by
  cases h <;> rcases loggingStatus_cases c with hstart | hstart <;> simp only [hstart] <;> decide

/-- **A process that uses an archive has its base,** -/
theorem Opened.exists_base (h : Opened t c build b) (husing : b.status.isUsing = true) :
    ∃ a, b.base = some a ∧ mapBase t c build = .ok a := by
  cases h with
  | unused =>
    exfalso
    rcases loggingStatus_cases c with hstart | hstart <;> simp only [hstart] at husing <;>
      exact absurd husing (by decide)
  | dumpStatic mode =>
    exfalso
    rcases loggingStatus_cases c with hstart | hstart <;> simp only [hstart] at husing <;>
      exact absurd husing (by decide)
  | dumpDynamic a base => exact ⟨a, rfl, base⟩
  | used a top base => exact ⟨a, rfl, base⟩

/-- and one that uses none has none. -/
theorem Opened.no_base (h : Opened t c build b) (hnot : b.status.isUsing = false) :
    b.base = none := by
  cases h with
  | unused => rfl
  | dumpStatic mode => rfl
  | dumpDynamic a base =>
    exfalso
    rcases loggingStatus_cases c with hstart | hstart <;> simp only [hstart] at hnot <;>
      exact absurd hnot (by decide)
  | used a top base =>
    exfalso
    rcases loggingStatus_cases c with hstart | hstart <;> simp only [hstart] at hnot <;>
      exact absurd hnot (by decide)

/-- A process that uses no archive has no record of any class. -/
theorem Opened.unmapped (h : Opened t c build b) (hnot : b.status.isUsing = false) (name : Text) :
    ∃ fault, b.subgraph name = .error fault :=
  ⟨.of (.noSubgraphUnmapped name), by rw [subgraph, h.no_base hnot]⟩

/-- **A static dump needs no archive** and uses none. -/
theorem exists_openWith_dumpStatic (t : FileTree) (build : Build)
    (hmode : c.mode? = some .dumpStatic) :
    ∃ b, openWith t c build = .ok b ∧ b.status.isDumping = true ∧
      b.status.isDumpingStatic = true ∧ b.status.isUsing = false := by
  refine ⟨⟨c, build, (loggingStatus c).set (Status.dumpingFlag ||| Status.staticFlag), none, none⟩,
    ?_, ?_⟩
  · rw [openWith]
    simp only [hmode]
  · rcases loggingStatus_cases c with hstart | hstart <;> simp only [hstart] <;> decide

end Opening

end MappedBoot

end ClassSharing
