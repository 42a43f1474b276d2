import ClassSharing.Proofs.Bootstrap.Opening
import ClassSharing.Proofs.Image.Writer

/-!
# A bootstrap agrees with its configuration and its files

Whether a bootstrap opens, which archives it maps and what status it has follow from the mode, from
whether archives are required, and from what the files at the two paths hold. A *usable* base opens,
is static and was dumped by the running build; an *acceptable* layer is one that need not be
mapped, because its path is unset or its file is missing, or one that fits the base.

The three functions that map archives return early at many places. Each gets one statement of its
outcomes (`mapOptionalTop_outcome`, `mapUsed_outcome`, `openWith_outcome`), and a caller reads only
that.

## Main definitions

* `MappedBoot.UsableBase`, `MappedBoot.FittingTop`, `MappedBoot.TopAcceptable`: what the files hold
* `MappedBoot.Refused`: the configurations and files with which opening fails
* `MappedBoot.Agrees`: a bootstrap has the status and the archives of its configuration and files

## Main results

* `MappedBoot.openWith_outcome`: opening fails or gives a bootstrap that agrees
* `MappedBoot.openWith_agrees`: when it fails, and what it gives if it does not
-/

namespace ClassSharing

open Image

/-- Opening the file at a path returns an archive or a fault. -/
def Archive.Returns (t : FileTree) (path : Text) : Prop :=
  ∀ p, Archive.openFile t path ≠ .error (.panic p)

namespace MappedBoot

/-! ### What the files hold -/

/-- An archive is a base that a build can use. -/
structure UsableBase (t : FileTree) (c : Config) (build : Build) (a : Archive) : Prop where
  opens : Archive.openFile t c.archivePath = .ok a
  static : a.kind = staticKind
  build_eq : a.build = build

/-- An archive is a layer on a base. -/
structure FittingTop (t : FileTree) (c : Config) (base a : Archive) : Prop where
  opens : Archive.openFile t c.topPath = .ok a
  dynamic : a.kind = dynamicKind
  layered : a.header.baseChecksum = base.identity

/-- There is no layer to map, or it fits the base. -/
def TopAcceptable (t : FileTree) (c : Config) (base : Archive) : Prop :=
  c.topPath = Text.empty ∨ t.isMissing c.topPath = true ∨ ∃ a, FittingTop t c base a

/-- Archives are required and cannot be used. A base that is `optional` may be missing. -/
def UseRefused (t : FileTree) (c : Config) (build : Build) (optional : Bool) : Prop :=
  c.require = true ∧
    ((∀ a, ¬ UsableBase t c build a) ∧ ¬ (optional = true ∧ t.isMissing c.archivePath = true) ∨
      ∃ a, UsableBase t c build a ∧ ¬ TopAcceptable t c a)

/-- The configurations and files with which opening fails in a mode. -/
def Refused (t : FileTree) (c : Config) (build : Build) (mode : Mode) : Prop :=
  mode = .dumpDynamic ∧ (∀ a, ¬ UsableBase t c build a) ∨
    (mode = .use ∨ mode = .auto) ∧ UseRefused t c build (mode = .auto)

/-- A bootstrap has the status and the archives of its configuration and files in a mode. -/
structure Agrees (t : FileTree) (c : Config) (build : Build) (mode : Mode) (b : MappedBoot) :
    Prop where
  valid : b.status.flaw? = none
  dumping : b.status.isDumping = mode.isDumping
  dumpingStatic : b.status.isDumpingStatic = decide (mode = .dumpStatic)
  logging : b.status.isLogging = c.lambdaForms
  isUsing : b.status.isUsing = b.base.isSome
  base : ∀ a, b.base = some a ↔
    (mode = .use ∨ mode = .auto ∨ mode = .dumpDynamic) ∧ UsableBase t c build a
  top : ∀ a, b.top = some a ↔ (mode = .use ∨ mode = .auto) ∧ c.topPath ≠ Text.empty ∧
    ∃ base, b.base = some base ∧ FittingTop t c base a

section Outcomes

variable {t : FileTree} {c : Config} {build : Build} {mode : Mode}

theorem UsableBase.unique {a a' : Archive} (h : UsableBase t c build a)
    (h' : UsableBase t c build a') : a = a' :=
  Except.ok.inj (h.opens.symm.trans h'.opens)

theorem FittingTop.unique {base a a' : Archive} (h : FittingTop t c base a)
    (h' : FittingTop t c base a') : a = a' :=
  Except.ok.inj (h.opens.symm.trans h'.opens)

theorem isMissing_eq_false {path : Text} {a : Archive} (h : Archive.openFile t path = .ok a) :
    t.isMissing path = false := by
  rw [FileTree.isMissing]
  cases hfind : t.find path with
  | ok node => rfl
  | error reason =>
    rw [Archive.openFile, Archive.mapFile, hfind] at h
    cases h

/-! ### The base -/

theorem mapBase_eq_ok_iff {a : Archive} :
    mapBase t c build = .ok a ↔ UsableBase t c build a := by
  constructor
  · intro h
    rw [mapBase] at h
    split at h
    · cases h
    · rename_i opened hopen
      split at h
      · cases h
      · rename_i hkind
        split at h
        · cases h
        · rename_i hbuild
          obtain rfl := Except.ok.inj h
          exact ⟨hopen, Decidable.not_not.1 hkind, Decidable.not_not.1 hbuild⟩
  · rintro ⟨hopen, hkind, hbuild⟩
    rw [mapBase, hopen]
    simp only [hkind, hbuild, ne_eq, not_true, if_false]

theorem exists_mapBase_eq_error (hreturns : Archive.Returns t c.archivePath)
    (hno : ∀ a, ¬ UsableBase t c build a) : ∃ fault, mapBase t c build = .error (.fault fault) := by
  cases h : mapBase t c build with
  | ok a => exact absurd (mapBase_eq_ok_iff.1 h) (hno a)
  | error e =>
    cases e with
    | fault fault => exact ⟨fault, rfl⟩
    | panic p =>
      rw [mapBase] at h
      split at h
      · rename_i e hopen
        exact absurd (hopen.trans h) (hreturns p)
      · split at h
        · cases h
        · split at h <;> cases h

/-! ### The layer -/

theorem mapTop_eq_ok_iff {base a : Archive} :
    mapTop t c base = .ok a ↔ FittingTop t c base a := by
  constructor
  · intro h
    rw [mapTop] at h
    split at h
    · cases h
    · rename_i opened hopen
      split at h
      · cases h
      · rename_i hkind
        split at h
        · cases h
        · rename_i hlayered
          obtain rfl := Except.ok.inj h
          exact ⟨hopen, Decidable.not_not.1 hkind, Decidable.not_not.1 hlayered⟩
  · rintro ⟨hopen, hkind, hlayered⟩
    rw [mapTop, hopen]
    simp only [hkind, hlayered, ne_eq, not_true, if_false]

theorem exists_mapTop_eq_error (hreturns : Archive.Returns t c.topPath) {base : Archive}
    (hno : ∀ a, ¬ FittingTop t c base a) : ∃ fault, mapTop t c base = .error (.fault fault) := by
  cases h : mapTop t c base with
  | ok a => exact absurd (mapTop_eq_ok_iff.1 h) (hno a)
  | error e =>
    cases e with
    | fault fault => exact ⟨fault, rfl⟩
    | panic p =>
      rw [mapTop] at h
      split at h
      · rename_i e hopen
        exact absurd (hopen.trans h) (hreturns p)
      · split at h
        · cases h
        · split at h <;> cases h

/-- **What becomes of the layer.** It is mapped if it fits, and one that is not acceptable is a
fault exactly if archives are required. -/
theorem mapOptionalTop_outcome (hreturns : Archive.Returns t c.topPath) (base : Archive) :
    (∃ fault, mapOptionalTop t c base = .error (.fault fault) ∧ c.require = true ∧
      ¬ TopAcceptable t c base) ∨
    ∃ top, mapOptionalTop t c base = .ok top ∧ (c.require = true → TopAcceptable t c base) ∧
      ∀ a, top = some a ↔ c.topPath ≠ Text.empty ∧ FittingTop t c base a := by
  rw [mapOptionalTop]
  by_cases hunset : c.topPath = Text.empty
  · rw [if_pos (by simp [Text.isEmpty_iff.2 hunset])]
    exact .inr ⟨none, rfl, fun _ => .inl hunset, by simp [hunset]⟩
  by_cases hmissing : t.isMissing c.topPath = true
  · have hnot : ∀ a, ¬ FittingTop t c base a := fun a ha => by
      rw [isMissing_eq_false ha.opens] at hmissing
      cases hmissing
    rw [if_pos (by simp [hmissing])]
    exact .inr ⟨none, rfl, fun _ => .inr (.inl hmissing), by simp [hnot]⟩
  rw [if_neg (by simp [Text.isEmpty_iff, hunset, hmissing])]
  by_cases hfits : ∃ a, FittingTop t c base a
  · obtain ⟨a, ha⟩ := hfits
    rw [mapTop_eq_ok_iff.2 ha]
    refine .inr ⟨some a, rfl, fun _ => .inr (.inr ⟨a, ha⟩), fun a' => ?_⟩
    refine ⟨fun h => ⟨hunset, Option.some.inj h ▸ ha⟩, fun h => ?_⟩
    rw [ha.unique h.2]
  · have hnot : ∀ a, ¬ FittingTop t c base a := fun a ha => hfits ⟨a, ha⟩
    have hrefused : ¬ TopAcceptable t c base := by
      rintro (h | h | h)
      · exact hunset h
      · exact hmissing h
      · exact hfits h
    obtain ⟨fault, hfault⟩ := exists_mapTop_eq_error hreturns hnot
    rw [hfault]
    cases hrequire : c.require with
    | true => exact .inl ⟨fault, rfl, rfl, hrefused⟩
    | false => exact .inr ⟨none, rfl, nofun, by simp [hnot]⟩

/-! ### The archives in use -/

/-- Two archives are the base that can be used and the layer on it. -/
def Mapped (t : FileTree) (c : Config) (build : Build) (base top : Option Archive) : Prop :=
  (∀ a, base = some a ↔ UsableBase t c build a) ∧
    ∀ a, top = some a ↔ c.topPath ≠ Text.empty ∧ ∃ b, base = some b ∧ FittingTop t c b a

theorem mapped_none (hno : ∀ a, ¬ UsableBase t c build a) : Mapped t c build none none :=
  ⟨by simp [hno], by simp⟩

/-- **What becomes of a usable base.** Only its layer can stand in the way. -/
theorem mapArchives_of_usable {optional : Bool} {a : Archive} (ha : UsableBase t c build a) :
    mapArchives t c build optional = (mapOptionalTop t c a).map fun top => (some a, top) := by
  have hbase : (mapBase t c build).map some = .ok (some a) := by
    rw [mapBase_eq_ok_iff.2 ha]
    rfl
  have hoptional : mapOptionalBase t c build = .ok (some a) := by
    rw [mapOptionalBase, isMissing_eq_false ha.opens]
    exact hbase
  rw [mapArchives, hoptional, hbase, ite_self]

/-- Nothing is mapped where the base may be missing and is. -/
theorem mapArchives_of_missing {optional : Bool}
    (h : optional = true ∧ t.isMissing c.archivePath = true) :
    mapArchives t c build optional = .ok (none, none) := by
  rw [mapArchives, mapOptionalBase, if_pos h.1, if_pos h.2]

/-- Any other base that cannot be used is a fault. -/
theorem exists_mapArchives_eq_error {optional : Bool} (hbase : Archive.Returns t c.archivePath)
    (hno : ∀ a, ¬ UsableBase t c build a)
    (hmissing : ¬ (optional = true ∧ t.isMissing c.archivePath = true)) :
    ∃ fault, mapArchives t c build optional = .error (.fault fault) := by
  obtain ⟨fault, hfault⟩ := exists_mapBase_eq_error hbase hno
  have herror : (mapBase t c build).map some = .error (.fault fault) := by
    rw [hfault]
    rfl
  refine ⟨fault, ?_⟩
  rw [mapArchives, mapOptionalBase, herror]
  by_cases hoptional : optional = true
  · rw [if_pos hoptional, if_neg fun h => hmissing ⟨hoptional, h⟩]
  · rw [if_neg hoptional]

/-- **What becomes of the archives in use.** -/
theorem mapUsed_outcome (hbase : Archive.Returns t c.archivePath)
    (htop : Archive.Returns t c.topPath) (optional : Bool) :
    (UseRefused t c build optional ∧
      ∃ fault, mapUsed t c build optional = .error (.fault fault)) ∨
    ¬ UseRefused t c build optional ∧
      ∃ base top, mapUsed t c build optional = .ok (base, top) ∧ Mapped t c build base top := by
  rw [mapUsed]
  by_cases husable : ∃ a, UsableBase t c build a
  · obtain ⟨a, ha⟩ := husable
    rw [mapArchives_of_usable ha]
    rcases mapOptionalTop_outcome htop a with
      ⟨fault, hfault, hrequire, hrefused⟩ | ⟨top, hok, haccepted, hlayer⟩
    · rw [hfault]
      exact .inl ⟨⟨hrequire, .inr ⟨a, ha, hrefused⟩⟩, fault, if_pos hrequire⟩
    · rw [hok]
      refine .inr ⟨?_, some a, top, rfl, fun a' => ?_, fun a' => ?_⟩
      · rintro ⟨hrequire, ⟨hno, -⟩ | ⟨a', ha', hrefused⟩⟩
        · exact hno a ha
        · exact hrefused (ha.unique ha' ▸ haccepted hrequire)
      · exact ⟨fun h => Option.some.inj h ▸ ha, fun ha' => congrArg some (ha.unique ha')⟩
      · rw [hlayer a']
        simp
  · have hno : ∀ a, ¬ UsableBase t c build a := fun a ha => husable ⟨a, ha⟩
    by_cases hmissing : optional = true ∧ t.isMissing c.archivePath = true
    · rw [mapArchives_of_missing hmissing]
      refine .inr ⟨?_, none, none, rfl, mapped_none hno⟩
      rintro ⟨-, ⟨-, hnot⟩ | ⟨a, ha, -⟩⟩
      · exact hnot hmissing
      · exact hno a ha
    · obtain ⟨fault, hfault⟩ := exists_mapArchives_eq_error hbase hno hmissing
      rw [hfault]
      cases hrequire : c.require with
      | true => exact .inl ⟨⟨hrequire, .inl ⟨hno, hmissing⟩⟩, fault, rfl⟩
      | false =>
        refine .inr ⟨?_, none, none, rfl, mapped_none hno⟩
        rintro ⟨h, -⟩
        rw [hrequire] at h
        cases h

/-! ### The bootstrap -/

/-- The flags that a mode adds to the logging flag, once it is known whether there is a base. -/
def flagsOf (mode : Mode) (mapped : Bool) : UInt32 :=
  match mode, mapped with
  | .dumpStatic, _ => Status.dumpingFlag ||| Status.staticFlag
  | .dumpDynamic, _ => Status.usingFlag ||| Status.dumpingFlag
  | .off, _ => 0
  | _, mapped => if mapped then Status.usingFlag else 0

/-- A status word with the flags of a mode has its bits. A dynamic dump has a base, and a process
that is off or dumps a static archive has none. -/
theorem agrees_of_flagsOf {b : MappedBoot}
    (hstatus : b.status = (loggingStatus c).set (flagsOf mode b.base.isSome))
    (hbase : ∀ a, b.base = some a ↔
      (mode = .use ∨ mode = .auto ∨ mode = .dumpDynamic) ∧ UsableBase t c build a)
    (hdynamic : mode = .dumpDynamic → b.base.isSome = true)
    (htop : ∀ a, b.top = some a ↔ (mode = .use ∨ mode = .auto) ∧ c.topPath ≠ Text.empty ∧
      ∃ base, b.base = some base ∧ FittingTop t c base a) : Agrees t c build mode b := by
  have hnone : mode = .off ∨ mode = .dumpStatic → b.base.isSome = false := by
    intro hmode
    rw [Option.isSome_eq_false_iff, Option.isNone_iff_eq_none, Option.eq_none_iff_forall_ne_some]
    intro a ha
    rcases hmode with rfl | rfl <;> simpa using ((hbase a).1 ha).1
  have hbits : b.status.flaw? = none ∧ b.status.isDumping = mode.isDumping ∧
      b.status.isDumpingStatic = decide (mode = .dumpStatic) ∧
      b.status.isLogging = c.lambdaForms ∧ b.status.isUsing = b.base.isSome := by
    rw [hstatus, loggingStatus]
    generalize b.base.isSome = mapped at hnone hdynamic
    cases mode <;> cases mapped <;> cases c.lambdaForms <;> first | decide | simp at hnone hdynamic
  exact ⟨hbits.1, hbits.2.1, hbits.2.2.1, hbits.2.2.2.1, hbits.2.2.2.2, hbase, htop⟩

theorem set_zero (s : Status) : s.set 0 = s := by
  rw [Status.set, UInt32.or_zero]

/-- A mode without archives. -/
theorem agrees_unmapped (hmode : mode = .off ∨ mode = .dumpStatic) :
    Agrees t c build mode
      ⟨c, build, (loggingStatus c).set (flagsOf mode false), none, none⟩ := by
  refine agrees_of_flagsOf rfl (fun a => ?_) ?_ fun a => ?_
  · rcases hmode with rfl | rfl <;> simp
  · rcases hmode with rfl | rfl <;> simp
  · simp

theorem openWith_of_used (hmode : c.mode? = some mode) (hused : mode = .use ∨ mode = .auto) :
    openWith t c build = (mapUsed t c build (mode = .auto)).map fun archives =>
      ⟨c, build, (loggingStatus c).set (flagsOf mode archives.1.isSome), archives.1,
        archives.2⟩ := by
  rw [openWith]
  rcases hused with rfl | rfl <;> simp only [hmode] <;> congr 1 <;> funext archives <;>
    obtain ⟨_ | a, top⟩ := archives <;> simp [flagsOf, set_zero, Status.setIf]

theorem openWith_dumpDynamic (hmode : c.mode? = some .dumpDynamic) :
    openWith t c build = (mapDumpBase t c build).map fun a =>
      ⟨c, build, (loggingStatus c).set (flagsOf .dumpDynamic true), some a, none⟩ := by
  rw [openWith]
  simp only [hmode]
  rfl

/-- **What becomes of a dynamic dump**: it needs a base, and maps no layer. -/
theorem dumpDynamic_outcome (hmode : c.mode? = some .dumpDynamic)
    (hbase : Archive.Returns t c.archivePath) :
    ((∀ a, ¬ UsableBase t c build a) ∧ ∃ fault, openWith t c build = .error (.fault fault)) ∨
    (∃ a, UsableBase t c build a) ∧
      ∃ b, openWith t c build = .ok b ∧ Agrees t c build .dumpDynamic b := by
  rw [openWith_dumpDynamic hmode, mapDumpBase]
  by_cases husable : ∃ a, UsableBase t c build a
  · obtain ⟨a, ha⟩ := husable
    rw [mapBase_eq_ok_iff.2 ha]
    refine .inr ⟨⟨a, ha⟩, _, rfl, agrees_of_flagsOf rfl (fun a' => ?_) (fun _ => rfl) ?_⟩
    · simp only [true_and, or_true, Option.some.injEq]
      exact ⟨fun h => h ▸ ha, ha.unique⟩
    · simp
  · have hno : ∀ a, ¬ UsableBase t c build a := fun a ha => husable ⟨a, ha⟩
    obtain ⟨fault, hfault⟩ := exists_mapBase_eq_error hbase hno
    rw [hfault]
    exact .inl ⟨hno, _, rfl⟩

/-- **Opening fails, or it gives a bootstrap that agrees with the configuration and the files.** -/
theorem openWith_outcome (hmode : c.mode? = some mode) (hbase : Archive.Returns t c.archivePath)
    (htop : Archive.Returns t c.topPath) :
    (Refused t c build mode ∧ ∃ fault, openWith t c build = .error (.fault fault)) ∨
    ¬ Refused t c build mode ∧ ∃ b, openWith t c build = .ok b ∧ Agrees t c build mode b := by
  by_cases hused : mode = .use ∨ mode = .auto
  · have hrefused : Refused t c build mode ↔ UseRefused t c build (mode = .auto) := by
      rcases hused with rfl | rfl <;> simp [Refused]
    rw [hrefused, openWith_of_used hmode hused]
    rcases @mapUsed_outcome t c build hbase htop (mode = .auto) with
      ⟨hno, fault, hfault⟩ | ⟨hyes, base, top, hok, hmapped⟩
    · rw [hfault]
      exact .inl ⟨hno, fault, rfl⟩
    · rw [hok]
      refine .inr ⟨hyes, _, rfl, agrees_of_flagsOf rfl (fun a => ?_) ?_ fun a => ?_⟩
      · rw [hmapped.1 a]
        grind
      · rintro rfl
        simp at hused
      · rw [hmapped.2 a]
        simp [hused]
  · have hrefused : Refused t c build mode ↔
        mode = .dumpDynamic ∧ ∀ a, ¬ UsableBase t c build a := by
      simp [Refused, hused]
    rw [hrefused]
    cases mode with
    | use => exact absurd (.inl rfl) hused
    | auto => exact absurd (.inr rfl) hused
    | off =>
      simp only [openWith, hmode]
      refine .inr ⟨by simp, _, rfl, ?_⟩
      rw [← set_zero (loggingStatus c)]
      exact agrees_unmapped (.inl rfl)
    | dumpStatic =>
      simp only [openWith, hmode]
      exact .inr ⟨by simp, _, rfl, agrees_unmapped (.inr rfl)⟩
    | dumpDynamic =>
      rcases dumpDynamic_outcome hmode hbase with ⟨hno, hfault⟩ | ⟨⟨a, ha⟩, hopened⟩
      · exact .inl ⟨⟨rfl, hno⟩, hfault⟩
      · exact .inr ⟨fun h => h.2 a ha, hopened⟩

/-- **A bootstrap agrees with its configuration and its files.** In a known mode, with two paths
whose files can be opened or give a fault, opening fails exactly if it is refused, and what it gives
otherwise has the status and the archives that it should have. -/
theorem openWith_agrees (hmode : c.mode? = some mode) (hbase : Archive.Returns t c.archivePath)
    (htop : Archive.Returns t c.topPath) :
    ((∃ fault, openWith t c build = .error (.fault fault)) ↔ Refused t c build mode) ∧
      ((∃ b, openWith t c build = .ok b) ↔ ¬ Refused t c build mode) ∧
      ∀ b, openWith t c build = .ok b → Agrees t c build mode b := by
  rcases @openWith_outcome t c build mode hmode hbase htop with
    ⟨hrefused, fault, hfault⟩ | ⟨hnot, b, hok, hagrees⟩
  · rw [hfault]
    simp [hrefused]
  · rw [hok]
    simp [hnot, hagrees]

end Outcomes

/-! ### A base with a layer -/

/-- Files with an archive and a layer on it. -/
def layeredFiles (base top : Bytes) : FileTree :=
  { nodes := ⟨[("/", .directory), ("/lib.cds", .file 0 base), ("/top.cds", .file 1 top)]⟩
    workingDirectory := "/" }

theorem find_layeredFiles (base top : Bytes) :
    (layeredFiles base top).find "/lib.cds" = .ok (.file 0 base) ∧
      (layeredFiles base top).find "/top.cds" = .ok (.file 1 top) :=
  ⟨rfl, rfl⟩

/-- Settings that require both. -/
def layeredConfig : Config :=
  { mode := "use", path := "/lib.cds", top := "/top.cds", require := true }

/-- The writer of an archive without contents. -/
def emptyWriter (kind : UInt8) (base : UInt64) : Writer :=
  (Writer.new kind ⟨"1", "release", "vm", 21⟩ 42 0).callAll [.setBaseChecksum base]

theorem sortedUnique_emptyWriter (kind : UInt8) (base : UInt64) :
    Text.sortedUnique (emptyWriter kind base).classes = [] :=
  Text.sortedUnique_eq (fun _ => Iff.rfl) .nil

theorem directory_emptyWriter (kind : UInt8) (base : UInt64) :
    (emptyWriter kind base).directory =
      { build := ⟨"1", "release", "vm", 21⟩
        seed := 42
        modules := none
        classes := none
        subgraphs := none } := by
  have hmodules : (emptyWriter kind base).sortedModules = [] :=
    List.perm_nil.1 (Writer.sortedModules_perm _)
  rw [Writer.directory, hmodules, sortedUnique_emptyWriter]
  rfl

theorem storable_emptyWriter (kind : UInt8) (base : UInt64) : (emptyWriter kind base).Storable where
  build := show BuildStorable ⟨"1", "release", "vm", 21⟩ by decide
  modules := show ListStorable ModuleRecord.Storable (some []) by decide
  names := nofun
  limited := by
    rw [sortedUnique_emptyWriter]
    exact Nat.zero_le _
  subgraphs := ⟨Nat.zero_le _, nofun⟩
  addressable := by
    have hheap : (emptyWriter kind base).archive.heap = [] := rfl
    rw [Writer.length_encode_eq, hheap, directory_emptyWriter]
    decide

theorem openFile_emptyWriter {t : FileTree} {path : Text} {number : Nat} {kind : UInt8}
    {base : UInt64} (hkind : kind = staticKind ∨ kind = dynamicKind)
    (hfind : t.find path = .ok (.file number (emptyWriter kind base).encode)) :
    Archive.openFile t path =
      .ok { (emptyWriter kind base).archive with path := path, source := some number } :=
  Writer.openFile_of_find hfind hkind (Writer.sound_callAll _ _ _ _)
    (storable_emptyWriter kind base)

/-- With a usable base and a layer on it that are both required, opening succeeds, and the bootstrap
has both. -/
theorem openWith_agrees_layered :
    ∃ b, openWith (layeredFiles (emptyWriter staticKind 0).encode
          (emptyWriter dynamicKind (emptyWriter staticKind 0).archive.identity).encode)
        layeredConfig ⟨"1", "release", "vm", 21⟩ = .ok b ∧
      b.status.isUsing = true ∧ b.base.isSome = true ∧ b.top.isSome = true := by
  obtain ⟨hfindBase, hfindTop⟩ := find_layeredFiles (emptyWriter staticKind 0).encode
    (emptyWriter dynamicKind (emptyWriter staticKind 0).archive.identity).encode
  have hopenBase := openFile_emptyWriter (.inl rfl) hfindBase
  have hopenTop := openFile_emptyWriter (.inr rfl) hfindTop
  generalize layeredFiles (emptyWriter staticKind 0).encode
    (emptyWriter dynamicKind (emptyWriter staticKind 0).archive.identity).encode = t at *
  have hbase : UsableBase t layeredConfig ⟨"1", "release", "vm", 21⟩
      { (emptyWriter staticKind 0).archive with path := "/lib.cds", source := some 0 } :=
    ⟨hopenBase, rfl, rfl⟩
  have htop : FittingTop t layeredConfig
      { (emptyWriter staticKind 0).archive with path := "/lib.cds", source := some 0 }
      { (emptyWriter dynamicKind (emptyWriter staticKind 0).archive.identity).archive with
        path := "/top.cds", source := some 1 } :=
    ⟨hopenTop, rfl, rfl⟩
  obtain ⟨-, hopens, hagrees⟩ := @openWith_agrees t layeredConfig ⟨"1", "release", "vm", 21⟩ .use
    (by decide) (fun p h => nomatch hopenBase.symm.trans h)
    (fun p h => nomatch hopenTop.symm.trans h)
  have hnot : ¬ Refused t layeredConfig ⟨"1", "release", "vm", 21⟩ .use := by
    rintro (⟨h, -⟩ | ⟨-, -, ⟨hno, -⟩ | ⟨a, ha, hrefused⟩⟩)
    · cases h
    · exact hno _ hbase
    · obtain rfl := hbase.unique ha
      exact hrefused (.inr (.inr ⟨_, htop⟩))
  obtain ⟨b, hb⟩ := hopens.2 hnot
  have hmapped := ((hagrees b hb).base _).2 ⟨.inl rfl, hbase⟩
  have hlayer := ((hagrees b hb).top _).2 ⟨.inl rfl, by decide, _, hmapped, htop⟩
  refine ⟨b, hb, ?_, ?_, ?_⟩
  · rw [(hagrees b hb).isUsing, hmapped]
    rfl
  · rw [hmapped]
    rfl
  · rw [hlayer]
    rfl

end MappedBoot

end ClassSharing
