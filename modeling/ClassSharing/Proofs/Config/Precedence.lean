import ClassSharing.Config.Load
import Mathlib.Tactic.Common

/-!
# Where a setting comes from

Four settings can be overridden by variables. A variable of the process counts before one of the
file of variables, also if it is empty, so an empty variable hides the other one and the settings
file. What fills an empty mode or path afterwards is the default and never a value that has been
hidden.

What is merged is checked as a whole, after the variables and the defaults. So a setting that a
variable has spoiled is refused like one that the file has spoiled, and one that a variable has
mended is accepted.

## Main definitions

* `Config.Given`, `Config.Overridden`: the value of a variable, and what it makes of a setting
* `Config.Merged`: what the sources and the defaults come to, setting by setting
* `Config.Sound`: settings with a known mode and a known level, and with a place for a layer

## Main results

* `Config.merge_eq_ok_iff`, `Config.validate_eq_ok_iff`: merging and checking
* `Config.load_eq_ok_iff`: what is loaded is what is merged and sound
* `Config.exists_load_eq_error_iff`: when loading fails
* `Config.load_precedence`: where each setting comes from, and when settings are refused
-/

namespace ClassSharing

theorem Mode.ofName?_eq_some_iff {text : Text} {m : Mode} :
    Mode.ofName? text = some m ↔ text = m.name := by
  constructor
  · intro h
    rw [Mode.ofName?] at h
    exact (by simpa using List.find?_some h : m.name = text).symm
  · rintro rfl
    exact m.ofName?_name

namespace Config

/-! ### Variables -/

/-- The value of a variable: the one of the process, even if it is empty, and only without it the
one of the file of variables. -/
inductive Given (process dotenv : Table Text) (name : Text) : Text → Prop
  | process {text} (h : process.get? name = some text) : Given process dotenv name text
  | dotenv {text} (hnot : process.get? name = none) (h : dotenv.get? name = some text) :
    Given process dotenv name text

/-- What becomes of a setting: what the variable spells if it has a value, and the file's own value
if it has none. -/
inductive Overridden {α : Type} (process dotenv : Table Text) (name : Text)
    (spells : Text → α → Prop) (own : α) : α → Prop
  | spelled {text value} (h : Given process dotenv name text) (hspells : spells text value) :
    Overridden process dotenv name spells own value
  | own (h : ∀ text, ¬ Given process dotenv name text) :
    Overridden process dotenv name spells own own

section Layers

variable {α : Type} {process dotenv : Table Text} {name text : Text} {file c : Config}

theorem given_iff :
    Given process dotenv name text ↔ (Variables.mk process dotenv).get? name = some text := by
  rw [Variables.get?]
  constructor
  · rintro (h | ⟨hnot, h⟩)
    · rw [h]
    · rw [hnot, h]
  · intro h
    cases hprocess : process.get? name with
    | some value =>
      rw [hprocess] at h
      exact .process (h ▸ hprocess)
    | none =>
      rw [hprocess] at h
      exact .dotenv hprocess h

theorem not_given_iff :
    (∀ text, ¬ Given process dotenv name text) ↔
      (Variables.mk process dotenv).get? name = none := by
  simp only [given_iff, Option.eq_none_iff_forall_ne_some, ne_eq]

/-- A setting that every value of the variable spells. -/
theorem overridden_iff {read : Text → α} {own value : α} :
    Overridden process dotenv name (fun text a => a = read text) own value ↔
      value = (((Variables.mk process dotenv).get? name).map read).getD own := by
  constructor
  · rintro (⟨h, rfl⟩ | h)
    · rw [given_iff.1 h]
      rfl
    · rw [not_given_iff.1 h]
      rfl
  · rintro rfl
    cases h : (Variables.mk process dotenv).get? name with
    | some text => exact .spelled (given_iff.2 h) rfl
    | none => exact .own (not_given_iff.2 h)

theorem overridden_lambdaForms_iff {b : Bool} :
    Overridden process dotenv lambdaFormsVariable (fun text b => truth? text = some b)
      file.lambdaForms b ↔ file.lambdaFormsOf ⟨process, dotenv⟩ = .ok b := by
  rw [lambdaFormsOf]
  constructor
  · rintro (⟨h, hspells⟩ | h)
    · rw [given_iff.1 h]
      simp only [hspells]
    · rw [not_given_iff.1 h]
  · intro h
    cases hget : (Variables.mk process dotenv).get? lambdaFormsVariable with
    | none =>
      rw [hget] at h
      rw [← Except.ok.inj h]
      exact .own (not_given_iff.2 hget)
    | some text =>
      rw [hget] at h
      cases htruth : truth? text with
      | none => simp [htruth] at h
      | some flag =>
        simp only [htruth, Except.ok.injEq] at h
        exact .spelled (given_iff.2 hget) (h ▸ htruth)

theorem exists_lambdaFormsOf_eq_error_iff (file : Config) :
    (∃ fault, file.lambdaFormsOf ⟨process, dotenv⟩ = .error fault) ↔
      ∃ text, Given process dotenv lambdaFormsVariable text ∧ truth? text = none := by
  simp only [given_iff, lambdaFormsOf]
  cases (Variables.mk process dotenv).get? lambdaFormsVariable with
  | none => simp
  | some text => cases htruth : truth? text <;> simp [htruth]

/-! ### Merging -/

/-- A text with a default in place of an empty one. -/
def Filled (given standard value : Text) : Prop :=
  given = Text.empty ∧ value = standard ∨ given ≠ Text.empty ∧ value = given

theorem filled_iff {given standard value : Text} :
    Filled given standard value ↔ value = orElse given standard := by
  rw [Filled, orElse]
  by_cases h : given = Text.empty
  · simp [h, Text.isEmpty_iff]
  · simp [h, Text.isEmpty_iff]

/-- What the variables, the settings of a file and the defaults come to. -/
structure Merged (process dotenv : Table Text) (file c : Config) : Prop where
  mode : ∃ given, Overridden process dotenv modeVariable (fun text mode => mode = text.trimmed)
    file.mode given ∧ Filled given "auto" c.mode
  path : ∃ given, Overridden process dotenv pathVariable (fun text path => path = text)
    file.path given ∧ Filled given "build/classes.cds" c.path
  top : Overridden process dotenv topVariable (fun text top => top = text) file.top c.top
  lambdaForms : Overridden process dotenv lambdaFormsVariable
    (fun text flag => truth? text = some flag) file.lambdaForms c.lambdaForms
  level : Filled file.level "info" c.level
  release : Filled file.release "0.1.0" c.release
  debugLevel : Filled file.debugLevel "release" c.debugLevel
  require : c.require = file.require
  logFile : c.logFile = file.logFile
  classList : c.classList = file.classList
  vmInfo : c.vmInfo = file.vmInfo
  directory : c.directory = file.directory

/-- **Merging gives every setting its value.** -/
theorem merge_eq_ok_iff : file.merge ⟨process, dotenv⟩ = .ok c ↔ Merged process dotenv file c := by
  rw [merge, override]
  cases hflag : file.lambdaFormsOf ⟨process, dotenv⟩ with
  | error fault =>
    refine ⟨nofun, fun h => ?_⟩
    rw [overridden_lambdaForms_iff.1 h.lambdaForms] at hflag
    cases hflag
  | ok flag =>
    show Except.ok (withDefaults _) = Except.ok c ↔ _
    rw [Except.ok.injEq]
    constructor
    · rintro rfl
      exact
        { mode := ⟨_, overridden_iff.2 rfl, filled_iff.2 rfl⟩
          path := ⟨_, overridden_iff.2 rfl, filled_iff.2 (by simp [withDefaults])⟩
          top := overridden_iff.2 (by simp [withDefaults])
          lambdaForms := overridden_lambdaForms_iff.2 hflag
          level := filled_iff.2 rfl
          release := filled_iff.2 rfl
          debugLevel := filled_iff.2 rfl
          require := rfl
          logFile := rfl
          classList := rfl
          vmInfo := rfl
          directory := rfl }
    · intro h
      obtain ⟨mode, hmode, hmodeFilled⟩ := h.mode
      obtain ⟨path, hpath, hpathFilled⟩ := h.path
      have hlambdaForms := overridden_lambdaForms_iff.1 h.lambdaForms
      rw [hflag] at hlambdaForms
      obtain ⟨⟩ := c
      simp only [withDefaults, mk.injEq]
      refine ⟨?_, ?_, ?_, h.require.symm, (filled_iff.1 h.level).symm, h.logFile.symm,
        Except.ok.inj hlambdaForms, h.classList.symm, (filled_iff.1 h.release).symm,
        (filled_iff.1 h.debugLevel).symm, h.vmInfo.symm, h.directory.symm⟩
      · rw [← overridden_iff.1 hmode]
        exact (filled_iff.1 hmodeFilled).symm
      · have hgiven := overridden_iff.1 hpath
        rw [Option.map_id'] at hgiven
        rw [← hgiven]
        exact (filled_iff.1 hpathFilled).symm
      · have hgiven := overridden_iff.1 h.top
        rw [Option.map_id'] at hgiven
        exact hgiven.symm

/-- Something is merged unless the variable for lambda forms spells no truth value. -/
theorem exists_merge_eq_error_iff (file : Config) :
    (∃ fault, file.merge ⟨process, dotenv⟩ = .error fault) ↔
      ∃ text, Given process dotenv lambdaFormsVariable text ∧ truth? text = none := by
  rw [← exists_lambdaFormsOf_eq_error_iff file, merge, override]
  cases file.lambdaFormsOf ⟨process, dotenv⟩ with
  | error fault => exact ⟨fun _ => ⟨fault, rfl⟩, fun _ => ⟨fault, rfl⟩⟩
  | ok flag => exact ⟨nofun, nofun⟩

/-! ### Checking -/

/-- The mode and the level are known, and a dynamic dump has a place for the layer. -/
structure Sound (c : Config) : Prop where
  mode : c.mode ∈ (["off", "use", "auto", "dump-static", "dump-dynamic"] : List Text)
  top : c.mode = "dump-dynamic" → c.top ≠ Text.empty
  level : c.level.lowered ∈
    (["critical", "error", "warning", "notice", "info", "debug"] : List Text)

theorem exists_verbosity_iff : (∃ n, c.verbosity = .ok n) ↔ c.level.lowered ∈
    (["critical", "error", "warning", "notice", "info", "debug"] : List Text) := by
  have hnames : (["critical", "error", "warning", "notice", "info", "debug"] : List Text)
      = levels.map Prod.fst := rfl
  rw [hnames, verbosity]
  cases hfind : levels.find? fun l => l.1 = c.level.lowered with
  | some l =>
    have hname : l.1 = c.level.lowered := by simpa using List.find?_some hfind
    refine ⟨fun _ => ?_, fun _ => ⟨l.2, rfl⟩⟩
    rw [← hname]
    exact List.mem_map_of_mem (List.mem_of_find?_eq_some hfind)
  | none =>
    refine ⟨nofun, fun hmem => ?_⟩
    obtain ⟨l, hl, hname⟩ := List.mem_map.1 hmem
    simpa [hname] using List.find?_eq_none.1 hfind l hl

theorem mem_modeNames_iff {text : Text} :
    text ∈ (["off", "use", "auto", "dump-static", "dump-dynamic"] : List Text) ↔
      ∃ m : Mode, text = m.name := by
  have hnames : (["off", "use", "auto", "dump-static", "dump-dynamic"] : List Text)
      = Mode.all.map Mode.name := rfl
  rw [hnames, List.mem_map]
  constructor
  · rintro ⟨m, -, hm⟩
    exact ⟨m, hm.symm⟩
  · rintro ⟨m, hm⟩
    exact ⟨m, by cases m <;> decide, hm.symm⟩

/-- **What passes the check is sound.** -/
theorem validate_eq_ok_iff : c.validate = .ok () ↔ Sound c := by
  rw [validate, mode?]
  cases hmode : Mode.ofName? c.mode with
  | none =>
    refine ⟨nofun, fun h => ?_⟩
    obtain ⟨m, hm⟩ := mem_modeNames_iff.1 h.mode
    rw [hm, m.ofName?_name] at hmode
    cases hmode
  | some m =>
    have hname := Mode.ofName?_eq_some_iff.1 hmode
    have hdynamic : m = .dumpDynamic ↔ c.mode = "dump-dynamic" := by
      rw [hname]
      cases m <;> decide
    have hknown := mem_modeNames_iff.2 ⟨m, hname⟩
    simp only [Bool.and_eq_true, decide_eq_true_eq, Text.isEmpty_iff, hdynamic]
    split
    · rename_i hmissing
      exact ⟨nofun, fun h => absurd hmissing.2 (h.top hmissing.1)⟩
    · rename_i hplaced
      have htop : c.mode = "dump-dynamic" → c.top ≠ Text.empty :=
        fun hmode hempty => hplaced ⟨hmode, hempty⟩
      cases hlevel : c.verbosity with
      | ok n => exact ⟨fun _ => ⟨hknown, htop, exists_verbosity_iff.1 ⟨n, hlevel⟩⟩, fun _ => rfl⟩
      | error fault =>
        refine ⟨nofun, fun h => ?_⟩
        obtain ⟨n, hn⟩ := exists_verbosity_iff.2 h.level
        rw [hn] at hlevel
        cases hlevel

theorem checked_eq_ok_iff {d : Config} : c.checked = .ok d ↔ d = c ∧ Sound c := by
  rw [checked, ← validate_eq_ok_iff]
  cases c.validate with
  | ok _ => exact ⟨fun h => ⟨(Except.ok.inj h).symm, rfl⟩, fun h => congrArg Except.ok h.1.symm⟩
  | error fault => exact ⟨nofun, fun h => nomatch h.2⟩

/-! ### Loading -/

variable {t : FileTree} {directory : Text} {contents : Bytes} {d : Config}

theorem complete_eq (h : readVariables t c.directory = .ok dotenv) :
    complete t process c = c.merge ⟨process, dotenv⟩ := by
  rw [complete, h]

theorem readFile_eq (hread : t.read (Path.join directory fileName) = .ok contents)
    (hparse : parse? contents = some file) :
    readFile t directory = .ok { file with directory := t.resolve directory } := by
  rw [readFile, hread]
  simp only [hparse]

/-- **What is loaded** is what the sources and the defaults come to, if that is sound. -/
theorem load_eq_ok_iff (h : readFile t directory = .ok file)
    (hdotenv : readVariables t file.directory = .ok dotenv) :
    load t process directory = .ok c ↔ Merged process dotenv file c ∧ Sound c := by
  rw [load, h, ← merge_eq_ok_iff]
  simp only [complete_eq hdotenv]
  cases file.merge ⟨process, dotenv⟩ with
  | error fault => exact ⟨nofun, fun h => nomatch h.1⟩
  | ok d =>
    simp only [Except.ok.injEq]
    cases hchecked : d.checked with
    | error fault =>
      refine ⟨nofun, ?_⟩
      rintro ⟨rfl, hsound⟩
      rw [checked_eq_ok_iff.2 ⟨rfl, hsound⟩] at hchecked
      cases hchecked
    | ok e =>
      obtain ⟨rfl, hsound⟩ := checked_eq_ok_iff.1 hchecked
      simp only [Except.ok.injEq]
      exact ⟨fun h => ⟨h, h ▸ hsound⟩, fun h => h.1⟩

/-- Loading fails if merging fails or what is merged is not sound. -/
theorem exists_load_eq_error_iff (h : readFile t directory = .ok file)
    (hdotenv : readVariables t file.directory = .ok dotenv) :
    (∃ fault, load t process directory = .error fault) ↔
      (∃ text, Given process dotenv lambdaFormsVariable text ∧ truth? text = none) ∨
        ∃ c, Merged process dotenv file c ∧ ¬ Sound c := by
  rw [← exists_merge_eq_error_iff file]
  constructor
  · rintro ⟨fault, hfault⟩
    cases hmerge : file.merge ⟨process, dotenv⟩ with
    | error fault => exact .inl ⟨fault, rfl⟩
    | ok c =>
      have hmerged := merge_eq_ok_iff.1 hmerge
      refine .inr ⟨c, hmerged, fun hsound => ?_⟩
      rw [(load_eq_ok_iff h hdotenv).2 ⟨hmerged, hsound⟩] at hfault
      cases hfault
  · intro hrefused
    cases hload : load t process directory with
    | error fault => exact ⟨fault, rfl⟩
    | ok c =>
      obtain ⟨hmerged, hsound⟩ := (load_eq_ok_iff h hdotenv).1 hload
      have hmerge := merge_eq_ok_iff.2 hmerged
      rcases hrefused with ⟨fault, hfault⟩ | ⟨d, hd, hunsound⟩
      · rw [hmerge] at hfault
        cases hfault
      · rw [merge_eq_ok_iff.2 hd] at hmerge
        exact absurd (Except.ok.inj hmerge ▸ hsound) hunsound

/-- **Where settings come from and when they are refused.** Given the settings of the file and the
variables beside it, what is loaded has every setting from the source that counts, and is sound.
Loading fails exactly if the variable for lambda forms spells no truth value or what the sources
come to is not sound. -/
theorem load_precedence (hread : t.read (Path.join directory fileName) = .ok contents)
    (hparse : parse? contents = some file)
    (hdotenv : readVariables t (t.resolve directory) = .ok dotenv) :
    (∀ c, load t process directory = .ok c →
      Merged process dotenv { file with directory := t.resolve directory } c ∧
        c.validate = .ok () ∧ Sound c) ∧
      ((∃ fault, load t process directory = .error fault) ↔
        (∃ text, Given process dotenv lambdaFormsVariable text ∧ truth? text = none) ∨
          ∃ c, Merged process dotenv { file with directory := t.resolve directory } c ∧
            ¬ Sound c) := by
  have hfile := readFile_eq hread hparse
  refine ⟨fun c h => ?_, exists_load_eq_error_iff hfile hdotenv⟩
  obtain ⟨hmerged, hsound⟩ := (load_eq_ok_iff hfile hdotenv).1 h
  exact ⟨hmerged, validate_eq_ok_iff.2 hsound, hsound⟩

/-- A settings file. -/
def layeredFile : Bytes := ("[archive]\nmode = \"off\"\npath = \"a.cds\"\n" : Text).bytes

/-- A directory with a settings file and a file of variables. -/
def layeredTree : FileTree :=
  ⟨⟨[("/", .directory), ("/app", .directory),
    ("/app/.env", .file 0 ("CDS_ARCHIVE_PATH=b.cds\nCDS_ARCHIVE_TOP=c.cds\n" : Text).bytes),
    ("/app/cds.toml", .file 1 layeredFile)]⟩, "/", 2⟩

/-- The process gives the mode, hides both paths behind an empty one, and leaves the layer to the
file of variables. With a flag that is no truth value nothing is loaded. -/
theorem load_precedence_layeredTree :
    let process : Table Text := ⟨[(modeVariable, " use "), (pathVariable, "")]⟩
    let dotenv : Table Text := ⟨[(pathVariable, "b.cds"), (topVariable, "c.cds")]⟩
    let loaded : Config :=
      { mode := "use", path := "build/classes.cds", top := "c.cds", level := "info",
        release := "0.1.0", debugLevel := "release", directory := "/app" }
    layeredTree.read (Path.join "/app" fileName) = .ok layeredFile ∧
      parse? layeredFile = some { mode := "off", path := "a.cds" } ∧
      readVariables layeredTree (layeredTree.resolve "/app") = .ok dotenv ∧
      load layeredTree process "/app" = .ok loaded ∧
      Merged process dotenv { mode := "off", path := "a.cds", directory := "/app" } loaded ∧
      ∃ fault, load layeredTree ⟨[(lambdaFormsVariable, "maybe")]⟩ "/app" = .error fault := by
  intro process dotenv loaded
  have hread : layeredTree.read (Path.join "/app" fileName) = .ok layeredFile := by
    decide +kernel
  have hparse : parse? layeredFile = some { mode := "off", path := "a.cds" } := by decide +kernel
  have hdotenv : readVariables layeredTree (layeredTree.resolve "/app") = .ok dotenv := by
    decide +kernel
  have hload : load layeredTree process "/app" = .ok loaded := by decide +kernel
  exact ⟨hread, hparse, hdotenv, hload, ((load_precedence hread hparse hdotenv).1 loaded hload).1,
    (load_precedence hread hparse hdotenv).2.2 (.inl ⟨"maybe", .process rfl, by decide⟩)⟩

end Layers

end Config

end ClassSharing
