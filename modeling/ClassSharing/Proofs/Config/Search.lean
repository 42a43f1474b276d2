import ClassSharing.Proofs.Config.Precedence
import ClassSharing.Proofs.Files.Places
import Mathlib.Logic.Function.Iterate

/-!
# Looking for a settings file

A settings file is looked for from a directory upwards. Nothing tells the search that it has come to
the root, except that the directory around the root is the root. It ends because the directory
around any other one has a name less, which is a fact about clean absolute paths: the directory
around a relative path need not be shorter.

The directories that the search comes to are those of `Path.ancestors`, in their order, and it stops
at the first that has a settings file. What it answers there is what loading from that directory
answers, whether that succeeds or not.

## Main definitions

* `Config.standard`: the settings without a settings file
* `Config.Search`: the search, one directory after the other

## Main results

* `Config.search_iff`: the search ends, with what `Config.find` answers
* `Config.find_nearest`: what is found is what the nearest settings file says
-/

namespace ClassSharing

open ClassSharing.Path

/-! ### Directories upwards -/

namespace Path

variable {cs : List Text} {c : Text} {p : Text → Bool} {n : Nat}

theorem directory_concat (h : ∀ d ∈ cs ++ [c], Plain d) :
    directory (rooted (cs ++ [c])) = rooted cs := by
  rw [directory_rooted h, List.dropLast_concat]

/-- The root is the only directory that is the one around itself. -/
theorem directory_ne (h : ∀ d ∈ cs ++ [c], Plain d) :
    directory (rooted (cs ++ [c])) ≠ rooted (cs ++ [c]) := by
  rw [directory_concat h, ne_eq, rooted_inj (fun d hd => h d (List.mem_append_left _ hd)) h]
  simp

/-- The way up ends at the root, which is as many directories away as there are names. -/
theorem iterate_directory_length (h : ∀ d ∈ cs, Plain d) :
    directory^[cs.length] (rooted cs) = rooted [] := by
  induction cs using List.reverseRecOn with
  | nil => rfl
  | append_singleton cs c ih =>
    rw [List.length_append, List.length_singleton, Function.iterate_succ_apply,
      directory_concat h, ih fun d hd => h d (List.mem_append_left _ hd)]

/-- The directories on the way up are those of some of the names. -/
theorem exists_iterate_directory (h : ∀ d ∈ cs, Plain d) (n : Nat) :
    ∃ ds, (∀ d ∈ ds, Plain d) ∧ directory^[n] (rooted cs) = rooted ds := by
  induction n with
  | zero => exact ⟨cs, h, rfl⟩
  | succ n ih =>
    obtain ⟨ds, hds, heq⟩ := ih
    refine ⟨ds.dropLast, fun d hd => hds d (List.dropLast_subset ds hd), ?_⟩
    rw [Function.iterate_succ_apply', heq, directory_rooted hds]

/-- **The nearest of the directories upwards** is the first of them that passes. -/
theorem find?_ancestors_eq_some (h : ∀ d ∈ cs, Plain d)
    (hn : p (directory^[n] (rooted cs)) = true)
    (hless : ∀ k < n, p (directory^[k] (rooted cs)) = false) :
    (ancestors (rooted cs)).find? p = some (directory^[n] (rooted cs)) := by
  induction cs using List.reverseRecOn generalizing n with
  | nil =>
    have hfixed : directory^[n] (rooted []) = rooted [] := Function.iterate_fixed rfl n
    rw [hfixed] at hn ⊢
    exact List.find?_cons_of_pos hn
  | append_singleton cs c ih =>
    have hcs : ∀ d ∈ cs, Plain d := fun d hd => h d (List.mem_append_left _ hd)
    rw [ancestors_concat h]
    cases n with
    | zero => exact List.find?_cons_of_pos hn
    | succ n =>
      have hup : ∀ k, directory^[k + 1] (rooted (cs ++ [c])) = directory^[k] (rooted cs) :=
        fun k => by rw [Function.iterate_succ_apply, directory_concat h]
      have hfirst : p (rooted (cs ++ [c])) = false := hless 0 (Nat.succ_pos n)
      rw [hup] at hn ⊢
      rw [List.find?_cons_of_neg (by rw [hfirst]; exact Bool.false_ne_true)]
      exact ih hcs hn fun k hk => hup k ▸ hless (k + 1) (Nat.succ_lt_succ hk)

theorem find?_ancestors_eq_none (h : ∀ d ∈ cs, Plain d)
    (hnone : ∀ n, p (directory^[n] (rooted cs)) = false) :
    (ancestors (rooted cs)).find? p = none := by
  induction cs using List.reverseRecOn with
  | nil =>
    have hroot : p (rooted []) = false := hnone 0
    rw [show ancestors (rooted []) = [rooted []] from rfl]
    exact List.find?_cons_of_neg (by rw [hroot]; exact Bool.false_ne_true)
  | append_singleton cs c ih =>
    have hfirst : p (rooted (cs ++ [c])) = false := hnone 0
    rw [ancestors_concat h,
      List.find?_cons_of_neg (by rw [hfirst]; exact Bool.false_ne_true)]
    refine ih (fun d hd => h d (List.mem_append_left _ hd)) fun n => ?_
    rw [← directory_concat h, ← Function.iterate_succ_apply]
    exact hnone (n + 1)

end Path

namespace Config

section Searching

variable {t : FileTree} {process : Table Text} {start directory : Text} {cs : List Text}
  {answer : Except Fault Config} {c : Config}

/-! ### The search -/

/-- The settings of a directory without a settings file: variables and defaults, checked. -/
def standard (t : FileTree) (process : Table Text) (start : Text) : Except Fault Config :=
  match complete t process { directory := start } with
  | .error fault => .error fault
  | .ok c => c.checked

/-- The search that begins at `start`, from the directory on that it has come to. -/
inductive Search (t : FileTree) (process : Table Text) (start : Text) :
    Text → Except Fault Config → Prop
  | found {dir} (h : isIn t dir = true) : Search t process start dir (load t process dir)
  | root {dir} (h : isIn t dir = false) (htop : Path.directory dir = dir) :
    Search t process start dir (standard t process start)
  | up {dir answer} (h : isIn t dir = false) (hup : Path.directory dir ≠ dir)
    (hrest : Search t process start (Path.directory dir) answer) :
    Search t process start dir answer

/-- The search stops where there is a settings file. -/
theorem search_of_isIn (h : isIn t directory = true) :
    Search t process start directory answer ↔ answer = load t process directory := by
  constructor
  · rintro (hin | ⟨hout, -⟩ | ⟨hout, -, -⟩)
    · rfl
    · simp [h] at hout
    · simp [h] at hout
  · rintro rfl
    exact .found h

/-- **The search ends**, and its answer is told by the first directory upwards that has a settings
file. -/
theorem search_iff (hcs : ∀ d ∈ cs, Plain d) :
    Search t process start (rooted cs) answer ↔
      answer = match (ancestors (rooted cs)).find? (isIn t) with
        | some directory => load t process directory
        | none => standard t process start := by
  induction cs using List.reverseRecOn with
  | nil =>
    rw [show ancestors (rooted []) = [rooted []] from rfl]
    cases hin : isIn t (rooted []) with
    | true => rw [List.find?_cons_of_pos hin, search_of_isIn hin]
    | false =>
      rw [List.find?_cons_of_neg (by simp [hin]), List.find?_nil]
      constructor
      · rintro (h | ⟨-, -⟩ | ⟨-, hup, -⟩)
        · simp [hin] at h
        · rfl
        · exact absurd rfl hup
      · rintro rfl
        exact .root hin rfl
  | append_singleton cs c ih =>
    rw [ancestors_concat hcs]
    cases hin : isIn t (rooted (cs ++ [c])) with
    | true => rw [List.find?_cons_of_pos hin, search_of_isIn hin]
    | false =>
      rw [List.find?_cons_of_neg (by simp [hin]),
        ← ih fun d hd => hcs d (List.mem_append_left _ hd)]
      constructor
      · rintro (h | ⟨-, htop⟩ | ⟨-, -, hrest⟩)
        · simp [hin] at h
        · exact absurd htop (directory_ne hcs)
        · rwa [directory_concat hcs] at hrest
      · intro hrest
        exact .up hin (directory_ne hcs) (by rwa [directory_concat hcs])

/-! ### What is found -/

theorem directory_of_readFile (h : readFile t directory = .ok c) :
    c.directory = t.resolve directory := by
  rw [readFile] at h
  split at h
  · cases h
  split at h
  · cases h
  · rw [← Except.ok.inj h]

/-- What is loaded from a directory: the settings of its file, with the variables beside it. -/
theorem load_eq_ok_iff_exists : load t process directory = .ok c ↔
    ∃ file dotenv, readFile t directory = .ok file ∧
      readVariables t (t.resolve directory) = .ok dotenv ∧ Merged process dotenv file c ∧
      Sound c := by
  constructor
  · intro h
    cases hfile : readFile t directory with
    | error fault =>
      rw [load, hfile] at h
      cases h
    | ok file =>
      have hdirectory := directory_of_readFile hfile
      cases hdotenv : readVariables t file.directory with
      | error fault =>
        rw [load, hfile] at h
        simp only [complete, hdotenv] at h
        cases h
      | ok dotenv =>
        exact ⟨file, dotenv, rfl, hdirectory ▸ hdotenv, (load_eq_ok_iff hfile hdotenv).1 h⟩
  · rintro ⟨file, dotenv, hfile, hdotenv, hmerged⟩
    exact (load_eq_ok_iff hfile (directory_of_readFile hfile ▸ hdotenv)).2 hmerged

/-- The settings without a settings file, with the variables in the directory. -/
theorem standard_eq_ok_iff : standard t process start = .ok c ↔
    ∃ dotenv, readVariables t start = .ok dotenv ∧
      Merged process dotenv { directory := start } c ∧ Sound c := by
  rw [standard]
  cases hdotenv : readVariables t start with
  | error fault =>
    simp only [complete, hdotenv]
    constructor
    · intro h
      cases h
    · rintro ⟨dotenv, hread, -⟩
      cases hread
  | ok dotenv =>
    rw [complete_eq hdotenv]
    simp only [Except.ok.injEq, exists_eq_left', ← merge_eq_ok_iff]
    cases Config.merge { directory := start } ⟨process, dotenv⟩ with
    | error fault =>
      constructor
      · intro h
        cases h
      · rintro ⟨hmerge, -⟩
        cases hmerge
    | ok d =>
      simp only [checked_eq_ok_iff, Except.ok.injEq]
      constructor
      · rintro ⟨rfl, hsound⟩
        exact ⟨rfl, hsound⟩
      · rintro ⟨rfl, hsound⟩
        exact ⟨rfl, hsound⟩

theorem find_eq (t : FileTree) (process : Table Text) (start : Text) :
    find t process start = match (ancestors (t.resolve start)).find? (isIn t) with
      | some directory => load t process directory
      | none => standard t process (t.resolve start) := rfl

/-- **The nearest settings file counts.** From an absolute directory the search ends, at the root at
the latest. If a directory on the way up has a settings file, what is found is what is loaded from
the nearest one, with the variables beside that file. If none has, what is found are the variables
and the defaults for the directory of the start. -/
theorem find_nearest (t : FileTree) (process : Table Text) (h : isAbsolute start = true) :
    (∀ answer, Search t process (clean start) (clean start) answer ↔
      answer = find t process start) ∧
      Path.directory^[(cleanComponents start).length] (clean start) = "/" ∧
      (∀ n, isIn t (Path.directory^[n] (clean start)) = true →
        (∀ k < n, isIn t (Path.directory^[k] (clean start)) = false) →
        find t process start = load t process (Path.directory^[n] (clean start)) ∧
          ∀ c, find t process start = .ok c ↔
            ∃ file dotenv, readFile t (Path.directory^[n] (clean start)) = .ok file ∧
              file.directory = Path.directory^[n] (clean start) ∧
              readVariables t (Path.directory^[n] (clean start)) = .ok dotenv ∧
              Merged process dotenv file c ∧ Sound c) ∧
      ((∀ n, isIn t (Path.directory^[n] (clean start)) = false) →
        find t process start = standard t process (clean start) ∧
          ∀ c, find t process start = .ok c ↔
            ∃ dotenv, readVariables t (clean start) = .ok dotenv ∧
              Merged process dotenv { directory := clean start } c ∧ Sound c) := by
  have hresolve : t.resolve start = clean start := by
    rw [FileTree.resolve, Path.absolute, if_pos h]
  have hfind := find_eq t process start
  have hnames : clean start = rooted (cleanComponents start) := by rw [clean, if_pos h]
  have hplain : ∀ d ∈ cleanComponents start, Plain d := by
    rw [cleanComponents, h]
    show ∀ d ∈ follow [] (components start), Plain d
    exact plain_follow (List.forall_mem_nil _) fun d => name_of_mem_components
  rw [hresolve] at hfind
  rw [hnames] at hfind ⊢
  generalize cleanComponents start = cs at *
  refine ⟨fun answer => ?_, iterate_directory_length hplain, fun n hn hless => ?_, fun hnone => ?_⟩
  · rw [search_iff hplain, hfind]
  · rw [find?_ancestors_eq_some hplain hn hless] at hfind
    refine ⟨hfind, fun c => ?_⟩
    obtain ⟨ds, hds, heq⟩ := exists_iterate_directory hplain n
    have hplace := t.resolve_rooted hds
    rw [hfind, load_eq_ok_iff_exists, heq, hplace]
    refine exists_congr fun file => exists_congr fun dotenv => and_congr_right fun hfile => ?_
    have hdirectory := (directory_of_readFile hfile).trans hplace
    exact ⟨fun hrest => ⟨hdirectory, hrest⟩, fun hrest => hrest.2⟩
  · rw [find?_ancestors_eq_none hplain hnone] at hfind
    exact ⟨hfind, fun c => by rw [hfind, standard_eq_ok_iff]⟩

/-- Two directories below the settings file it is found, and from the root nothing is. -/
theorem find_nearest_layeredTree :
    isAbsolute "/app/x/./y" = true ∧
      find layeredTree Table.empty "/app/x/./y" = load layeredTree Table.empty "/app" ∧
      find layeredTree Table.empty "/" = standard layeredTree Table.empty "/" := by
  have hnested : isAbsolute "/app/x/./y" = true := by decide
  refine ⟨hnested, ?_, ?_⟩
  · refine ((find_nearest layeredTree Table.empty hnested).2.2.1 2 (by decide) ?_).1
    decide
  · refine ((find_nearest layeredTree Table.empty (by decide)).2.2.2 fun n => ?_).1
    rw [Function.iterate_fixed (by decide)]
    decide

end Searching

end Config

end ClassSharing
