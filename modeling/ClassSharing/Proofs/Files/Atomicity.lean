import ClassSharing.Image.Writer
import ClassSharing.Proofs.Files.Replacing
import Mathlib.Data.List.TakeWhile

/-!
# Writing a file as a whole or not at all

An archive is written to a temporary file, which is then moved to the place of the path. Each step
may be refused, and each refusal is answered in its own way. But all that an attempt that fails can
leave behind are directories: the temporary file is gone, and everything that was there is there.

Directories can be in the way of nothing, yet a path may lead through them. So that a path which led
to no file before leads to none after a failure needs a reason. It is that a file at the place of
the path lies in directories which are all there, so that in this case none is made.

## Main definitions

* `FileTree.Prepared`: what an attempt to write to a path leaves if it fails
* `FileTree.KeepsFiles`: all files of a tree, apart from those that are excepted, and no others

## Main results

* `FileTree.Grounded.prepared_of_install`: an attempt that fails leaves directories only
* `FileTree.Prepared.find_eq_ok_iff`: then the path leads to the file that it led to
* `Writer.writeFile_atomic`: an archive is written as a whole or not at all
-/

namespace ClassSharing

/-! ### The directory of a path -/

namespace Path

variable {cs : List Text}

/-- A path is the path of its directory followed by what stands behind the last slash. -/
theorem exists_directory_eq (p : Text) :
    ∃ front last : Text, directory p = clean front ∧ isAbsolute front = isAbsolute p ∧
      components p = components front ++ components last ∧ slash ∉ last.bytes := by
  by_cases hslash : slash ∈ p.bytes
  · obtain ⟨after, before, hsplit, hafter⟩ :=
      List.eq_append_cons_of_mem (List.mem_reverse.2 hslash)
    have hlast : slash ∉ (Text.mk after.reverse).bytes := by simpa using hafter
    obtain rfl : p = ⟨before.reverse⟩ ++ "/" ++ ⟨after.reverse⟩ := by
      obtain ⟨bytes⟩ := p
      have hbytes : bytes = before.reverse ++ [slash] ++ after.reverse := by
        simpa using congrArg List.reverse hsplit
      exact congrArg Text.mk hbytes
    refine ⟨⟨before.reverse⟩ ++ "/", ⟨after.reverse⟩, directory_append _ hlast, ?_, ?_, hlast⟩
    · cases before.reverse <;> rfl
    · rw [components_append, ← append_empty (⟨before.reverse⟩ ++ "/"), components_append,
        components_empty, List.append_nil]
  · refine ⟨Text.empty, p, ?_, ?_, rfl, hslash⟩
    · have hnone : p.bytes.reverse.dropWhile (· ≠ slash) = [] := by
        rw [List.dropWhile_eq_nil_iff]
        intro b hb
        exact decide_eq_true fun heq => hslash (heq ▸ List.mem_reverse.1 hb)
      rw [directory, hnone]
      rfl
    · obtain ⟨bytes⟩ := p
      cases bytes with
      | nil => rfl
      | cons b bytes =>
        have hb : b ≠ slash := fun heq => hslash (heq ▸ List.mem_cons_self)
        simp [isAbsolute, hb, Text.empty]

/-- A last part without slashes leads from a place to something in it, to the place itself or to the
directory around it. -/
theorem follow_last {last : Text} (hcs : ∀ c ∈ cs, Plain c) (hlast : slash ∉ last.bytes) :
    follow cs (components last) = cs ∨ (∃ c, follow cs (components last) = cs ++ [c]) ∨
      follow cs (components last) = cs.dropLast := by
  by_cases hempty : last = Text.empty
  · rw [hempty, components_empty, follow_nil]
    exact .inl rfl
  · have hname : Name last := ⟨hempty, hlast⟩
    rw [components_name hname]
    rcases plain_of_name hname with hplain | rfl | rfl
    · exact .inr (.inl ⟨last, follow_plain hplain cs⟩)
    · exact .inl (follow_dot cs)
    · exact .inr (.inr (follow_dots hcs))

end Path

namespace FileTree

open ClassSharing.Path

section Attempts

variable {t t' t'' : FileTree} {path : Text} {node : FileNode} {result : Except Fault Unit}

/-- Where the directory of a path is, seen from the place of the path. -/
theorem Grounded.exists_resolve_directory (h : t.Grounded) (path : Text) :
    ∃ cs es, (∀ c ∈ cs, Plain c) ∧ t.resolve (directory path) = rooted cs ∧
      t.resolve path = rooted es ∧ (∀ e ∈ es, Plain e) ∧
      (es = cs ∨ (∃ c, es = cs ++ [c]) ∨ es = cs.dropLast) := by
  obtain ⟨front, last, hdirectory, habsolute, hnames, hlast⟩ := exists_directory_eq path
  obtain ⟨ss, hss, hstart, hresolve⟩ := h.exists_start path
  obtain ⟨ss', hss', hstart', hresolve'⟩ := h.exists_start front
  rw [habsolute, hstart] at hstart'
  obtain rfl := (rooted_inj hss hss').1 hstart'
  have hcs := plain_follow hss fun c => name_of_mem_components (p := front)
  have hes := plain_follow hss fun c => name_of_mem_components (p := path)
  rw [hnames, follow_append] at hresolve hes
  exact ⟨_, _, hcs, by rw [hdirectory, h.resolve_clean, hresolve'], hresolve, hes,
    follow_last hcs hlast⟩

/-! ### Attempts that fail -/

/-- What an attempt to write to a path leaves of a tree if it fails: directories may have been made,
but none if there is a file at the path. -/
structure Prepared (t t' : FileTree) (path : Text) : Prop where
  grounded : t'.Grounded
  current : t'.workingDirectory = t.workingDirectory
  frame : ∀ cs, (∀ c ∈ cs, Plain c) → t'.nodes.get? (rooted cs) = t.nodes.get? (rooted cs) ∨
    t.nodes.get? (rooted cs) = none ∧ t'.nodes.get? (rooted cs) = some .directory
  occupied : ∀ node, t.nodes.get? (t.resolve path) = some node → node ≠ .directory →
    ∀ cs, (∀ c ∈ cs, Plain c) → t'.nodes.get? (rooted cs) = t.nodes.get? (rooted cs)

theorem Grounded.prepared (h : t.Grounded) (path : Text) : t.Prepared t path :=
  ⟨h, rfl, fun _ _ => .inl rfl, fun _ _ _ _ _ => rfl⟩

theorem Prepared.of_agree (h : t.Prepared t' path)
    (hcurrent : t''.workingDirectory = t'.workingDirectory)
    (hsame : ∀ cs, (∀ c ∈ cs, Plain c) →
      t''.nodes.get? (rooted cs) = t'.nodes.get? (rooted cs)) : t.Prepared t'' path := by
  refine ⟨h.grounded.of_agree hcurrent hsame, hcurrent.trans h.current, fun cs hcs => ?_,
    fun node hnode hnot cs hcs => (hsame cs hcs).trans (h.occupied node hnode hnot cs hcs)⟩
  rw [hsame cs hcs]
  exact h.frame cs hcs

/-- No directory is made in front of a file. What lies around the place of the path is there
already, and inside of it nothing can be made. -/
theorem Grounded.prepared_of_makeDirectories (h : t.Grounded)
    (hmake : t.makeDirectories (directory path) = (result, t')) : t.Prepared t' path := by
  obtain ⟨hgrounded, hcurrent, hframe⟩ := h.of_makeDirectories hmake
  refine ⟨hgrounded, hcurrent, fun cs _ => hframe _, fun node hnode hnot xs hxs => ?_⟩
  obtain ⟨cs, es, hcs, hresolve, hmeans, hes, hnear⟩ := h.exists_resolve_directory path
  rw [hmeans] at hnode
  rw [FileTree.makeDirectories, hresolve] at hmake
  obtain ⟨-, hmade⟩ := makeEach_frame hmake
  rcases hmade (rooted xs) with hsame | ⟨hnone, -, hmem, hbefore⟩
  · exact hsame
  obtain ⟨ds, hds, heq⟩ := (mem_ancestors hcs).1 (List.mem_reverse.1 hmem)
  obtain rfl := (rooted_inj hxs fun d hd => hcs d (hds.subset hd)).1 heq
  have hwithin : xs <+: es → False := by
    rintro ⟨rest, rfl⟩
    by_cases hrest : rest = []
    · rw [hrest, List.append_nil, hnone] at hnode
      cases hnode
    · rw [h.directory_of_contains hrest hes (contains_of_get? hnode)] at hnone
      cases hnone
  rcases hnear with rfl | ⟨c, rfl⟩ | rfl
  · exact (hwithin hds).elim
  · exact (hwithin (hds.trans (List.prefix_append cs [c]))).elim
  · cases cs using List.reverseRecOn with
    | nil => exact (hwithin hds).elim
    | append_singleton cs c _ =>
      rw [List.dropLast_concat] at hnode hwithin
      rcases List.prefix_concat_iff.1 hds with rfl | hds
      · -- The file would have become a directory.
        have hdirectory := hbefore _
          (mem_takeWhile_ancestors hcs List.prefix_rfl (List.prefix_append cs [c]) (by simp))
        rw [kept_of_frame hnode (hframe _)] at hdirectory
        exact absurd (Option.some.inj hdirectory) hnot
      · exact (hwithin hds).elim

/-- **An attempt that fails leaves directories only.** -/
theorem Grounded.prepared_of_install (h : t.Grounded) {refusals : Refusals} {contents : Bytes}
    {fault : Fault} (hinstall : t.install refusals path contents = (.error fault, t')) :
    t.Prepared t' path := by
  rcases install_cases hinstall with ⟨_, -, hleft⟩ | ⟨hresult, -⟩
  swap
  · cases hresult
  rcases hleft with rfl | ⟨made, hmake⟩ | ⟨ready, hmake, rfl⟩
  · exact h.prepared path
  · exact h.prepared_of_makeDirectories hmake
  · have hready := h.prepared_of_makeDirectories hmake
    obtain ⟨cs, c, hplain, -, htemporary, hdirectory, hnone⟩ := h.exists_temporary hmake
    obtain ⟨-, -, hsame⟩ :=
      hready.grounded.get?_remove_putNew hplain hdirectory hnone contents
    rw [htemporary]
    exact hready.of_agree rfl hsame

/-- **The path leads to the file that it led to**, and to none if it led to none. -/
theorem Prepared.find_eq_ok_iff (h : t.Prepared t' path) (ht : t.Grounded)
    (hnot : node ≠ .directory) : t'.find path = .ok node ↔ t.find path = .ok node := by
  obtain ⟨es, hes, hmeans⟩ := ht.exists_resolve path
  have hmeans' : t'.resolve path = rooted es := by rw [resolve, h.current, ← resolve, hmeans]
  rw [FileTree.find_eq_ok_iff, FileTree.find_eq_ok_iff]
  constructor
  · rintro ⟨place, hplace, hnode, hslash⟩
    obtain rfl := (h.grounded.place_eq_resolve hplace).trans hmeans'
    have hold : t.nodes.get? (rooted es) = some node := by
      rcases h.frame es hes with hsame | ⟨-, hnew⟩
      · rw [← hsame, hnode]
      · rw [hnode] at hnew
        exact absurd (Option.some.inj hnew) hnot
    have hsame := h.occupied node (hmeans ▸ hold) hnot
    exact ⟨rooted es, h.grounded.place_of_directories h.current.symm
      (fun cs hcs hmem => hsame cs hcs ▸ hmem) hplace, hold, hslash⟩
  · rintro ⟨place, hplace, hnode, hslash⟩
    obtain rfl := (ht.place_eq_resolve hplace).trans hmeans
    exact ⟨rooted es, ht.place_of_directories h.current
      (fun cs hcs hmem => kept_of_frame hmem (h.frame cs hcs)) hplace,
      kept_of_frame hnode (h.frame es hes), hslash⟩

/-- What can be read is what is in a file, and nothing from the device that takes no data. -/
theorem read_eq_ok_iff {data : Bytes} :
    t.read path = .ok data ↔
      (∃ number, t.find path = .ok (.file number data)) ∨
        t.find path = .ok .fullDevice ∧ data = [] := by
  rw [read]
  cases t.find path with
  | error reason => simp
  | ok node =>
    cases node with
    | directory => simp
    | file number contents => simp
    | fullDevice => simp [eq_comm]

theorem Prepared.read_eq_ok_iff (h : t.Prepared t' path) (ht : t.Grounded) {data : Bytes} :
    t'.read path = .ok data ↔ t.read path = .ok data := by
  have hfile : ∀ number, t'.find path = .ok (.file number data) ↔
      t.find path = .ok (.file number data) := fun number => h.find_eq_ok_iff ht nofun
  have hdevice : t'.find path = .ok .fullDevice ↔ t.find path = .ok .fullDevice :=
    h.find_eq_ok_iff ht nofun
  rw [FileTree.read_eq_ok_iff, FileTree.read_eq_ok_iff, hdevice]
  exact or_congr_left (exists_congr hfile)

/-! ### Files that stay -/

/-- A tree has the files of another one, apart from what is at places that are excepted, and no
others. Every directory is still there. -/
structure KeepsFiles (t t' : FileTree) (excepted : Text → Prop) : Prop where
  current : t'.workingDirectory = t.workingDirectory
  directories : ∀ cs, (∀ c ∈ cs, Plain c) → t.nodes.get? (rooted cs) = some .directory →
    t'.nodes.get? (rooted cs) = some .directory
  files : ∀ cs, (∀ c ∈ cs, Plain c) → ¬ excepted (rooted cs) → ∀ node, node ≠ .directory →
    (t'.nodes.get? (rooted cs) = some node ↔ t.nodes.get? (rooted cs) = some node)

variable {excepted : Text → Prop}

theorem Prepared.keepsFiles (h : t.Prepared t' path) : t.KeepsFiles t' fun _ => False := by
  refine ⟨h.current, fun cs hcs hmem => kept_of_frame hmem (h.frame cs hcs),
    fun cs hcs _ node hnot => ⟨fun hmem => ?_, fun hmem => kept_of_frame hmem (h.frame cs hcs)⟩⟩
  rcases h.frame cs hcs with hsame | ⟨-, hnew⟩
  · rw [← hsame, hmem]
  · rw [hmem] at hnew
    exact absurd (Option.some.inj hnew) hnot

/-- A file has been put at the place of the path, and the rest is as it was when the directories had
been made. -/
theorem Grounded.keepsFiles_of_install (h : t.Grounded) {refusals : Refusals} {contents : Bytes}
    (hinstall : t.install refusals path contents = (.ok (), t')) :
    t.KeepsFiles t' (· = t.resolve path) := by
  obtain ⟨ready, ds, d, hmake, hds, hmeans, -, -, hnot, hcurrent, hnodes⟩ :=
    h.exists_installed hinstall
  have hready := (h.prepared_of_makeDirectories hmake).keepsFiles
  refine ⟨hcurrent, fun cs hcs hmem => ?_, fun cs hcs hother node hnode => ?_⟩
  · have hdirectory := hready.directories cs hcs hmem
    rw [hnodes cs hcs, if_neg, hdirectory]
    rintro rfl
    exact hnot hdirectory
  · rw [hnodes cs hcs, if_neg]
    · exact hready.files cs hcs id node hnode
    · rintro rfl
      exact hother hmeans.symm

/-- A path that does not mean an excepted place leads to what it led to. -/
theorem KeepsFiles.find_eq_ok (h : t.KeepsFiles t' excepted) (ht : t.Grounded)
    (hother : ¬ excepted (t.resolve path)) (hfind : t.find path = .ok node) :
    t'.find path = .ok node := by
  obtain ⟨place, hplace, hnode, hslash⟩ := find_eq_ok_iff.1 hfind
  obtain ⟨cs, hcs, hmeans⟩ := ht.exists_resolve path
  obtain rfl := (ht.place_eq_resolve hplace).trans hmeans
  refine find_eq_ok_iff.2
    ⟨rooted cs, ht.place_of_directories h.current h.directories hplace, ?_, hslash⟩
  by_cases hdirectory : node = .directory
  · exact hdirectory ▸ h.directories cs hcs (hdirectory ▸ hnode)
  · exact (h.files cs hcs (hmeans ▸ hother) node hdirectory).2 hnode

end Attempts

end FileTree

namespace Writer

open FileTree

/-- **An archive is written as a whole or not at all**, whatever step is refused. If writing fails,
what can be read at the path is what could be read before; if it succeeds, it is the archive. All
other files are what they were and there are no others, so no temporary file is left. -/
theorem writeFile_atomic (w : Writer) {t : FileTree} (h : t.Grounded) (refusals : Refusals)
    (path : Text) :
    (∀ fault t', w.writeFile t refusals path = (.error fault, t') →
      (∀ data, t'.read path = .ok data ↔ t.read path = .ok data) ∧
        t.KeepsFiles t' (fun _ => False) ∧
        ∀ other node, t.find other = .ok node → t'.find other = .ok node) ∧
      ∀ t', w.writeFile t refusals path = (.ok (), t') →
        t'.read path = .ok w.encode ∧ t.KeepsFiles t' (· = t.resolve path) ∧
          ∀ other node, t.resolve other ≠ t.resolve path → t.find other = .ok node →
            t'.find other = .ok node := by
  constructor
  · intro fault t' hwrite
    have hprepared := h.prepared_of_install hwrite
    exact ⟨fun data => hprepared.read_eq_ok_iff h, hprepared.keepsFiles,
      fun other node => hprepared.keepsFiles.find_eq_ok h id⟩
  · intro t' hwrite
    obtain ⟨-, -, ⟨number, hfind⟩, hothers⟩ := h.install hwrite
    exact ⟨read_eq_ok_iff.2 (.inl ⟨number, hfind⟩), h.keepsFiles_of_install hwrite, hothers⟩

/-- A tree with one file. -/
def occupiedTree : FileTree := ⟨⟨[("/", .directory), ("/lib.cds", .file 0 [1, 2, 3])]⟩, "/", 1⟩

theorem grounded_occupiedTree : occupiedTree.Grounded := by
  have hplain : ∀ d ∈ ([] : List Text) ++ [("lib.cds" : Text)], Path.Plain d := by
    simpa using ⟨⟨by decide, by decide⟩, by decide, by decide⟩
  exact (grounded_root.put hplain rfl (by decide) (.file 0 [1, 2, 3])).of_agree rfl fun _ _ => rfl

/-- Where the temporary file beside the file is. -/
theorem freshPath_occupiedTree : occupiedTree.freshPath "/" = "/.cds-*" := by
  have hname : Path.join "/" (temporaryName 0) = "/.cds-*" := by decide
  rw [freshPath_of_free (by rw [hname]; rfl), hname]

theorem install_occupiedTree (refusals : Refusals) (hmake : refusals.makeDirectory = none)
    (hcreate : refusals.create = none) (hwrite : refusals.write = none)
    (hclose : refusals.close = none) (contents : Bytes) :
    (occupiedTree.install refusals "/lib.cds" contents).1 = match refusals.rename with
      | some reason => .error (.within (.installing "/lib.cds")
          (.of (.renameRefused "/.cds-*" "/lib.cds" reason)))
      | none => .ok () := by
  have hdirectory : occupiedTree.resolve (Path.directory "/lib.cds") = "/" := rfl
  have hready : occupiedTree.makeDirectories (Path.directory "/lib.cds")
      = (.ok (), occupiedTree) := rfl
  rw [install]
  simp only [hmake, hready, hdirectory, freshPath_occupiedTree, hcreate, hwrite, hclose]
  cases refusals.rename <;> rfl

/-- An archive takes the place of another file, unless the move is refused. -/
theorem writeFile_atomic_occupiedTree :
    let w := Writer.new Image.staticKind ⟨"1", "release", "vm", 21⟩ 42 0
    let refused := w.writeFile occupiedTree { rename := some .noSpace } "/lib.cds"
    let done := w.writeFile occupiedTree {} "/lib.cds"
    occupiedTree.Grounded ∧ (∃ fault, refused.1 = .error fault) ∧
      refused.2.read "/lib.cds" = .ok [1, 2, 3] ∧ done.1 = .ok () ∧
      done.2.read "/lib.cds" = .ok w.encode := by
  intro w refused done
  have hrefused := install_occupiedTree { rename := some .noSpace } rfl rfl rfl rfl w.encode
  have hdone := install_occupiedTree {} rfl rfl rfl rfl w.encode
  have hatomic := fun refusals => writeFile_atomic w grounded_occupiedTree refusals "/lib.cds"
  exact ⟨grounded_occupiedTree, ⟨_, hrefused⟩,
    (((hatomic _).1 _ refused.2 (Prod.ext hrefused rfl)).1 [1, 2, 3]).2 rfl, hdone,
    ((hatomic _).2 done.2 (Prod.ext hdone rfl)).1⟩

end Writer

end ClassSharing
