import ClassSharing.Files.Tree
import ClassSharing.Proofs.Table
import Mathlib.Data.List.Induction

/-!
# Where paths lead

A path is followed name by name through the directories of a tree, and it is also resolved without
looking at the tree, by cancelling `..` against the name before it. Both come to the same place
wherever the first one comes to a place at all. So the place of a path does not depend on the tree:
it is the clean absolute form of the path.

The argument is one about lists of names. A clean absolute path is made of names none of which is
`.` or `..`, and it gives them back; a step of a walk does to them what cleaning does.

## Main definitions

* `Path.Name`, `Path.Plain`: what stands between slashes, and what may in a clean absolute path

## Main results

* `Path.components_rooted`: the names of a clean absolute path
* `Path.clean_join`: cleaning the end of a path does not change what it means
* `FileTree.place_eq_resolve`: a path leads to its clean absolute form
-/

namespace ClassSharing

/-! ### Cutting at slashes -/

namespace Text

variable {separator : UInt8}

theorem splitBytes_ne_nil (separator : UInt8) (bytes : Bytes) :
    splitBytes separator bytes ≠ [] := by
  cases bytes with
  | nil => exact List.cons_ne_nil _ _
  | cons b bytes =>
    rw [splitBytes]
    split
    · exact List.cons_ne_nil _ _
    · split <;> exact List.cons_ne_nil _ _

theorem splitBytes_append (separator : UInt8) (before after : Bytes) :
    splitBytes separator (before ++ separator :: after)
      = splitBytes separator before ++ splitBytes separator after := by
  induction before with
  | nil => simp [splitBytes]
  | cons b before ih =>
    rw [List.cons_append, splitBytes, splitBytes, ih]
    by_cases hb : b = separator
    · simp [hb]
    · cases hsplit : splitBytes separator before with
      | nil => exact absurd hsplit (splitBytes_ne_nil separator before)
      | cons piece pieces => simp [hb]

theorem splitBytes_of_not_mem {bytes : Bytes} (h : separator ∉ bytes) :
    splitBytes separator bytes = [bytes] := by
  induction bytes with
  | nil => rfl
  | cons b bytes ih =>
    rw [List.mem_cons, not_or] at h
    rw [splitBytes, if_neg (Ne.symm h.1), ih h.2]

theorem not_mem_of_mem_splitBytes {bytes piece : Bytes} (h : piece ∈ splitBytes separator bytes) :
    separator ∉ piece := by
  induction bytes generalizing piece with
  | nil =>
    rw [splitBytes, List.mem_singleton] at h
    rw [h]
    exact List.not_mem_nil
  | cons b bytes ih =>
    rw [splitBytes] at h
    split at h
    · rcases List.mem_cons.1 h with rfl | h
      · exact List.not_mem_nil
      · exact ih h
    · rename_i hb
      split at h
      · rename_i hsplit
        exact absurd hsplit (splitBytes_ne_nil separator bytes)
      · rename_i first rest hsplit
        rw [hsplit] at ih
        rcases List.mem_cons.1 h with rfl | h
        · rw [List.mem_cons, not_or]
          exact ⟨Ne.symm hb, ih List.mem_cons_self⟩
        · exact ih (List.mem_cons_of_mem _ h)

theorem eq_append_of_dropFront? {start bytes rest : Bytes}
    (h : dropFront? start bytes = some rest) : bytes = start ++ rest := by
  induction start generalizing bytes with
  | nil => exact Option.some.inj h
  | cons a start ih =>
    cases bytes with
    | nil => cases h
    | cons b bytes =>
      rw [dropFront?] at h
      split at h
      · rename_i hab
        rw [ih h, hab]
        rfl
      · cases h

theorem exists_append_of_beginsWith {start t : Text} (h : beginsWith start t = true) :
    ∃ rest, t = start ++ rest := by
  obtain ⟨rest, hrest⟩ := Option.isSome_iff_exists.1 h
  obtain ⟨bytes, hbytes, -⟩ := Option.map_eq_some_iff.1 hrest
  exact ⟨⟨bytes⟩, congrArg mk (eq_append_of_dropFront? hbytes)⟩

end Text

namespace Path

/-! ### Names -/

/-- What stands between the slashes of a path. -/
structure Name (c : Text) : Prop where
  nonempty : c ≠ Text.empty
  whole : slash ∉ c.bytes

/-- A name that leads from a directory to something in it. -/
structure Plain (c : Text) : Prop extends Name c where
  not_dot : c ≠ "."
  not_dots : c ≠ ".."

variable {c p q : Text} {cs before : List Text}

theorem components_append (p q : Text) :
    components (p ++ "/" ++ q) = components p ++ components q := by
  have hbytes : (p ++ "/" ++ q).bytes = p.bytes ++ slash :: q.bytes := by
    simp [show (Text.ofString "/").bytes = [slash] from rfl]
  rw [components, Text.splitOn, hbytes, Text.splitBytes_append, List.map_append, List.filter_append]
  rfl

theorem components_empty : components Text.empty = [] := rfl

theorem components_name (h : Name c) : components c = [c] := by
  have hempty : c.isEmpty = false := by
    rw [Bool.eq_false_iff, ne_eq, Text.isEmpty_iff]
    exact h.nonempty
  rw [components, Text.splitOn, Text.splitBytes_of_not_mem h.whole]
  simp [hempty]

theorem name_of_mem_components (h : c ∈ components p) : Name c := by
  obtain ⟨hc, hempty⟩ := List.mem_filter.1 h
  obtain ⟨piece, hpiece, rfl⟩ := List.mem_map.1 hc
  refine ⟨?_, Text.not_mem_of_mem_splitBytes hpiece⟩
  rintro heq
  rw [heq] at hempty
  cases hempty

/-- A relative path begins with a name. -/
theorem components_ne_nil (h : isAbsolute p = false) (hne : p ≠ Text.empty) :
    components p ≠ [] := by
  obtain ⟨bytes⟩ := p
  cases bytes with
  | nil => exact absurd rfl hne
  | cons b bytes =>
    have hb : b ≠ slash := fun heq => by simp [isAbsolute, heq] at h
    rw [components, Text.splitOn, Text.splitBytes, if_neg hb]
    cases hsplit : Text.splitBytes slash bytes with
    | nil => exact absurd hsplit (Text.splitBytes_ne_nil slash bytes)
    | cons piece pieces => simp [Text.isEmpty]

theorem components_join (h : ∀ c ∈ cs, Name c) : components (Text.join "/" cs) = cs := by
  induction cs with
  | nil => rfl
  | cons c rest ih =>
    obtain ⟨hc, hrest⟩ := List.forall_mem_cons.1 h
    cases rest with
    | nil => exact components_name hc
    | cons d rest =>
      rw [Text.join, components_append, components_name hc, ih hrest]
      rfl

/-- **The names of an absolute path.** -/
theorem components_rooted (h : ∀ c ∈ cs, Name c) : components (rooted cs) = cs := by
  have happend : rooted cs = Text.empty ++ "/" ++ Text.join "/" cs := rfl
  rw [happend, components_append, components_join h]
  rfl

theorem isAbsolute_rooted (cs : List Text) : isAbsolute (rooted cs) = true := rfl

theorem isAbsolute_append (h : isAbsolute p = true) (q : Text) : isAbsolute (p ++ q) = true := by
  obtain ⟨bytes⟩ := p
  cases bytes with
  | nil => cases h
  | cons b bytes => exact h

theorem rooted_injective (h : ∀ c ∈ cs, Name c) {ds : List Text} (h' : ∀ d ∈ ds, Name d)
    (heq : rooted cs = rooted ds) : cs = ds := by
  rw [← components_rooted h, heq, components_rooted h']

theorem rooted_inj (h : ∀ c ∈ cs, Plain c) {ds : List Text} (h' : ∀ d ∈ ds, Plain d) :
    rooted cs = rooted ds ↔ cs = ds :=
  ⟨rooted_injective (fun c hc => (h c hc).toName) fun d hd => (h' d hd).toName, congrArg rooted⟩

/-! ### Cleaning -/

@[simp] theorem enter_dot (absolute : Bool) (before : List Text) :
    enter absolute before "." = before := if_pos rfl

theorem enter_plain (h : Plain c) (absolute : Bool) (before : List Text) :
    enter absolute before c = c :: before := by
  rw [enter.eq_def, if_neg h.not_dot, if_neg h.not_dots]

/-- From the root on, `..` drops a name if there is one. -/
theorem enter_dots (h : ∀ c ∈ before, Plain c) : enter true before ".." = before.tail := by
  rw [enter.eq_def, if_neg (by decide), if_pos rfl]
  cases before with
  | nil => rfl
  | cons last rest => exact if_neg (h last List.mem_cons_self).not_dots

theorem plain_of_name (h : Name c) : Plain c ∨ c = "." ∨ c = ".." := by
  by_cases hdot : c = "."
  · exact .inr (.inl hdot)
  · by_cases hdots : c = ".."
    · exact .inr (.inr hdots)
    · exact .inl ⟨h, hdot, hdots⟩

theorem plain_enter (hbefore : ∀ c ∈ before, Plain c) (hc : Name c) :
    ∀ d ∈ enter true before c, Plain d := by
  rcases plain_of_name hc with hc | rfl | rfl
  · rw [enter_plain hc]
    exact List.forall_mem_cons.2 ⟨hc, hbefore⟩
  · rw [enter_dot]
    exact hbefore
  · rw [enter_dots hbefore]
    exact fun d hd => hbefore d (List.mem_of_mem_tail hd)

/-- **The names that are left of an absolute path are plain.** -/
theorem plain_foldl_enter (hbefore : ∀ c ∈ before, Plain c) (hcs : ∀ c ∈ cs, Name c) :
    ∀ d ∈ cs.foldl (enter true) before, Plain d := by
  induction cs generalizing before with
  | nil => exact hbefore
  | cons c rest ih =>
    obtain ⟨hc, hrest⟩ := List.forall_mem_cons.1 hcs
    exact ih (plain_enter hbefore hc) hrest

theorem foldl_enter_plain (h : ∀ c ∈ cs, Plain c) (before : List Text) :
    cs.foldl (enter true) before = cs.reverse ++ before := by
  induction cs generalizing before with
  | nil => rfl
  | cons c rest ih =>
    obtain ⟨hc, hrest⟩ := List.forall_mem_cons.1 h
    rw [List.foldl_cons, enter_plain hc, ih hrest]
    simp

/-- Names taken from the root on, after some plain names. -/
def follow (cs names : List Text) : List Text := (names.foldl (enter true) cs.reverse).reverse

theorem plain_follow {names : List Text} (hcs : ∀ c ∈ cs, Plain c) (hnames : ∀ c ∈ names, Name c) :
    ∀ d ∈ follow cs names, Plain d := by
  intro d hd
  exact plain_foldl_enter (fun c hc => hcs c (List.mem_reverse.1 hc)) hnames d
    (List.mem_reverse.1 hd)

theorem follow_nil (cs : List Text) : follow cs [] = cs := List.reverse_reverse cs

theorem follow_append (cs names more : List Text) :
    follow cs (names ++ more) = follow (follow cs names) more := by
  rw [follow, follow, follow, List.foldl_append, List.reverse_reverse]

theorem follow_plain (h : Plain c) (cs : List Text) : follow cs [c] = cs ++ [c] := by
  rw [follow, List.foldl_cons, enter_plain h, List.foldl_nil, List.reverse_cons,
    List.reverse_reverse]

theorem follow_dot (cs : List Text) : follow cs ["."] = cs := by
  rw [follow, List.foldl_cons, enter_dot, List.foldl_nil, List.reverse_reverse]

theorem follow_dots (h : ∀ c ∈ cs, Plain c) : follow cs [".."] = cs.dropLast := by
  rw [follow, List.foldl_cons, enter_dots fun c hc => h c (List.mem_reverse.1 hc), List.foldl_nil,
    List.tail_reverse, List.reverse_reverse]

theorem clean_of_isAbsolute (h : isAbsolute p = true) :
    clean p = rooted (follow [] (components p)) := by
  rw [clean, cleanComponents, h]
  rfl

theorem cleanComponents_rooted (h : ∀ c ∈ cs, Plain c) : cleanComponents (rooted cs) = cs := by
  rw [cleanComponents, components_rooted fun c hc => (h c hc).toName, isAbsolute_rooted,
    foldl_enter_plain h, List.append_nil, List.reverse_reverse]

theorem clean_rooted (h : ∀ c ∈ cs, Plain c) : clean (rooted cs) = rooted cs := by
  rw [clean, if_pos (isAbsolute_rooted cs), cleanComponents_rooted h]

/-- What a path means in a directory. -/
theorem join_rooted (h : ∀ c ∈ cs, Plain c) (p : Text) :
    join (rooted cs) p = rooted (follow cs (components p)) := by
  have hnames : ∀ c ∈ cs, Name c := fun c hc => (h c hc).toName
  rw [join, if_neg (by simp [show (rooted cs).isEmpty = false from rfl])]
  by_cases hp : p = Text.empty
  · subst hp
    rw [if_pos (by rfl), clean_rooted h, components_empty, follow_nil]
  · rw [if_neg (by rwa [Text.isEmpty_iff]),
      clean_of_isAbsolute (isAbsolute_append (isAbsolute_append (isAbsolute_rooted cs) _) _),
      components_append, components_rooted hnames, follow, List.foldl_append, List.reverse_nil,
      foldl_enter_plain h, List.append_nil]
    rfl

/-- Cleaning a relative path keeps what its names do to an absolute path. Only the names that it
has kept at the beginning may be `..`. -/
theorem foldl_enter_cleaned {names : List Text} (hbefore : ∀ c ∈ before, Plain c)
    (hnames : ∀ c ∈ names, Name c) :
    (∀ c ∈ names.foldl (enter false) [], Name c ∧ c ≠ ".") ∧
      (names.foldl (enter false) []).reverse.foldl (enter true) before
        = names.foldl (enter true) before := by
  induction names using List.reverseRecOn with
  | nil => simp
  | append_singleton names c ih =>
    simp only [List.forall_mem_append, List.forall_mem_singleton] at hnames
    obtain ⟨hkept, hsame⟩ := ih hnames.1
    rw [List.foldl_append, List.foldl_append, List.foldl_cons, List.foldl_nil, List.foldl_cons,
      List.foldl_nil, ← hsame]
    have hplain := plain_foldl_enter hbefore fun d hd => (hkept d (List.mem_reverse.1 hd)).1
    rcases plain_of_name hnames.2 with hc | rfl | rfl
    · rw [enter_plain hc, enter_plain hc]
      refine ⟨List.forall_mem_cons.2 ⟨⟨hc.toName, hc.not_dot⟩, hkept⟩, ?_⟩
      rw [List.reverse_cons, List.foldl_append, List.foldl_cons, List.foldl_nil, enter_plain hc]
    · rw [enter_dot, enter_dot]
      exact ⟨hkept, rfl⟩
    · have hdots : Name ".." := hnames.2
      generalize names.foldl (enter false) [] = kept at hkept hplain
      rw [enter.eq_def, if_neg (by decide), if_pos rfl]
      cases kept with
      | nil => exact ⟨by simp [hdots, show ((".." : Text) ≠ ".") by decide], rfl⟩
      | cons last rest =>
        obtain ⟨hlast, hrest⟩ := List.forall_mem_cons.1 hkept
        simp only
        by_cases hup : last = ".."
        · rw [if_pos hup]
          refine ⟨List.forall_mem_cons.2 ⟨⟨hdots, by decide⟩, hkept⟩, ?_⟩
          generalize last :: rest = kept
          rw [List.reverse_cons, List.foldl_append]
          rfl
        · rw [if_neg hup]
          refine ⟨hrest, ?_⟩
          have hname : Plain last := ⟨hlast.1, hlast.2, hup⟩
          rw [List.reverse_cons, List.foldl_append, List.foldl_cons, List.foldl_nil,
            enter_plain hname] at hplain ⊢
          rw [enter_dots hplain]
          rfl

/-! ### Directories -/

theorem append_empty (p : Text) : p ++ Text.empty = p := by
  obtain ⟨bytes⟩ := p
  exact congrArg Text.mk (List.append_nil bytes)

theorem clean_rooted_slash (h : ∀ c ∈ cs, Plain c) : clean (rooted cs ++ "/") = rooted cs := by
  rw [← append_empty (rooted cs ++ "/"),
    clean_of_isAbsolute (isAbsolute_append (isAbsolute_append (isAbsolute_rooted cs) _) _),
    components_append, components_rooted fun c hc => (h c hc).toName, components_empty,
    List.append_nil, follow, List.reverse_nil, foldl_enter_plain h, List.append_nil,
    List.reverse_reverse]

theorem join_append (h : cs ≠ []) (c : Text) :
    Text.join "/" (cs ++ [c]) = Text.join "/" cs ++ "/" ++ c := by
  induction cs with
  | nil => exact absurd rfl h
  | cons d rest ih =>
    cases rest with
    | nil => rfl
    | cons e rest =>
      rw [List.cons_append, List.cons_append, Text.join, ← List.cons_append,
        ih (List.cons_ne_nil e rest), Text.join]
      simp only [Text.append_assoc]

theorem rooted_append (h : cs ≠ []) (c : Text) : rooted (cs ++ [c]) = rooted cs ++ "/" ++ c := by
  rw [rooted, join_append h, rooted]
  simp only [Text.append_assoc]

theorem directory_append (p : Text) (h : slash ∉ c.bytes) :
    directory (p ++ "/" ++ c) = clean (p ++ "/") := by
  have hbytes : (p ++ "/" ++ c).bytes.reverse = c.bytes.reverse ++ slash :: p.bytes.reverse := by
    simp [show (Text.ofString "/").bytes = [slash] from rfl]
  have hdrop : (c.bytes.reverse ++ slash :: p.bytes.reverse).dropWhile (· ≠ slash)
      = slash :: p.bytes.reverse := by
    rw [List.dropWhile_append_of_pos]
    · simp
    · intro b hb
      have hne : b ≠ slash := fun heq => h (heq ▸ List.mem_reverse.1 hb)
      simp [hne]
  rw [directory, hbytes, hdrop]
  congr 1
  obtain ⟨bytes⟩ := p
  simp
  rfl

/-- **The directory around a place.** -/
theorem directory_rooted (h : ∀ c ∈ cs, Plain c) : directory (rooted cs) = rooted cs.dropLast := by
  rcases List.eq_nil_or_concat' cs with rfl | ⟨outer, c, rfl⟩
  · decide
  · simp only [List.forall_mem_append, List.forall_mem_singleton] at h
    rw [List.dropLast_concat]
    cases outer with
    | nil => exact directory_append Text.empty h.2.whole
    | cons d rest =>
      rw [rooted_append (List.cons_ne_nil d rest), directory_append _ h.2.whole,
        clean_rooted_slash h.1]

/-- The directories around something in a directory are it and those around the directory. -/
theorem ancestors_concat (h : ∀ d ∈ cs ++ [c], Plain d) :
    ancestors (rooted (cs ++ [c])) = rooted (cs ++ [c]) :: ancestors (rooted cs) := by
  have hcs : ∀ d ∈ cs, Plain d := fun d hd => h d (List.mem_append_left _ hd)
  rw [ancestors, ancestors, cleanComponents_rooted h, cleanComponents_rooted hcs,
    List.reverse_concat, enclosing, List.reverse_cons, List.reverse_reverse]

/-- A path that ends with a slash lies in what it means. -/
theorem directory_of_endsWithSlash (h : endsWithSlash p = true) : directory p = clean p := by
  obtain ⟨bytes⟩ := p
  obtain ⟨front, rfl⟩ : ∃ front, bytes = front ++ [slash] := by
    rw [endsWithSlash, beq_iff_eq, List.getLast?_eq_some_iff] at h
    exact h
  rw [directory]
  simp

end Path

namespace FileTree

open ClassSharing.Path

/-! ### Walking -/

/-- The working directory is a clean absolute path, and everything lies in a directory. -/
structure Grounded (t : FileTree) : Prop where
  current : ∃ cs, (∀ c ∈ cs, Plain c) ∧ t.workingDirectory = rooted cs
  enclosed : ∀ cs c, (∀ d ∈ cs ++ [c], Plain d) → t.nodes.contains (rooted (cs ++ [c])) = true →
    t.nodes.get? (rooted cs) = some .directory

section Walking

variable {t : FileTree} {cs names : List Text} {path place name next : Text}

/-- A step does to the names of a place what cleaning does. -/
theorem eq_of_step (hcs : ∀ c ∈ cs, Plain c) (hname : Name name)
    (h : t.step (rooted cs) name = .ok next) :
    t.nodes.get? (rooted cs) = some .directory ∧ next = rooted (follow cs [name]) := by
  rw [step] at h
  split at h
  · cases h
  · rename_i hdirectory
    refine ⟨hdirectory, ?_⟩
    rcases plain_of_name hname with hplain | rfl | rfl
    · rw [if_neg hplain.not_dot, if_neg hplain.not_dots] at h
      split at h
      · cases h
      · rw [← Except.ok.inj h, join_rooted hcs, components_name hname]
    · rw [if_pos rfl] at h
      rw [← Except.ok.inj h, follow_dot]
    · rw [if_neg (by decide), if_pos rfl] at h
      rw [← Except.ok.inj h, directory_rooted hcs, follow_dots hcs]
  · cases h

theorem eq_of_walk (hcs : ∀ c ∈ cs, Plain c) (hnames : ∀ c ∈ names, Name c)
    (h : t.walk (rooted cs) names = .ok place) : place = rooted (follow cs names) := by
  induction names generalizing cs with
  | nil => rw [← Except.ok.inj h, follow_nil]
  | cons name names ih =>
    obtain ⟨hname, hrest⟩ := List.forall_mem_cons.1 hnames
    rw [walk] at h
    split at h
    · cases h
    · rename_i next hstep
      obtain ⟨-, rfl⟩ := eq_of_step hcs hname hstep
      have hplain := plain_follow hcs (List.forall_mem_singleton.2 hname)
      rw [ih hplain hrest h, ← follow_append, List.singleton_append]

/-- Where a path starts from, and what it means from there. -/
theorem Grounded.exists_start (h : t.Grounded) (path : Text) :
    ∃ cs, (∀ c ∈ cs, Plain c) ∧
      (if isAbsolute path then ("/" : Text) else t.workingDirectory) = rooted cs ∧
      t.resolve path = rooted (follow cs (components path)) := by
  rw [resolve, Path.absolute]
  by_cases hpath : isAbsolute path = true
  · rw [if_pos hpath, if_pos hpath, clean_of_isAbsolute hpath]
    exact ⟨[], nofun, rfl, rfl⟩
  · obtain ⟨cs, hcs, hcurrent⟩ := h.current
    rw [if_neg hpath, if_neg hpath, hcurrent, join_rooted hcs]
    exact ⟨cs, hcs, rfl, rfl⟩

/-- A path leads where its names lead from where it starts. -/
theorem place_eq_ok_iff : t.place path = .ok place ↔ pathFlaw? path = none ∧
    t.walk (if isAbsolute path then "/" else t.workingDirectory) (components path) = .ok place := by
  rw [FileTree.place]
  cases pathFlaw? path with
  | some reason => simp
  | none => simp

/-- **A path leads to its clean absolute form.** -/
theorem Grounded.place_eq_resolve (h : t.Grounded) (hplace : t.place path = .ok place) :
    place = t.resolve path := by
  obtain ⟨cs, hcs, hstart, hresolve⟩ := h.exists_start path
  obtain ⟨-, hwalk⟩ := place_eq_ok_iff.1 hplace
  rw [hstart] at hwalk
  rw [hresolve]
  exact eq_of_walk hcs (fun c => name_of_mem_components) hwalk

theorem Grounded.exists_resolve (h : t.Grounded) (path : Text) :
    ∃ cs, (∀ c ∈ cs, Plain c) ∧ t.resolve path = rooted cs := by
  obtain ⟨cs, hcs, -, hresolve⟩ := h.exists_start path
  exact ⟨_, plain_follow hcs fun c => name_of_mem_components, hresolve⟩

theorem resolve_rooted (t : FileTree) (h : ∀ c ∈ cs, Plain c) :
    t.resolve (rooted cs) = rooted cs := by
  rw [resolve, Path.absolute, if_pos (isAbsolute_rooted cs), clean_rooted h]

/-- **Cleaning a path does not change what it means.** -/
theorem Grounded.resolve_clean (h : t.Grounded) (path : Text) :
    t.resolve (clean path) = t.resolve path := by
  obtain ⟨ds, hds, hresolve⟩ := h.exists_resolve path
  by_cases hpath : isAbsolute path = true
  · have hclean : t.resolve path = clean path := by rw [resolve, Path.absolute, if_pos hpath]
    rw [← hclean, hresolve, resolve_rooted t hds]
  · obtain ⟨cs, hcs, hcurrent⟩ := h.current
    have hrelative : isAbsolute path = false := Bool.eq_false_iff.2 hpath
    have hbefore : ∀ c ∈ cs.reverse, Plain c := fun c hc => hcs c (List.mem_reverse.1 hc)
    obtain ⟨hkept, hsame⟩ :=
      foldl_enter_cleaned hbefore fun c => name_of_mem_components (p := path)
    have hcleaned : cleanComponents path
        = ((components path).foldl (enter false) []).reverse := by
      rw [cleanComponents, hrelative]
    -- The clean form is relative too, and it has the names that are left.
    obtain ⟨hrelative', hnames⟩ : isAbsolute (clean path) = false ∧
        (components (clean path)).foldl (enter true) cs.reverse
          = (cleanComponents path).foldl (enter true) cs.reverse := by
      rw [clean, hrelative, if_neg Bool.false_ne_true]
      rw [← hcleaned] at hsame
      cases hleft : cleanComponents path with
      | nil => exact ⟨rfl, enter_dot true cs.reverse⟩
      | cons c rest =>
        have hall : ∀ d ∈ c :: rest, Name d := by
          intro d hd
          rw [← hleft, hcleaned] at hd
          exact (hkept d (List.mem_reverse.1 hd)).1
        refine ⟨?_, ?_⟩
        · have hfirst := hall c List.mem_cons_self
          obtain ⟨bytes⟩ := c
          cases bytes with
          | nil => exact absurd rfl hfirst.nonempty
          | cons b bytes =>
            have hb : b ≠ slash := fun heq => hfirst.whole (heq ▸ List.mem_cons_self)
            cases rest <;> simp [isAbsolute, Text.join, hb]
        · rw [if_neg (by simp), components_join hall]
    rw [resolve, resolve, Path.absolute, Path.absolute, hrelative, hrelative',
      if_neg Bool.false_ne_true, if_neg Bool.false_ne_true, hcurrent, join_rooted hcs,
      join_rooted hcs, follow, follow, hnames, hcleaned, hsame]

end Walking

end FileTree

end ClassSharing
