import ClassSharing.Proofs.Files.Installing
import ClassSharing.Proofs.Files.Places
import Mathlib.Data.List.Infix
import Mathlib.Data.List.Nodup

/-!
# What installing a file changes

Installing a file makes the missing directories around it, puts a temporary file under a name that
is free, and moves it to the place of the path. In a tree where everything lies in a directory, the
temporary file is the only node that the move takes away, so nothing but the place of the path
changes: the file is there with its new contents, and what any other path led to is still there.

## Main results

* `FileTree.makeEach_frame`: what making directories does, wherever it stops
* `FileTree.Grounded.makeDirectories`: the directories around a path are made, and all nodes stay
* `FileTree.exists_freshPath`: there is a free name for a temporary file
* `FileTree.Grounded.exists_installed`: what a successful move leaves, place by place
* `FileTree.Grounded.install`: what a tree is like after a file has been installed
-/

namespace ClassSharing

open ClassSharing.Path

namespace FileTree

section Replacing

variable {t t' : FileTree} {cs ds : List Text} {path place c : Text} {node : FileNode}

/-! ### Grounded trees -/

theorem contains_of_get? {key : Text} (h : t.nodes.get? key = some node) :
    t.nodes.contains key = true := by
  rw [Table.contains, h]
  rfl

theorem exists_get?_of_contains {key : Text} (h : t.nodes.contains key = true) :
    ∃ node, t.nodes.get? key = some node :=
  Option.isSome_iff_exists.1 h

/-- What has something in it is a directory, however deep that lies. -/
theorem Grounded.directory_of_contains (h : t.Grounded) {rest : List Text} (hrest : rest ≠ [])
    (hplain : ∀ d ∈ cs ++ rest, Plain d) (hmem : t.nodes.contains (rooted (cs ++ rest)) = true) :
    t.nodes.get? (rooted cs) = some .directory := by
  induction rest using List.reverseRecOn with
  | nil => exact absurd rfl hrest
  | append_singleton rest c ih =>
    rw [← List.append_assoc] at hplain hmem
    have hdirectory := h.enclosed (cs ++ rest) c hplain hmem
    by_cases hnil : rest = []
    · rw [hnil, List.append_nil] at hdirectory
      exact hdirectory
    · exact ih hnil (fun d hd => hplain d (List.mem_append_left _ hd)) (contains_of_get? hdirectory)

/-- A node that is no directory is taken away with nothing else. -/
theorem Grounded.get?_remove (h : t.Grounded) (hds : ∀ d ∈ ds, Plain d)
    (hnode : t.nodes.get? (rooted ds) ≠ some .directory) (hcs : ∀ d ∈ cs, Plain d) :
    (t.remove (rooted ds)).nodes.get? (rooted cs)
      = if cs = ds then none else t.nodes.get? (rooted cs) := by
  have hnames : ∀ d ∈ cs, Name d := fun d hd => (hcs d hd).toName
  have hnames' : ∀ d ∈ ds, Name d := fun d hd => (hds d hd).toName
  rw [FileTree.get?_remove]
  by_cases heq : cs = ds
  · simp [heq]
  have hne : rooted cs ≠ rooted ds := fun hrooted => heq ((rooted_inj hcs hds).1 hrooted)
  rw [if_neg heq, decide_eq_false hne, Bool.false_or]
  split
  · rename_i hbegins
    -- What lies below would have to lie in a directory.
    obtain ⟨rest, hrest⟩ := Text.exists_append_of_beginsWith hbegins
    rw [eq_comm, ← Option.not_isSome_iff_eq_none]
    intro hmem
    have hsplit : cs = ds ++ components rest := by
      rw [← components_rooted hnames, hrest, components_append, components_rooted hnames']
    refine hnode (h.directory_of_contains (fun hnil => heq ?_) (hsplit ▸ hcs) (hsplit ▸ hmem))
    rw [hsplit, hnil, List.append_nil]
  · rfl

theorem Grounded.remove (h : t.Grounded) (hds : ∀ d ∈ ds, Plain d)
    (hnode : t.nodes.get? (rooted ds) ≠ some .directory) : (t.remove (rooted ds)).Grounded := by
  refine ⟨h.current, fun cs c hplain hmem => ?_⟩
  have hcs : ∀ d ∈ cs, Plain d := fun d hd => hplain d (List.mem_append_left _ hd)
  rw [Table.contains, h.get?_remove hds hnode hplain] at hmem
  split at hmem
  · cases hmem
  · have hdirectory := h.enclosed cs c hplain hmem
    rw [h.get?_remove hds hnode hcs, if_neg, hdirectory]
    rintro rfl
    exact hnode hdirectory

/-- Something is put in a directory. -/
theorem Grounded.put (h : t.Grounded) (hplain : ∀ d ∈ ds ++ [c], Plain d)
    (hdirectory : t.nodes.get? (rooted ds) = some .directory)
    (hfree : t.nodes.get? (rooted (ds ++ [c])) ≠ some .directory) (node : FileNode) :
    (t.put (rooted (ds ++ [c])) node).Grounded := by
  refine ⟨h.current, fun cs d hcsd hmem => ?_⟩
  have hcs : ∀ e ∈ cs, Plain e := fun e he => hcsd e (List.mem_append_left _ he)
  have hparent : t.nodes.get? (rooted cs) = some .directory := by
    rw [Table.contains, FileTree.put, Table.get?_insert] at hmem
    split at hmem
    · rename_i heq
      have hsame := List.append_inj_left' ((rooted_inj hcsd hplain).1 heq) rfl
      rw [hsame]
      exact hdirectory
    · exact h.enclosed cs d hcsd hmem
  rw [FileTree.put, Table.get?_insert, if_neg, hparent]
  intro heq
  rw [heq] at hparent
  exact hfree hparent

/-- A tree with nothing but the root. -/
theorem grounded_root : (⟨⟨[("/", .directory)]⟩, "/", 0⟩ : FileTree).Grounded := by
  refine ⟨⟨[], nofun, rfl⟩, fun cs c hplain hmem => ?_⟩
  obtain ⟨node, hnode⟩ := exists_get?_of_contains hmem
  have hentry := List.mem_singleton.1 (Table.mem_of_find?_eq_some hnode)
  have hnil : cs ++ [c] = [] := (rooted_inj hplain (List.forall_mem_nil _)).1 (Prod.mk.inj hentry).1
  exact absurd hnil (by simp)

/-- A new tree. -/
theorem grounded_new : (FileTree.new "/").Grounded := by
  have hdev : Plain "dev" := ⟨⟨by decide, by decide⟩, by decide, by decide⟩
  have hfull : Plain "full" := ⟨⟨by decide, by decide⟩, by decide, by decide⟩
  have houter : ∀ d ∈ ([] : List Text) ++ [("dev" : Text)], Plain d := by simpa using hdev
  have hinner : ∀ d ∈ [("dev" : Text)] ++ [("full" : Text)], Plain d := by simpa using ⟨hdev, hfull⟩
  exact (grounded_root.put houter rfl (by decide) .directory).put hinner rfl (by decide) .fullDevice

/-! ### Making directories -/

/-- What the first directory of a list does: nothing more is made, or it is there and the others
follow. -/
theorem makeEach_cons {p : Text} {rest : List Text} {result : Except Fault Unit}
    (h : t.makeEach (p :: rest) = (result, t')) :
    ((∃ fault, result = .error fault) ∧ t' = t) ∨
      ∃ entered : FileTree, entered.makeEach rest = (result, t') ∧
        entered.workingDirectory = t.workingDirectory ∧
        entered.nodes.get? p = some .directory ∧
        (t.nodes.get? p = none ∨ t.nodes.get? p = some .directory) ∧
        ∀ key, key ≠ p → entered.nodes.get? key = t.nodes.get? key := by
  rw [makeEach] at h
  cases hp : t.nodes.get? p with
  | some node =>
    rw [hp] at h
    cases node with
    | directory => exact .inr ⟨t, h, rfl, hp, .inr rfl, fun _ _ => rfl⟩
    | file number contents =>
      obtain ⟨rfl, rfl⟩ := Prod.mk.inj h
      exact .inl ⟨⟨_, rfl⟩, rfl⟩
    | fullDevice =>
      obtain ⟨rfl, rfl⟩ := Prod.mk.inj h
      exact .inl ⟨⟨_, rfl⟩, rfl⟩
  | none =>
    rw [hp] at h
    simp only at h
    split at h
    · obtain ⟨rfl, rfl⟩ := Prod.mk.inj h
      exact .inl ⟨⟨_, rfl⟩, rfl⟩
    · have hput : ∀ key, (t.put p .directory).nodes.get? key
          = if key = p then some .directory else t.nodes.get? key :=
        fun key => Table.get?_insert t.nodes p key .directory
      exact .inr ⟨t.put p .directory, h, rfl, by rw [hput, if_pos rfl], .inl rfl,
        fun key hkey => by rw [hput, if_neg hkey]⟩

/-- **What making directories does, wherever it stops.** What is new is a directory, and by then
everything in front of it in the list is one. -/
theorem makeEach_frame {paths : List Text} {result : Except Fault Unit}
    (h : t.makeEach paths = (result, t')) :
    t'.workingDirectory = t.workingDirectory ∧
      ∀ key, t'.nodes.get? key = t.nodes.get? key ∨
        t.nodes.get? key = none ∧ t'.nodes.get? key = some .directory ∧ key ∈ paths ∧
          ∀ p ∈ paths.takeWhile (· ≠ key), t'.nodes.get? p = some .directory := by
  induction paths generalizing t with
  | nil =>
    obtain ⟨-, rfl⟩ := Prod.mk.inj h
    exact ⟨rfl, fun _ => .inl rfl⟩
  | cons p rest ih =>
    rcases makeEach_cons h with ⟨-, rfl⟩ | ⟨entered, hrest, hcurrent, hentered, hp, hothers⟩
    · exact ⟨rfl, fun _ => .inl rfl⟩
    obtain ⟨hcurrent', hframe⟩ := ih hrest
    have hmade : t'.nodes.get? p = some .directory := by
      rcases hframe p with hsame | ⟨hnone, -⟩
      · rw [hsame, hentered]
      · rw [hentered] at hnone
        cases hnone
    refine ⟨hcurrent'.trans hcurrent, fun key => ?_⟩
    by_cases hkey : key = p
    · subst hkey
      rcases hp with hnone | hdirectory
      · refine .inr ⟨hnone, hmade, List.mem_cons_self, ?_⟩
        rw [List.takeWhile_cons_of_neg (by simp)]
        exact nofun
      · exact .inl (hmade.trans hdirectory.symm)
    · rcases hframe key with hsame | ⟨hnone, hnew, hmem, hbefore⟩
      · exact .inl (hsame.trans (hothers key hkey))
      · refine .inr ⟨hothers key hkey ▸ hnone, hnew, List.mem_cons_of_mem p hmem, ?_⟩
        rw [List.takeWhile_cons_of_pos (by simpa using Ne.symm hkey)]
        exact List.forall_mem_cons.2 ⟨hmade, hbefore⟩

theorem kept_of_frame {key : Text} {Q : Prop} (hnode : t.nodes.get? key = some node)
    (hframe : t'.nodes.get? key = t.nodes.get? key ∨ t.nodes.get? key = none ∧ Q) :
    t'.nodes.get? key = some node := by
  rcases hframe with hsame | ⟨hnone, -⟩
  · rw [hsame, hnode]
  · rw [hnode] at hnone
    cases hnone

theorem makeEach_ok {paths : List Text} (h : t.makeEach paths = (.ok (), t')) :
    ∀ p ∈ paths, t'.nodes.get? p = some .directory := by
  induction paths generalizing t with
  | nil => exact nofun
  | cons p rest ih =>
    rcases makeEach_cons h with ⟨⟨_, hresult⟩, -⟩ | ⟨entered, hrest, -, hentered, -⟩
    · cases hresult
    · exact List.forall_mem_cons.2 ⟨kept_of_frame hentered ((makeEach_frame hrest).2 p), ih hrest⟩

theorem mem_ancestors (hcs : ∀ d ∈ cs, Plain d) {p : Text} :
    p ∈ ancestors (rooted cs) ↔ ∃ ds, ds <+: cs ∧ p = rooted ds := by
  have henclosing : ∀ rs : List Text,
      p ∈ enclosing rs ↔ ∃ xs, xs <:+ rs ∧ p = rooted xs.reverse := by
    intro rs
    induction rs with
    | nil => simp [enclosing]
    | cons c outer ih =>
      rw [enclosing, List.mem_cons, ih]
      simp only [List.suffix_cons_iff, or_and_right, exists_or, exists_eq_left]
  rw [ancestors, cleanComponents_rooted hcs, henclosing]
  constructor
  · rintro ⟨xs, hxs, rfl⟩
    exact ⟨xs.reverse, List.reverse_suffix.1 (by rwa [List.reverse_reverse]), rfl⟩
  · rintro ⟨ds, hds, rfl⟩
    exact ⟨ds.reverse, List.reverse_suffix.2 hds, by rw [List.reverse_reverse]⟩

/-- Of two directories around a place, the outer one is made first. -/
theorem mem_takeWhile_ancestors {xs : List Text} (hcs : ∀ d ∈ cs, Plain d) (hxs : xs <+: cs)
    (hds : ds <+: xs) (hne : ds ≠ xs) :
    rooted ds ∈ (ancestors (rooted cs)).reverse.takeWhile (· ≠ rooted xs) := by
  induction cs using List.reverseRecOn with
  | nil =>
    obtain rfl := List.prefix_nil.1 hxs
    exact absurd (List.prefix_nil.1 hds) hne
  | append_singleton cs c ih =>
    have houter : ∀ d ∈ cs, Plain d := fun d hd => hcs d (List.mem_append_left _ hd)
    rw [ancestors_concat hcs, List.reverse_cons]
    rcases List.prefix_concat_iff.1 hxs with rfl | hwithin
    · have hall : ∀ p ∈ (ancestors (rooted cs)).reverse,
          decide (p ≠ rooted (cs ++ [c])) = true := by
        intro p hp
        obtain ⟨es, hes, rfl⟩ := (mem_ancestors houter).1 (List.mem_reverse.1 hp)
        refine decide_eq_true fun heq => ?_
        have hlength := hes.length_le
        rw [(rooted_inj (fun d hd => houter d (hes.subset hd)) hcs).1 heq,
          List.length_append] at hlength
        exact absurd hlength (Nat.not_succ_le_self _)
      rw [List.takeWhile_append_of_pos hall]
      refine List.mem_append_left _ (List.mem_reverse.2 ((mem_ancestors houter).2 ⟨ds, ?_, rfl⟩))
      exact (List.prefix_concat_iff.1 hds).resolve_left hne
    · have hmem := ih houter hwithin
      rw [List.takeWhile_append]
      split
      · exact List.mem_append_left _ ((List.takeWhile_sublist _).subset hmem)
      · exact hmem

/-- Directories are made around a path from the outside in, wherever that stops. -/
theorem Grounded.of_makeDirectories (h : t.Grounded) {result : Except Fault Unit}
    (hmake : t.makeDirectories path = (result, t')) :
    t'.Grounded ∧ t'.workingDirectory = t.workingDirectory ∧
      ∀ key, t'.nodes.get? key = t.nodes.get? key ∨
        t.nodes.get? key = none ∧ t'.nodes.get? key = some .directory := by
  obtain ⟨cs, hcs, hresolve⟩ := h.exists_resolve path
  rw [FileTree.makeDirectories, hresolve] at hmake
  obtain ⟨hcurrent, hframe⟩ := makeEach_frame hmake
  refine ⟨⟨hcurrent ▸ h.current, fun ds d hplain hmem => ?_⟩, hcurrent,
    fun key => (hframe key).imp_right fun hnew => ⟨hnew.1, hnew.2.1⟩⟩
  rcases hframe (rooted (ds ++ [d])) with hold | ⟨-, -, hmade, hbefore⟩
  · rw [Table.contains, hold] at hmem
    exact kept_of_frame (h.enclosed ds d hplain hmem) (hframe _)
  · obtain ⟨es, hes, heq⟩ := (mem_ancestors hcs).1 (List.mem_reverse.1 hmade)
    obtain rfl := (rooted_inj hplain fun e he => hcs e (hes.subset he)).1 heq
    exact hbefore _ (mem_takeWhile_ancestors hcs hes (List.prefix_append ds [d]) (by simp))

/-- **The directories around a path are made**, and nothing that was there is changed. -/
theorem Grounded.makeDirectories (h : t.Grounded) (hmake : t.makeDirectories path = (.ok (), t')) :
    t'.Grounded ∧ t'.workingDirectory = t.workingDirectory ∧
      t'.nodes.get? (rooted []) = some .directory ∧
      t'.nodes.get? (t.resolve path) = some .directory ∧
      ∀ key node, t.nodes.get? key = some node → t'.nodes.get? key = some node := by
  obtain ⟨cs, hcs, hresolve⟩ := h.exists_resolve path
  obtain ⟨hgrounded, hcurrent, hframe⟩ := h.of_makeDirectories hmake
  have hmade := makeEach_ok hmake
  simp only [List.mem_reverse, hresolve, mem_ancestors hcs] at hmade
  exact ⟨hgrounded, hcurrent, hmade _ ⟨[], List.nil_prefix, rfl⟩,
    hmade _ ⟨cs, List.prefix_rfl, by rw [hresolve]⟩,
    fun key node hnode => kept_of_frame hnode (hframe key)⟩

/-! ### Temporary files -/

theorem plain_temporaryName (i : Nat) : Plain (temporaryName i) := by
  have hbytes : (temporaryName i).bytes
      = [0x2E, 0x63, 0x64, 0x73, 0x2D] ++ List.replicate (i + 1) 0x2A := rfl
  refine ⟨⟨fun heq => ?_, ?_⟩, fun heq => ?_, fun heq => ?_⟩
  · rw [heq] at hbytes
    cases hbytes
  · rw [hbytes]
    simp [slash]
  · have hlength := congrArg List.length (hbytes.symm.trans (congrArg Text.bytes heq))
    simp [show (Text.ofString ".").bytes = [0x2E] from rfl] at hlength
  · have hlength := congrArg List.length (hbytes.symm.trans (congrArg Text.bytes heq))
    simp [show (Text.ofString "..").bytes = [0x2E, 0x2E] from rfl] at hlength

theorem temporaryName_injective {i j : Nat} (h : temporaryName i = temporaryName j) : i = j := by
  have hlength := congrArg (fun name => name.bytes.length) h
  simpa [temporaryName] using hlength

theorem join_plain (hcs : ∀ d ∈ cs, Plain d) (hc : Plain c) :
    join (rooted cs) c = rooted (cs ++ [c]) := by
  rw [join_rooted hcs, components_name hc.toName, follow_plain hc]

/-- The first temporary name is taken if it is free. -/
theorem freshPath_of_free {t : FileTree} {directory : Text}
    (h : t.nodes.contains (t.resolve (Path.join directory (temporaryName 0))) = false) :
    t.freshPath directory = Path.join directory (temporaryName 0) := by
  rw [freshPath, List.range_succ_eq_map, List.map_cons, List.find?_cons_of_pos (by rw [h]; rfl)]
  rfl

/-- **There is a free name for a temporary file.** There are more names than nodes. -/
theorem exists_freshPath (t : FileTree) (hcs : ∀ d ∈ cs, Plain d) :
    ∃ c, Plain c ∧ t.freshPath (rooted cs) = rooted (cs ++ [c]) ∧
      t.nodes.contains (rooted (cs ++ [c])) = false := by
  have hplain : ∀ i, ∀ d ∈ cs ++ [temporaryName i], Plain d := by
    intro i
    simp only [List.forall_mem_append, List.forall_mem_singleton]
    exact ⟨hcs, plain_temporaryName i⟩
  have hcandidate : ∀ i, join (rooted cs) (temporaryName i) = rooted (cs ++ [temporaryName i]) :=
    fun i => join_plain hcs (plain_temporaryName i)
  rw [freshPath]
  simp only [hcandidate]
  cases hfind : ((List.range (t.nodes.size + 1)).map fun i =>
      rooted (cs ++ [temporaryName i])).find? fun p => !t.nodes.contains (t.resolve p) with
  | some p =>
    obtain ⟨i, -, rfl⟩ := List.mem_map.1 (List.mem_of_find?_eq_some hfind)
    have hfree := List.find?_some hfind
    rw [resolve_rooted t (hplain i), Bool.not_eq_true'] at hfree
    exact ⟨temporaryName i, plain_temporaryName i, rfl, hfree⟩
  | none =>
    -- There is one candidate more than there are nodes, so not all of them are taken.
    exfalso
    rw [List.find?_eq_none] at hfind
    have hsubset : ((List.range (t.nodes.size + 1)).map fun i => rooted (cs ++ [temporaryName i]))
        ⊆ t.nodes.keys := by
      intro p hp
      have hmem := hfind p hp
      obtain ⟨i, -, rfl⟩ := List.mem_map.1 hp
      rw [resolve_rooted t (hplain i), Bool.not_eq_true', Bool.not_eq_false] at hmem
      obtain ⟨node, hnode⟩ := exists_get?_of_contains hmem
      exact List.mem_map_of_mem (Table.mem_of_find?_eq_some hnode)
    have hnodup : ((List.range (t.nodes.size + 1)).map fun i =>
        rooted (cs ++ [temporaryName i])).Nodup := by
      refine List.Nodup.map (fun i j hij => ?_) List.nodup_range
      have hsame := (rooted_inj (hplain i) (hplain j)).1 hij
      exact temporaryName_injective (List.singleton_inj.1 (List.append_cancel_left hsame))
    have hlength := (List.subperm_of_subset hnodup hsubset).length_le
    rw [List.length_map, List.length_range, Table.keys, List.length_map] at hlength
    exact absurd hlength (Nat.not_succ_le_self _)

/-! ### Walking in another tree -/

/-- A walk goes through directories only, so a tree that has them has the walk. -/
theorem walk_of_directories
    (h : ∀ cs, (∀ d ∈ cs, Plain d) → t.nodes.get? (rooted cs) = some .directory →
      t'.nodes.get? (rooted cs) = some .directory)
    {names : List Text} (hcs : ∀ d ∈ cs, Plain d) (hnames : ∀ d ∈ names, Name d)
    (hwalk : t.walk (rooted cs) names = .ok place) : t'.walk (rooted cs) names = .ok place := by
  induction names generalizing cs with
  | nil => exact hwalk
  | cons name names ih =>
    obtain ⟨hname, hrest⟩ := List.forall_mem_cons.1 hnames
    rw [walk] at hwalk ⊢
    cases hstep : t.step (rooted cs) name with
    | error reason =>
      rw [hstep] at hwalk
      cases hwalk
    | ok next =>
      obtain ⟨hdirectory, rfl⟩ := eq_of_step hcs hname hstep
      have hstep' : t'.step (rooted cs) name = .ok (rooted (follow cs [name])) := by
        rw [← hstep, step, step, hdirectory, h cs hcs hdirectory]
      rw [hstep] at hwalk
      rw [hstep']
      exact ih (plain_follow hcs (List.forall_mem_singleton.2 hname)) hrest hwalk

theorem Grounded.place_of_directories (hgrounded : t.Grounded)
    (hcurrent : t'.workingDirectory = t.workingDirectory)
    (h : ∀ cs, (∀ d ∈ cs, Plain d) → t.nodes.get? (rooted cs) = some .directory →
      t'.nodes.get? (rooted cs) = some .directory)
    (hplace : t.place path = .ok place) : t'.place path = .ok place := by
  obtain ⟨cs, hcs, hstart, -⟩ := hgrounded.exists_start path
  obtain ⟨hflaw, hwalk⟩ := place_eq_ok_iff.1 hplace
  refine place_eq_ok_iff.2 ⟨hflaw, ?_⟩
  rw [hstart] at hwalk
  rw [hcurrent, hstart]
  exact walk_of_directories h hcs (fun d => name_of_mem_components) hwalk

theorem walk_append (t : FileTree) (place name : Text) (names : List Text) :
    t.walk place (names ++ [name]) = (t.walk place names).bind fun p => t.step p name := by
  induction names generalizing place with
  | nil =>
    show t.walk place [name] = t.step place name
    rw [walk]
    cases t.step place name <;> rfl
  | cons first rest ih =>
    rw [List.cons_append, walk, walk]
    cases t.step place first with
    | error reason => rfl
    | ok next => exact ih next

/-- A path without names leads to the root: a relative one has a name. -/
theorem place_of_components_eq_nil (hnil : components path = [])
    (hplace : t.place path = .ok place) : place = rooted [] := by
  obtain ⟨hflaw, hwalk⟩ := place_eq_ok_iff.1 hplace
  have habsolute : isAbsolute path = true := by
    by_contra hrelative
    refine components_ne_nil (Bool.eq_false_iff.2 hrelative) ?_ hnil
    rintro rfl
    cases hflaw
  rw [hnil, if_pos habsolute] at hwalk
  exact (Except.ok.inj hwalk).symm

/-- Only a plain name leads to something that is no directory. -/
theorem Grounded.plain_of_step (h : t.Grounded) (hcs : ∀ d ∈ cs, Plain d) (hc : Name c)
    (hstep : t.step (rooted cs) c = .ok place) (hnot : t.nodes.get? place ≠ some .directory) :
    Plain c ∧ place = rooted (cs ++ [c]) := by
  obtain ⟨hdirectory, heq⟩ := eq_of_step hcs hc hstep
  rcases plain_of_name hc with hplain | rfl | rfl
  · refine ⟨hplain, ?_⟩
    rw [heq, ← join_plain hcs hplain, join_rooted hcs, components_name hplain.toName]
  · rw [follow_dot] at heq
    exact absurd (heq ▸ hdirectory) hnot
  · rw [follow_dots hcs] at heq
    refine absurd ?_ hnot
    rw [heq]
    -- What a directory lies in is a directory, and the root lies in itself.
    cases cs using List.reverseRecOn with
    | nil => exact hdirectory
    | append_singleton cs d =>
      rw [List.dropLast_concat]
      exact h.enclosed cs d hcs (contains_of_get? hdirectory)

/-- The place of a path is a directory or lies in one. -/
theorem Grounded.exists_directory (h : t.Grounded)
    (hroot : t.nodes.get? (rooted []) = some .directory) (hplace : t.place path = .ok place)
    (hnot : t.nodes.get? place ≠ some .directory) :
    ∃ ds c, (∀ d ∈ ds ++ [c], Plain d) ∧ place = rooted (ds ++ [c]) ∧
      t.nodes.get? (rooted ds) = some .directory := by
  obtain ⟨cs, hcs, hstart, -⟩ := h.exists_start path
  obtain ⟨-, hreached⟩ := place_eq_ok_iff.1 hplace
  rw [hstart] at hreached
  rcases List.eq_nil_or_concat' (components path) with hnil | ⟨names, name, hlast⟩
  · rw [place_of_components_eq_nil hnil hplace] at hnot
    exact absurd hroot hnot
  · have hnames : (∀ d ∈ names, Name d) ∧ Name name := by
      have hall : ∀ d ∈ components path, Name d := fun d => name_of_mem_components
      rw [hlast] at hall
      simpa only [List.forall_mem_append, List.forall_mem_singleton] using hall
    rw [hlast, walk_append] at hreached
    cases hwalk : t.walk (rooted cs) names with
    | error reason =>
      rw [hwalk] at hreached
      cases hreached
    | ok next =>
      rw [hwalk] at hreached
      obtain rfl := eq_of_walk hcs hnames.1 hwalk
      have hds := plain_follow hcs hnames.1
      obtain ⟨hname, rfl⟩ := h.plain_of_step hds hnames.2 hreached hnot
      refine ⟨follow cs names, name, ?_, rfl, (eq_of_step hds hnames.2 hreached).1⟩
      simp only [List.forall_mem_append, List.forall_mem_singleton]
      exact ⟨hds, hname⟩

/-! ### Installing -/

theorem find_eq_ok_iff : t.find path = .ok node ↔ ∃ place, t.place path = .ok place ∧
    t.nodes.get? place = some node ∧ (node = .directory ∨ endsWithSlash path = false) := by
  rw [find]
  cases t.place path with
  | error reason => simp
  | ok place =>
    simp only [Except.ok.injEq, exists_eq_left']
    cases t.nodes.get? place with
    | none => simp
    | some found =>
      cases found with
      | directory =>
        exact ⟨fun heq => ⟨congrArg some (Except.ok.inj heq), .inl (Except.ok.inj heq).symm⟩,
          fun heq => congrArg Except.ok (Option.some.inj heq.1)⟩
      | file number contents => cases endsWithSlash path <;> simp +contextual [eq_comm]
      | fullDevice => cases endsWithSlash path <;> simp +contextual [eq_comm]

/-- The tree after the temporary file has been made and taken away is the one before. -/
theorem Grounded.get?_remove_putNew (h : t.Grounded) (hplain : ∀ d ∈ ds ++ [c], Plain d)
    (hdirectory : t.nodes.get? (rooted ds) = some .directory)
    (hfree : t.nodes.get? (rooted (ds ++ [c])) = none) (contents : Bytes) :
    (t.putNew (rooted (ds ++ [c])) contents).Grounded ∧
      ((t.putNew (rooted (ds ++ [c])) contents).remove (rooted (ds ++ [c]))).Grounded ∧
      ∀ cs, (∀ d ∈ cs, Plain d) →
        ((t.putNew (rooted (ds ++ [c])) contents).remove (rooted (ds ++ [c]))).nodes.get?
          (rooted cs) = t.nodes.get? (rooted cs) := by
  have hput := h.put hplain hdirectory (by rw [hfree]; exact nofun)
    (.file t.nextNumber contents)
  have hwritten : (t.putNew (rooted (ds ++ [c])) contents).Grounded := ⟨hput.current, hput.enclosed⟩
  have hlookup : ∀ key, (t.putNew (rooted (ds ++ [c])) contents).nodes.get? key
      = if key = rooted (ds ++ [c]) then some (.file t.nextNumber contents)
        else t.nodes.get? key := fun key => Table.get?_insert t.nodes _ key _
  have hnot : (t.putNew (rooted (ds ++ [c])) contents).nodes.get? (rooted (ds ++ [c]))
      ≠ some .directory := by
    rw [hlookup, if_pos rfl]
    exact fun heq => nomatch Option.some.inj heq
  refine ⟨hwritten, hwritten.remove hplain hnot, fun cs hcs => ?_⟩
  rw [hwritten.get?_remove hplain hnot hcs]
  split
  · rename_i heq
    rw [heq, hfree]
  · rename_i hne
    rw [hlookup, if_neg fun heq => hne ((rooted_inj hcs hplain).1 heq)]

/-- Where the temporary file is: in the directory around the path, at a free place. -/
theorem Grounded.exists_temporary (h : t.Grounded)
    (hmake : t.makeDirectories (directory path) = (.ok (), t')) :
    ∃ cs c, (∀ d ∈ cs ++ [c], Plain d) ∧ t.resolve (directory path) = rooted cs ∧
      t'.freshPath (t'.resolve (directory path)) = rooted (cs ++ [c]) ∧
      t'.nodes.get? (rooted cs) = some .directory ∧ t'.nodes.get? (rooted (cs ++ [c])) = none := by
  obtain ⟨-, hcurrent, -, hdirectory, -⟩ := h.makeDirectories hmake
  obtain ⟨cs, hcs, hresolve⟩ := h.exists_resolve (directory path)
  obtain ⟨c, hc, htemporary, hfree⟩ := exists_freshPath t' hcs
  refine ⟨cs, c, ?_, hresolve, ?_, hresolve ▸ hdirectory,
    Option.isNone_iff_eq_none.1 (Option.isSome_eq_false_iff.1 hfree)⟩
  · simp only [List.forall_mem_append, List.forall_mem_singleton]
    exact ⟨hcs, hc⟩
  · rw [resolve, hcurrent, ← resolve, hresolve, htemporary]

/-- **What a successful move leaves.** There is a file at the place of the path, in a directory, and
everything else is as it was when the directories had been made. -/
theorem Grounded.exists_installed (h : t.Grounded) {refusals : Refusals} {contents : Bytes}
    (hinstall : t.install refusals path contents = (.ok (), t')) :
    ∃ ready ds d, t.makeDirectories (directory path) = (.ok (), ready) ∧
      (∀ x ∈ ds ++ [d], Plain x) ∧ t.resolve path = rooted (ds ++ [d]) ∧
      ready.place path = .ok (rooted (ds ++ [d])) ∧
      ready.nodes.get? (rooted ds) = some .directory ∧
      ready.nodes.get? (rooted (ds ++ [d])) ≠ some .directory ∧
      t'.workingDirectory = t.workingDirectory ∧
      ∀ xs, (∀ x ∈ xs, Plain x) → t'.nodes.get? (rooted xs)
        = if xs = ds ++ [d] then some (.file ready.nextNumber contents)
          else ready.nodes.get? (rooted xs) := by
  obtain ⟨ready, hmake, hrename⟩ := install_ok hinstall
  obtain ⟨hready, hcurrent, hroot, -, -⟩ := h.makeDirectories hmake
  obtain ⟨cs, c, hplain, -, htemporary, hdirectory, hnone⟩ := h.exists_temporary hmake
  rw [htemporary] at hrename
  obtain ⟨hwritten, -, hsame⟩ := hready.get?_remove_putNew hplain hdirectory hnone contents
  generalize rooted (cs ++ [c]) = temporary at *
  -- Nothing is hidden by the temporary file, and it is no directory.
  have hlookup : ∀ key node, ready.nodes.get? key = some node →
      (ready.putNew temporary contents).nodes.get? key = some node := by
    intro key node hnode
    refine (Table.get?_insert ready.nodes temporary key _).trans ?_
    rw [if_neg, hnode]
    rintro rfl
    rw [hnone] at hnode
    cases hnode
  have hback : ∀ key, (ready.putNew temporary contents).nodes.get? key = some .directory →
      ready.nodes.get? key = some .directory := by
    intro key hkey
    rw [putNew, FileTree.put, Table.get?_insert] at hkey
    split at hkey
    · cases hkey
    · exact hkey
  obtain ⟨place, node, hplace, hnode, hnot, rfl⟩ := rename_ok hrename
  obtain rfl : .file ready.nextNumber contents = node := by
    rw [putNew, FileTree.put, Table.get?_insert, if_pos rfl] at hnode
    exact Option.some.inj hnode
  obtain ⟨ds, d, hds, rfl, hwithin⟩ := hwritten.exists_directory (hlookup _ _ hroot) hplace hnot
  have hplaceReady := place_of_fewer_directories hback rfl hplace
  have hmeans : t.resolve path = rooted (ds ++ [d]) := by
    rw [hready.place_eq_resolve hplaceReady, resolve, resolve, hcurrent]
  refine ⟨ready, ds, d, hmake, hds, hmeans, hplaceReady, hback _ hwithin,
    fun hmem => hnot (hlookup _ _ hmem), hcurrent, fun xs hxs => ?_⟩
  rw [FileTree.put, Table.get?_insert, hsame xs hxs]
  exact if_congr (rooted_inj hxs hds) rfl rfl

theorem Grounded.of_agree (h : t.Grounded) (hcurrent : t'.workingDirectory = t.workingDirectory)
    (hsame : ∀ cs, (∀ c ∈ cs, Plain c) → t'.nodes.get? (rooted cs) = t.nodes.get? (rooted cs)) :
    t'.Grounded := by
  refine ⟨hcurrent ▸ h.current, fun cs c hplain hmem => ?_⟩
  rw [Table.contains, hsame _ hplain] at hmem
  rw [hsame cs fun d hd => hplain d (List.mem_append_left _ hd)]
  exact h.enclosed cs c hplain hmem

/-- **What a tree is like after a file has been installed.** The path leads to a file with the
contents, and what a path that means another place led to is still there. -/
theorem Grounded.install (h : t.Grounded) {refusals : Refusals} {contents : Bytes}
    (hinstall : t.install refusals path contents = (.ok (), t')) :
    t'.Grounded ∧ t'.workingDirectory = t.workingDirectory ∧
      (∃ number, t'.find path = .ok (.file number contents)) ∧
      ∀ other node, t.resolve other ≠ t.resolve path → t.find other = .ok node →
        t'.find other = .ok node := by
  obtain ⟨ready, ds, d, hmake, hds, hmeans, hplace, hparent, hnot, hcurrent, hnodes⟩ :=
    h.exists_installed hinstall
  obtain ⟨hready, hcurrentReady, -, hdirectory, hkept⟩ := h.makeDirectories hmake
  have hothers : ∀ xs node, (∀ x ∈ xs, Plain x) → xs ≠ ds ++ [d] →
      ready.nodes.get? (rooted xs) = some node → t'.nodes.get? (rooted xs) = some node := by
    intro xs node hxs hne hmem
    rw [hnodes xs hxs, if_neg hne, hmem]
  have hdirectories : ∀ xs, (∀ x ∈ xs, Plain x) → ready.nodes.get? (rooted xs) = some .directory →
      t'.nodes.get? (rooted xs) = some .directory := by
    intro xs hxs hmem
    refine hothers xs _ hxs ?_ hmem
    rintro rfl
    exact hnot hmem
  refine ⟨?_, hcurrent, ⟨ready.nextNumber, find_eq_ok_iff.2 ⟨rooted (ds ++ [d]), ?_, ?_, .inr ?_⟩⟩,
    fun other node hne hfind => ?_⟩
  · refine (hready.put hds hparent hnot (.file ready.nextNumber contents)).of_agree
      (hcurrent.trans hcurrentReady.symm) fun xs hxs => ?_
    rw [hnodes xs hxs, FileTree.put, Table.get?_insert]
    exact if_congr (rooted_inj hxs hds).symm rfl rfl
  · exact hready.place_of_directories (hcurrent.trans hcurrentReady.symm) hdirectories hplace
  · rw [hnodes _ hds, if_pos rfl]
  · -- A path that ends with a slash would mean the directory that has been made for it.
    by_contra hslash
    rw [Bool.not_eq_false] at hslash
    rw [directory_of_endsWithSlash hslash, h.resolve_clean, hmeans] at hdirectory
    exact hnot hdirectory
  · obtain ⟨q, hq, hqnode, hslash⟩ := find_eq_ok_iff.1 hfind
    obtain ⟨xs, hxs, hqresolve⟩ := h.exists_resolve other
    obtain rfl := (h.place_eq_resolve hq).trans hqresolve
    refine find_eq_ok_iff.2 ⟨rooted xs, ?_, ?_, hslash⟩
    · exact h.place_of_directories hcurrent
        (fun ys hys hmem => hdirectories ys hys (hkept _ _ hmem)) hq
    · refine hothers xs node hxs (fun heq => hne ?_) (hkept _ _ hqnode)
      rw [hqresolve, heq, hmeans]

end Replacing

end FileTree

end ClassSharing
