import ClassSharing.Files.Tree
import ClassSharing.Proofs.Table

/-!
# Writing a file as a whole

A file is installed by way of a temporary file, which is moved to the place that the path leads to.
The move adds no directory, so whatever way leads to the file afterwards led to the same place
before, and what is read there is what was written.

## Main results

* `FileTree.walk_of_fewer_directories`: a walk in a tree with fewer directories is a walk
* `FileTree.install_cases`: how installing a file ends
* `FileTree.read_install`: what is read from an installed file is what was written
-/

namespace ClassSharing

namespace FileTree

section Installing

variable {t t' : FileTree} {path : Text}

/-! ### Walking -/

theorem step_of_fewer_directories
    (h : ∀ p, t'.nodes.get? p = some .directory → t.nodes.get? p = some .directory)
    {place name next : Text} (hstep : t'.step place name = .ok next) :
    t.step place name = .ok next := by
  have hdirectory : t'.nodes.get? place = some .directory := by
    rw [step] at hstep
    split at hstep
    · cases hstep
    · assumption
    · cases hstep
  rw [step, hdirectory] at hstep
  rw [step, h place hdirectory]
  exact hstep

/-- Every place on the way is a directory, so a tree with more directories has the same way. -/
theorem walk_of_fewer_directories
    (h : ∀ p, t'.nodes.get? p = some .directory → t.nodes.get? p = some .directory)
    {start place : Text} {names : List Text} (hwalk : t'.walk start names = .ok place) :
    t.walk start names = .ok place := by
  induction names generalizing start with
  | nil => exact hwalk
  | cons name names ih =>
    rw [walk] at hwalk ⊢
    split at hwalk
    · cases hwalk
    · rename_i next hstep
      rw [step_of_fewer_directories h hstep]
      exact ih hwalk

theorem place_of_fewer_directories
    (h : ∀ p, t'.nodes.get? p = some .directory → t.nodes.get? p = some .directory)
    (hcurrent : t'.workingDirectory = t.workingDirectory) {place : Text}
    (hplace : t'.place path = .ok place) : t.place path = .ok place := by
  rw [FileTree.place] at hplace ⊢
  split at hplace
  · cases hplace
  · rw [hcurrent] at hplace
    exact walk_of_fewer_directories h hplace

/-! ### Moving -/

theorem get?_remove (t : FileTree) (place p : Text) :
    (t.remove place).nodes.get? p
      = if p = place || Text.beginsWith (place ++ "/") p then none else t.nodes.get? p := by
  show Table.find? p _ = _
  refine (Table.find?_filter
    (fun key => !(decide (key = place) || Text.beginsWith (place ++ "/") key)) p _).trans ?_
  cases decide (p = place) || Text.beginsWith (place ++ "/") p <;> rfl

/-- What a move does: the node is at the place that the path leads to, where no directory was. -/
theorem rename_ok {source : Text} (h : t.rename source path = .ok t') :
    ∃ place node, t.place path = .ok place ∧ t.nodes.get? source = some node ∧
      t.nodes.get? place ≠ some .directory ∧ t' = (t.remove source).put place node := by
  rw [rename] at h
  split at h
  · cases h
  · cases h
  · rename_i place node hplace hnode
    split at h
    · cases h
    · rename_i hnot
      exact ⟨place, node, hplace, hnode, hnot, (Except.ok.inj h).symm⟩

theorem directory_of_rename {source place : Text} {number : Nat} {contents : Bytes} {p : Text}
    (h : ((t.remove source).put place (.file number contents)).nodes.get? p = some .directory) :
    t.nodes.get? p = some .directory := by
  rw [put, Table.get?_insert] at h
  split at h
  · cases h
  · rw [get?_remove] at h
    split at h
    · cases h
    · exact h

/-! ### Reading back -/

theorem read_of_file {place : Text} {number : Nat} {contents data : Bytes}
    (hplace : t.place path = .ok place) (hnode : t.nodes.get? place = some (.file number contents))
    (h : t.read path = .ok data) : data = contents := by
  rw [read, find, hplace] at h
  simp only [hnode] at h
  cases hslash : Path.endsWithSlash path with
  | true => simp [hslash] at h
  | false => simpa [hslash] using h.symm

theorem exists_place_of_read {data : Bytes} (h : t.read path = .ok data) :
    ∃ place, t.place path = .ok place := by
  rw [read, find] at h
  cases hplace : t.place path with
  | error reason => simp [hplace] at h
  | ok place => exact ⟨place, rfl⟩

/-- **How installing a file ends.** It fails before there is a temporary file, or it takes that file
away again, or it moves it to the place of the path. -/
theorem install_cases {refusals : Refusals} {contents : Bytes} {result : Except Fault Unit}
    (h : t.install refusals path contents = (result, t')) :
    (∃ fault, result = .error fault ∧
      (t' = t ∨ (∃ made, t.makeDirectories (Path.directory path) = (made, t')) ∨
        ∃ ready, t.makeDirectories (Path.directory path) = (.ok (), ready) ∧
          t' = (ready.putNew (ready.freshPath (ready.resolve (Path.directory path)))
            contents).remove (ready.freshPath (ready.resolve (Path.directory path))))) ∨
      result = .ok () ∧
        ∃ ready, t.makeDirectories (Path.directory path) = (.ok (), ready) ∧
          (ready.putNew (ready.freshPath (ready.resolve (Path.directory path))) contents).rename
            (ready.freshPath (ready.resolve (Path.directory path))) path = .ok t' := by
  rw [install] at h
  simp only at h
  split at h
  · obtain ⟨rfl, rfl⟩ := Prod.mk.inj h
    exact .inl ⟨_, rfl, .inl rfl⟩
  split at h
  · rename_i hmake
    obtain ⟨rfl, rfl⟩ := Prod.mk.inj h
    exact .inl ⟨_, rfl, .inr (.inl ⟨_, hmake⟩)⟩
  rename_i ready hmake
  split at h
  · obtain ⟨rfl, rfl⟩ := Prod.mk.inj h
    exact .inl ⟨_, rfl, .inr (.inl ⟨_, hmake⟩)⟩
  -- From here on there is a temporary file.
  split at h
  · obtain ⟨rfl, rfl⟩ := Prod.mk.inj h
    exact .inl ⟨_, rfl, .inr (.inr ⟨ready, hmake, rfl⟩)⟩
  split at h
  · obtain ⟨rfl, rfl⟩ := Prod.mk.inj h
    exact .inl ⟨_, rfl, .inr (.inr ⟨ready, hmake, rfl⟩)⟩
  split at h
  · obtain ⟨rfl, rfl⟩ := Prod.mk.inj h
    exact .inl ⟨_, rfl, .inr (.inr ⟨ready, hmake, rfl⟩)⟩
  split at h
  · obtain ⟨rfl, rfl⟩ := Prod.mk.inj h
    exact .inl ⟨_, rfl, .inr (.inr ⟨ready, hmake, rfl⟩)⟩
  · rename_i done hdone
    obtain ⟨rfl, rfl⟩ := Prod.mk.inj h
    exact .inr ⟨rfl, ready, hmake, hdone⟩

/-- What is done when a file is installed. -/
theorem install_ok {refusals : Refusals} {contents : Bytes}
    (h : t.install refusals path contents = (.ok (), t')) :
    ∃ ready, t.makeDirectories (Path.directory path) = (.ok (), ready) ∧
      (ready.putNew (ready.freshPath (ready.resolve (Path.directory path))) contents).rename
        (ready.freshPath (ready.resolve (Path.directory path))) path = .ok t' := by
  rcases install_cases h with ⟨_, hfault, -⟩ | ⟨-, hdone⟩
  · cases hfault
  · exact hdone

/-- **What is read from an installed file is what was written.** -/
theorem read_install {refusals : Refusals} {contents data : Bytes}
    (h : t.install refusals path contents = (.ok (), t')) (hread : t'.read path = .ok data) :
    data = contents := by
  obtain ⟨ready, -, hrename⟩ := install_ok h
  generalize ready.freshPath (ready.resolve (Path.directory path)) = temporary at hrename
  obtain ⟨place, node, hplace, hnode, -, rfl⟩ := rename_ok hrename
  obtain rfl : .file ready.nextNumber contents = node := by
    rw [putNew, put, Table.get?_insert, if_pos rfl] at hnode
    exact Option.some.inj hnode
  obtain ⟨place', hplace'⟩ := exists_place_of_read hread
  obtain rfl : place' = place := by
    have hback := place_of_fewer_directories (fun _ => directory_of_rename) rfl hplace'
    exact Except.ok.inj (hback.symm.trans hplace)
  have hput : ((remove (putNew ready temporary contents) temporary).put place'
      (.file ready.nextNumber contents)).nodes.get? place'
        = some (.file ready.nextNumber contents) := by
    rw [put, Table.get?_insert, if_pos rfl]
  exact read_of_file hplace' hput hread

end Installing

end FileTree

end ClassSharing
