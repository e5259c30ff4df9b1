import Pipework.Proofs.FileTree

/-!
# What changes of a tree leave alone

To make directories, whether or not all of them can be made, puts directories where nothing was
and touches nothing else (`FileTree.makeDirectories_makes`). To write a file puts it at the place to
which its path leads (`FileTree.writeFile_writes`).
-/

namespace Pipework.FileTree

theorem ne_nil_of_noEntry
    {tree : FileTree} {place : Place} (nothing : tree.entryAt? place = none) :
    place ≠ [] := by
  rintro rfl
  rw [entryAt?, if_pos rfl] at nothing
  cases nothing

/-! ## Directories that are made -/

section Entries

variable {first second third : Option FileEntry}

/-- What stands at a place still stands there when directories are made where nothing was. -/
theorem present_of_made
    {entry : FileEntry} (present : first = some entry)
    (change : second = first ∨ first = none ∧ second = some .directory) :
    second = some entry := by
  rcases change with same | ⟨nothing, _⟩
  · exact same.trans present
  · rw [nothing] at present
    exact nomatch present

theorem made_trans
    (change : second = first ∨ first = none ∧ second = some .directory)
    (next : third = second ∨ second = none ∧ third = some .directory) :
    third = first ∨ first = none ∧ third = some .directory := by
  rcases next with same | ⟨nothing, made⟩
  · rw [same]
    exact change
  · rcases change with sameFirst | ⟨nothingFirst, _⟩
    · exact .inr ⟨sameFirst.symm.trans nothing, made⟩
    · exact .inr ⟨nothingFirst, made⟩

end Entries

/-- The second tree differs from the first at most in directories where nothing was. -/
structure MakesDirectories (before after : FileTree) : Prop where
  sameStart : after.workingDirectory = before.workingDirectory
  entry : ∀ place, after.entryAt? place = before.entryAt? place ∨
    before.entryAt? place = none ∧ after.entryAt? place = some .directory

namespace MakesDirectories

variable {before middle after : FileTree}

theorem refl
    (tree : FileTree) :
    MakesDirectories tree tree :=
  ⟨rfl, fun _ => .inl rfl⟩

theorem trans
    (first : MakesDirectories before middle) (second : MakesDirectories middle after) :
    MakesDirectories before after where
  sameStart := second.sameStart.trans first.sameStart
  entry place := made_trans (first.entry place) (second.entry place)

theorem put
    {tree : FileTree} {place : Place} (nothing : tree.entryAt? place = none) :
    MakesDirectories tree (tree.put place .directory) := by
  have below := ne_nil_of_noEntry nothing
  refine ⟨rfl, fun other => ?_⟩
  rw [entryAt?_put tree below]
  by_cases same : other = place
  · rw [if_pos same, same]
    exact .inr ⟨nothing, rfl⟩
  · rw [if_neg same]
    exact .inl rfl

theorem keepsDirectories
    (makes : MakesDirectories before after) :
    KeepsDirectories before after where
  sameStart := makes.sameStart
  directory isDirectory := present_of_made isDirectory (makes.entry _)

/-- The files are those that were there, with what they held. -/
theorem file_iff
    (makes : MakesDirectories before after) (place : Place) (contents : ByteArray) :
    after.entryAt? place = some (.file contents) ↔
      before.entryAt? place = some (.file contents) := by
  rcases makes.entry place with same | ⟨nothing, made⟩
  · rw [same]
  · rw [nothing, made]
    exact iff_of_false nofun nofun

end MakesDirectories

theorem makeDirectory_makes
    {tree next : FileTree} {path : String} (made : tree.makeDirectory path = .ok next) :
    MakesDirectories tree next := by
  obtain ⟨place, _, nothing, rfl⟩ := makeDirectory_eq_ok_iff.mp made
  exact .put nothing

theorem makeDirectoriesWithin_makes
    (fuel : Nat) (tree : FileTree) (path : String) :
    MakesDirectories tree (tree.makeDirectoriesWithin fuel path).2 := by
  induction fuel generalizing tree path with
  | zero => exact .refl tree
  | succ fuel inductionHypothesis =>
      rw [makeDirectoriesWithin]
      by_cases empty : path.isEmpty = true
      · rw [if_pos empty]
        exact .refl tree
      · rw [if_neg empty]
        split
        · rename_i next made
          exact makeDirectory_makes made
        · split
          · exact .refl tree
          · rename_i parent _
            have above := inductionHypothesis tree parent
            split
            · rename_i partly isPartly
              rw [isPartly] at above
              exact above
            · rename_i ready isReady
              rw [isReady] at above
              split
              · rename_i next made
                exact above.trans (makeDirectory_makes made)
              · exact above
        · exact .refl tree

/-- Directories are made where nothing is, as far as they can be made. -/
theorem makeDirectories_makes
    (tree : FileTree) (path : String) :
    MakesDirectories tree (tree.makeDirectories path).2 :=
  makeDirectoriesWithin_makes _ tree path

/-! ## Files that are written -/

/-- The second tree differs from the first in a file, which stands where no directory was, and
at most in directories where nothing was. -/
structure WritesFile (before after : FileTree) (place : Place) (contents : ByteArray) : Prop where
  sameStart : after.workingDirectory = before.workingDirectory
  noDirectory : before.entryAt? place ≠ some .directory
  written : after.entryAt? place = some (.file contents)
  elsewhere : ∀ other, other ≠ place → after.entryAt? other = before.entryAt? other ∨
    before.entryAt? other = none ∧ after.entryAt? other = some .directory

namespace WritesFile

variable {before middle after : FileTree} {place : Place} {contents : ByteArray}

theorem put
    {tree : FileTree} (below : place ≠ []) (noDirectory : tree.entryAt? place ≠ some .directory)
    (contents : ByteArray) :
    WritesFile tree (tree.put place (.file contents)) place contents where
  sameStart := rfl
  noDirectory := noDirectory
  written := by rw [entryAt?_put tree below, if_pos rfl]
  elsewhere other different := by
    rw [entryAt?_put tree below, if_neg different]
    exact .inl rfl

theorem put_nothing
    {tree : FileTree} (nothing : tree.entryAt? place = none) (contents : ByteArray) :
    WritesFile tree (tree.put place (.file contents)) place contents := by
  have below := ne_nil_of_noEntry nothing
  refine put below ?_ contents
  rw [nothing]
  exact nofun

theorem after_makes
    (makes : MakesDirectories before middle) (writes : WritesFile middle after place contents) :
    WritesFile before after place contents where
  sameStart := writes.sameStart.trans makes.sameStart
  noDirectory isDirectory := writes.noDirectory (makes.keepsDirectories.directory isDirectory)
  written := writes.written
  elsewhere other different := made_trans (makes.entry other) (writes.elsewhere other different)

theorem keepsDirectories
    (writes : WritesFile before after place contents) :
    KeepsDirectories before after where
  sameStart := writes.sameStart
  directory {other} isDirectory := by
    have different : other ≠ place := fun same => writes.noDirectory (same ▸ isDirectory)
    exact present_of_made isDirectory (writes.elsewhere other different)

end WritesFile

theorem writeFile_eq_ok_iff
    {tree next : FileTree} {path : String} {contents : ByteArray} :
    tree.writeFile path contents = .ok next ↔
      ∃ place, tree.locate path = .ok place ∧ tree.entryAt? place ≠ some .directory ∧
        next = tree.put place (.file contents) := by
  rw [writeFile, bind_eq_ok_iff]
  refine exists_congr fun place => and_congr_right fun _ => ?_
  split
  · rename_i taken
    rw [taken]
    simp [throw, throwThe, MonadExceptOf.throw]
  · rename_i free
    rw [pure_eq_ok_iff]
    exact (and_iff_right free).symm

theorem writeFile_writes
    {tree next : FileTree} {path : String} {contents : ByteArray}
    (isWritten : tree.writeFile path contents = .ok next) :
    ∃ place, tree.locate path = .ok place ∧ WritesFile tree next place contents := by
  obtain ⟨place, leads, noDirectory, rfl⟩ := writeFile_eq_ok_iff.mp isWritten
  have below : place ≠ [] := by
    rintro rfl
    exact noDirectory (by simp [entryAt?])
  exact ⟨place, leads, .put below noDirectory contents⟩

end Pipework.FileTree
