import Pipework.Proofs.Except
import Pipework.Proofs.Path
import Pipework.Proofs.Table

/-!
# Where paths lead

A path leads somewhere when every place on the way is a directory (`FileTree.locate_eq_ok_iff`), so
it leads to the same place in a tree in which all these directories still are
(`FileTree.KeepsDirectories`). Directories that were made are there and need not be made again
(`FileTree.makeDirectories_of_isDirectory`).
-/

namespace Pipework

namespace FileTree

/-! ## When a path leads somewhere -/

section Walk

variable {tree : FileTree}

theorem requireDirectory_eq_ok_iff
    {place : Place} :
    tree.requireDirectory place = .ok () ↔ tree.entryAt? place = some .directory := by
  rw [requireDirectory]
  cases tree.entryAt? place with
  | none => simp
  | some entry => cases entry <;> simp

theorem walk_cons_eq_ok_iff
    {start place : Place} {step : String} {rest : List String} :
    tree.walk start (step :: rest) = .ok place ↔
      tree.entryAt? start = some .directory ∧ step.utf8ByteSize ≤ longestName ∧
        tree.walk (advance start step) rest = .ok place := by
  simp only [walk, check_bind_eq_ok_iff, ite_throw_eq_ok_iff, requireDirectory_eq_ok_iff,
    Nat.not_lt]

theorem walk_append
    (start : Place) (front back : List String) :
    tree.walk start (front ++ back) =
      tree.walk start front >>= fun place => tree.walk place back := by
  induction front generalizing start with
  | nil => rfl
  | cons step rest inductionHypothesis =>
      rw [List.cons_append, walk, walk]
      cases tree.requireDirectory start with
      | error error => rfl
      | ok _ =>
          by_cases long : longestName < step.utf8ByteSize
          · simp only [long, if_true]
            rfl
          · simp only [long, if_false]
            exact inductionHypothesis (advance start step)

/-- System calls take paths without a null character that are neither empty nor too long. -/
theorem requirePath_eq_ok_iff
    {path : String} :
    requirePath path = .ok () ↔
      '\x00' ∉ path.toList ∧ path ≠ "" ∧ path.utf8ByteSize ≤ longestPath := by
  rw [requirePath, ← List.contains_iff_mem, ne_eq, ← String.isEmpty_iff, ← Nat.not_lt]
  cases path.toList.contains '\x00' with
  | true => exact iff_of_false nofun fun taken => absurd rfl taken.1
  | false =>
      cases path.isEmpty with
      | true => exact iff_of_false nofun fun taken => absurd rfl taken.2.1
      | false => by_cases long : longestPath < path.utf8ByteSize <;> simp [long]

theorem locate_eq_ok_iff
    {path : String} {place : Place} :
    tree.locate path = .ok place ↔
      requirePath path = .ok () ∧ tree.walk (tree.startOf path) (stepsOf path) = .ok place := by
  simp only [locate, check_bind_eq_ok_iff]

theorem entry_eq_ok_iff
    {path : String} {entry : FileEntry} :
    tree.entry path = .ok entry ↔
      ∃ place, tree.locate path = .ok place ∧ tree.entryAt? place = some entry := by
  rw [FileTree.entry, bind_eq_ok_iff]
  refine exists_congr fun place => and_congr_right fun _ => ?_
  cases tree.entryAt? place with
  | none => exact iff_of_false nofun nofun
  | some found => exact pure_eq_ok_iff.trans (by rw [Option.some.injEq, eq_comm])

theorem isDirectory_iff
    {path : String} :
    tree.isDirectory path = true ↔
      ∃ place, tree.locate path = .ok place ∧ tree.entryAt? place = some .directory := by
  rw [← entry_eq_ok_iff, isDirectory]
  split
  · rename_i isThere
    exact iff_of_true rfl isThere
  · rename_i noDirectory
    exact iff_of_false nofun noDirectory

theorem hasEntry_eq_isSome
    {path : String} {place : Place} (leads : tree.locate path = .ok place) :
    tree.hasEntry path = (tree.entryAt? place).isSome := by
  rw [hasEntry, entry, leads]
  cases found : tree.entryAt? place <;> simp only [bind, Except.bind, found] <;> rfl

theorem canonical_eq_ok_iff
    {path : String} {place : Place} :
    tree.canonical path = .ok place ↔
      tree.locate path = .ok place ∧ (tree.entryAt? place).isSome = true := by
  rw [canonical, bind_eq_ok_iff]
  constructor
  · rintro ⟨found, leads, isEntry⟩
    split at isEntry
    · rename_i entry isFound
      obtain rfl := pure_eq_ok_iff.mp isEntry
      exact ⟨leads, isFound ▸ rfl⟩
    · exact nomatch isEntry
  · rintro ⟨leads, isEntry⟩
    obtain ⟨entry, isFound⟩ := Option.isSome_iff_exists.mp isEntry
    refine ⟨place, leads, ?_⟩
    rw [isFound]
    rfl

/-- A file can be moved to a path when the directory is there and the last name is one of a file. -/
theorem moveTarget_eq_ok_iff
    {path : String} {place : Place} :
    tree.moveTarget path = .ok place ↔
      requirePath path = .ok () ∧
        ∃ directory, tree.walk (tree.startOf path) (namesOf path).dropLast = .ok directory ∧
          tree.entryAt? directory = some .directory ∧
            ∃ name, (namesOf path).getLast? = some name ∧ ¬ (name = "." ∨ name = "..") ∧
              name.utf8ByteSize ≤ longestName ∧ endsInSlash path = false ∧
                place = directory ++ [name] ∧ tree.entryAt? place ≠ some .directory := by
  rw [moveTarget, check_bind_eq_ok_iff]
  refine and_congr_right fun _ => ?_
  rw [bind_eq_ok_iff]
  refine exists_congr fun directory => and_congr_right fun _ => ?_
  rw [check_bind_eq_ok_iff, requireDirectory_eq_ok_iff]
  refine and_congr_right fun _ => ?_
  cases (namesOf path).getLast? with
  | none => simp [throw, throwThe, MonadExceptOf.throw]
  | some name =>
      simp only [ite_throw_eq_ok_iff, Option.some.injEq, exists_eq_left', Nat.not_lt,
        Bool.not_eq_true]
      refine and_congr_right fun _ => and_congr_right fun _ => and_congr_right fun _ => ?_
      split
      · rename_i taken
        constructor
        · intro refused
          exact absurd refused (by simp [throw, throwThe, MonadExceptOf.throw])
        · intro free
          exact absurd (free.1 ▸ taken) free.2
      · rename_i free
        rw [pure_eq_ok_iff]
        constructor
        · intro same
          exact ⟨same, same ▸ free⟩
        · exact And.left

theorem locate_of_moveTarget
    {path : String} {place : Place} (target : tree.moveTarget path = .ok place) :
    tree.locate path = .ok place := by
  obtain ⟨isPath, directory, leads, isDirectory, name, last, notDots, short, noSlash, rfl, _⟩ :=
    moveTarget_eq_ok_iff.mp target
  have notHere : ¬ name = "." := fun dot => notDots (Or.inl dot)
  have notUp : ¬ name = ".." := fun dots => notDots (Or.inr dots)
  have lastStep : tree.walk directory [name] = .ok (directory ++ [name]) := by
    refine walk_cons_eq_ok_iff.mpr ⟨isDirectory, short, ?_⟩
    rw [advance, if_neg notHere, if_neg notUp]
    rfl
  have steps : stepsOf path = (namesOf path).dropLast ++ [name] := by
    obtain ⟨front, isNames⟩ := List.getLast?_eq_some_iff.mp last
    rw [stepsOf, noSlash, isNames, List.dropLast_concat]
    exact List.append_nil _
  rw [locate_eq_ok_iff, steps, walk_append, leads]
  exact ⟨isPath, lastStep⟩

theorem notDirectory_of_moveTarget
    {path : String} {place : Place} (target : tree.moveTarget path = .ok place) :
    tree.entryAt? place ≠ some .directory := by
  obtain ⟨_, _, _, _, _, _, _, _, _, _, notDirectory⟩ := moveTarget_eq_ok_iff.mp target
  exact notDirectory

theorem makeDirectory_eq_ok_iff
    {path : String} {next : FileTree} :
    tree.makeDirectory path = .ok next ↔
      ∃ place, tree.locate (withoutEndSlashes path) = .ok place ∧
        tree.entryAt? place = none ∧ next = tree.put place .directory := by
  rw [makeDirectory, bind_eq_ok_iff]
  refine exists_congr fun place => and_congr_right fun _ => ?_
  cases tree.entryAt? place with
  | none => simp [pure_eq_ok_iff]
  | some entry => simp [throw, throwThe, MonadExceptOf.throw]

end Walk

/-! ## Trees that keep directories -/

/-- In the second tree all directories of the first are still there, and the same paths lead to
the same places. -/
structure KeepsDirectories (before after : FileTree) : Prop where
  sameStart : after.workingDirectory = before.workingDirectory
  directory : ∀ {place : Place}, before.entryAt? place = some .directory →
    after.entryAt? place = some .directory

theorem entryAt?_put
    (tree : FileTree) {place : Place} (below : place ≠ []) (entry : FileEntry) (other : Place) :
    (tree.put place entry).entryAt? other =
      if other = place then some entry else tree.entryAt? other := by
  rw [entryAt?, entryAt?, put]
  by_cases atRoot : other = []
  · have different : other ≠ place := fun same => below (same.symm.trans atRoot)
    rw [if_pos atRoot, if_pos atRoot, if_neg different]
  · rw [if_neg atRoot, if_neg atRoot, Table.get?_insert]

theorem put_put
    (tree : FileTree) (place : Place) (first second : FileEntry) :
    (tree.put place first).put place second = tree.put place second := by
  rw [put, put, put, Table.insert_insert]

namespace KeepsDirectories

variable {before middle after : FileTree}

theorem trans
    (first : KeepsDirectories before middle) (second : KeepsDirectories middle after) :
    KeepsDirectories before after where
  sameStart := second.sameStart.trans first.sameStart
  directory isDirectory := second.directory (first.directory isDirectory)

/-- To put something where no directory is keeps all directories. -/
theorem put
    (tree : FileTree) {place : Place} (below : place ≠ [])
    (noDirectory : tree.entryAt? place ≠ some .directory) (entry : FileEntry) :
    KeepsDirectories tree (tree.put place entry) := by
  refine ⟨rfl, ?_⟩
  intro other isDirectory
  have elsewhere : other ≠ place := fun same => noDirectory (same ▸ isDirectory)
  rw [entryAt?_put tree below, if_neg elsewhere]
  exact isDirectory

theorem walk
    (keeps : KeepsDirectories before after) {start place : Place} {steps : List String}
    (leads : before.walk start steps = .ok place) :
    after.walk start steps = .ok place := by
  induction steps generalizing start with
  | nil => exact leads
  | cons step rest inductionHypothesis =>
      obtain ⟨isDirectory, short, leadsOn⟩ := walk_cons_eq_ok_iff.mp leads
      exact walk_cons_eq_ok_iff.mpr
        ⟨keeps.directory isDirectory, short, inductionHypothesis leadsOn⟩

theorem startOf
    (keeps : KeepsDirectories before after) (path : String) :
    after.startOf path = before.startOf path := by
  rw [FileTree.startOf, FileTree.startOf, keeps.sameStart]

theorem locate
    (keeps : KeepsDirectories before after) {path : String} {place : Place}
    (leads : before.locate path = .ok place) :
    after.locate path = .ok place := by
  rw [locate_eq_ok_iff] at leads ⊢
  rw [keeps.startOf]
  exact ⟨leads.1, keeps.walk leads.2⟩

theorem isDirectory
    (keeps : KeepsDirectories before after) {path : String}
    (found : before.isDirectory path = true) :
    after.isDirectory path = true := by
  rw [isDirectory_iff] at found ⊢
  obtain ⟨place, leads, atPlace⟩ := found
  exact ⟨place, keeps.locate leads, keeps.directory atPlace⟩

/-- A file can still be moved to a place as long as no directory is put there. -/
theorem moveTarget
    (keeps : KeepsDirectories before after) {path : String} {place : Place}
    (target : before.moveTarget path = .ok place)
    (free : after.entryAt? place ≠ some .directory) :
    after.moveTarget path = .ok place := by
  obtain ⟨isPath, directory, leads, isDirectory, name, last, notDots, short, noSlash, same, _⟩ :=
    moveTarget_eq_ok_iff.mp target
  rw [← keeps.startOf path] at leads
  exact moveTarget_eq_ok_iff.mpr ⟨isPath, directory, keeps.walk leads,
    keeps.directory isDirectory, name, last, notDots, short, noSlash, same, free⟩

end KeepsDirectories

/-! ## Directories that are made -/

section Directories

variable {tree next : FileTree} {path : String}

theorem isDirectory_of_makeDirectory
    (plain : withoutEndSlashes path = path) (made : tree.makeDirectory path = .ok next) :
    next.isDirectory path = true := by
  obtain ⟨place, leads, free, rfl⟩ := makeDirectory_eq_ok_iff.mp made
  rw [plain] at leads
  have below : place ≠ [] := by
    rintro rfl
    simp [entryAt?] at free
  have noDirectory : tree.entryAt? place ≠ some .directory := by
    rw [free]
    exact nofun
  have keeps := KeepsDirectories.put tree below noDirectory .directory
  refine isDirectory_iff.mpr ⟨place, keeps.locate leads, ?_⟩
  rw [entryAt?_put tree below, if_pos rfl]

theorem isDirectory_of_present
    {error : OsError}
    (present : ((if tree.isDirectory path then .ok () else .error error, tree) :
      Except OsError Unit × FileTree) = (.ok (), next)) :
    next.isDirectory path = true := by
  obtain ⟨passed, rfl⟩ := Prod.mk.inj present
  by_cases found : tree.isDirectory path = true
  · exact found
  · rw [if_neg found] at passed
    exact nomatch passed

/-- When directories could be made, the last of them is there. -/
theorem isDirectory_of_makeDirectories
    (plain : withoutEndSlashes path = path)
    (made : tree.makeDirectories path = (.ok (), next)) :
    path = "" ∨ next.isDirectory path = true := by
  rw [makeDirectories, makeDirectoriesWithin] at made
  split at made
  · rename_i empty
    exact Or.inl (String.isEmpty_iff.mp empty)
  · right
    split at made
    · rename_i ready isMade
      obtain ⟨_, rfl⟩ := Prod.mk.inj made
      exact isDirectory_of_makeDirectory plain isMade
    · split at made
      · exact nomatch (Prod.mk.inj made).1
      · split at made
        · exact nomatch (Prod.mk.inj made).1
        · split at made
          · rename_i ready isMade
            obtain ⟨_, rfl⟩ := Prod.mk.inj made
            exact isDirectory_of_makeDirectory plain isMade
          · exact isDirectory_of_present made
    · exact isDirectory_of_present made

/-- Where a directory is, nothing has to be made. -/
theorem makeDirectories_of_isDirectory
    (plain : withoutEndSlashes path = path)
    (present : path = "" ∨ tree.isDirectory path = true) :
    tree.makeDirectories path = (.ok (), tree) := by
  rw [makeDirectories, makeDirectoriesWithin]
  split
  · rfl
  · rename_i filled
    have found : tree.isDirectory path = true := by
      rcases present with rfl | found
      · exact absurd rfl filled
      · exact found
    obtain ⟨place, leads, atPlace⟩ := isDirectory_iff.mp found
    have refused : tree.makeDirectory path = .error .alreadyExists := by
      rw [makeDirectory, plain, leads]
      simp only [bind, Except.bind, atPlace]
      rfl
    rw [refused]
    simp only [found, if_true]

end Directories

theorem ne_nil_of_moveTarget
    {tree : FileTree} {path : String} {place : Place} (target : tree.moveTarget path = .ok place) :
    place ≠ [] := by
  obtain ⟨_, directory, _, _, name, _, _, _, _, rfl, _⟩ := moveTarget_eq_ok_iff.mp target
  exact List.append_ne_nil_of_right_ne_nil directory (List.cons_ne_nil name [])

end FileTree

end Pipework
