import Pipework.Proofs.FileTree.Below
import Pipework.Proofs.FileTree.Changes

/-!
# Files that are replaced

A file is replaced through a temporary one, which is written beside it and then moved. The name of
the temporary file is one that nothing in the tree has (`FileTree.nothing_beside`), so it is gone
in the end, whether or not it could be moved: what is left is the tree with the new contents in
place (`FileTree.replaceFile_eq_ok_iff`), or the tree as it was (`FileTree.eq_of_replaceFile_error`).
A file that was replaced once can be replaced again and again (`FileTree.replaceFile_again`).
-/

namespace Pipework.FileTree

/-! ## Temporary files -/

theorem toList_temporaryName
    (name : String) (number : Nat) :
    (temporaryName name number).toList =
      '.' :: (name.toList ++ '.' ::
        ((Nat.toDigits 10 number).leftpad 36 '0' ++ ['.', 't', 'm', 'p'])) := by
  simp [temporaryName]

/-- A temporary file has a longer name than the one that it is to replace. -/
theorem temporaryName_ne
    (name : String) (number : Nat) :
    temporaryName name number ≠ name := by
  intro same
  have sameLength := congrArg (fun text : String => text.toList.length) same
  simp only [toList_temporaryName, List.length_cons, List.length_append] at sameLength
  omega

theorem temporaryName_injective
    {name : String} {left right : Nat}
    (same : temporaryName name left = temporaryName name right) :
    left = right := by
  have sameText := congrArg String.toList same
  rw [toList_temporaryName, toList_temporaryName] at sameText
  injection sameText with _ sameText
  injection List.append_cancel_left sameText with _ sameText
  -- Zeros in front of the digits of a number do not count.
  have read (number : Nat) :
      Nat.ofDigitChars 10 ((Nat.toDigits 10 number).leftpad 36 '0') 0 = number := by
    rw [List.leftpad, Nat.ofDigitChars_append, Nat.ofDigitChars_replicate_zero, Nat.mul_zero,
      Nat.ofDigitChars_ten_toDigits]
  rw [← read left, List.append_cancel_right sameText, read right]

theorem isName_temporaryName
    {name : String} (noSlash : '/' ∉ name.toList) (number : Nat) :
    Path.IsName (temporaryName name number) := by
  have notShort {text : String} (short : text.toList.length ≤ 2) :
      temporaryName name number ≠ text := by
    rintro rfl
    simp only [toList_temporaryName, List.length_cons, List.length_append] at short
    omega
  refine ⟨notShort (by decide), notShort (by decide), notShort (by decide), ?_⟩
  have notDigit : '/' ∉ (Nat.toDigits 10 number).leftpad 36 '0' := by
    intro member
    rcases List.mem_append.mp member with inZeros | inDigits
    · exact absurd (List.eq_of_mem_replicate inZeros) (by decide)
    · exact absurd (Nat.isDigit_of_mem_toDigits (by decide) (by decide) inDigits) (by decide)
  simp only [toList_temporaryName, List.mem_cons, List.mem_append, not_or]
  exact ⟨by decide, noSlash, by decide, notDigit, by decide⟩

/-! ## Names that nothing has -/

theorem holdsName_iff
    {tree : FileTree} {name : String} :
    tree.holdsName name = true ↔
      ∃ place, place.getLast? = some name ∧ (tree.entryAt? place).isSome = true := by
  rw [holdsName, List.any_eq_true]
  refine exists_congr fun place => ?_
  rw [beq_iff_eq, and_comm]
  refine and_congr_right fun isLast => ?_
  have below : place ≠ [] := by
    rintro rfl
    exact nomatch isLast
  rw [entryAt?, if_neg below, Table.mem_keys_iff]
  rfl

/-- A tree has too few entries to have all temporary names. -/
theorem exists_freeNumber
    (tree : FileTree) (name : String) :
    ∃ number < tree.entries.size + 1, tree.holdsName (temporaryName name number) = false := by
  refine Decidable.byContradiction fun noneFree => ?_
  let lastNames := (List.range (tree.entries.size + 1)).map fun number =>
    some (temporaryName name number)
  have distinct : lastNames.Nodup := by
    refine List.Pairwise.map _ ?_ List.nodup_range
    exact fun left right different same =>
      different (temporaryName_injective (Option.some.inj same))
  have present : lastNames ⊆ tree.entries.keys.map List.getLast? := by
    intro last member
    obtain ⟨number, inRange, rfl⟩ := List.mem_map.mp member
    have taken : tree.holdsName (temporaryName name number) = true := by
      rw [← Bool.not_eq_false]
      exact fun free => noneFree ⟨number, List.mem_range.mp inRange, free⟩
    obtain ⟨place, isKey, isLast⟩ := List.any_eq_true.mp taken
    exact List.mem_map.mpr ⟨place, isKey, beq_iff_eq.mp isLast⟩
  have tooMany := distinct.length_le_of_subset present
  rw [List.length_map, List.length_map, List.length_range, Table.keys, List.length_map] at tooMany
  exact absurd tooMany (Nat.not_succ_le_self _)

theorem freshNumber_isLeast
    (tree : FileTree) (name : String) :
    tree.holdsName (temporaryName name (tree.freshNumber name)) = false ∧
      ∀ number < tree.freshNumber name, tree.holdsName (temporaryName name number) = true := by
  rw [freshNumber]
  cases found : (List.range (tree.entries.size + 1)).find? fun number =>
      !tree.holdsName (temporaryName name number) with
  | none =>
      obtain ⟨number, inRange, free⟩ := exists_freeNumber tree name
      have taken := List.find?_range_eq_none.mp found number inRange
      rw [free] at taken
      exact nomatch taken
  | some number =>
      obtain ⟨free, _, smaller⟩ := List.find?_range_eq_some.mp found
      refine ⟨by simpa using free, fun other before => ?_⟩
      simpa using smaller other before

/-- Trees that have the same temporary names have the same one free. -/
theorem freshNumber_congr
    {first second : FileTree} {name : String}
    (same : ∀ number, second.holdsName (temporaryName name number) =
      first.holdsName (temporaryName name number)) :
    second.freshNumber name = first.freshNumber name := by
  obtain ⟨free, taken⟩ := freshNumber_isLeast first name
  obtain ⟨freeToo, takenToo⟩ := freshNumber_isLeast second name
  rcases Nat.lt_trichotomy (second.freshNumber name) (first.freshNumber name) with
    before | equal | behind
  · rw [same] at freeToo
    exact nomatch freeToo.symm.trans (taken _ before)
  · exact equal
  · rw [← same] at free
    exact nomatch free.symm.trans (takenToo _ behind)

theorem holdsName_put
    {tree : FileTree} {place : Place} (below : place ≠ []) {name : String}
    (different : place.getLast? ≠ some name) (entry : FileEntry) :
    (tree.put place entry).holdsName name = tree.holdsName name := by
  rw [Bool.eq_iff_iff, holdsName_iff, holdsName_iff]
  refine exists_congr fun other => and_congr_right fun isLast => ?_
  have elsewhere : other ≠ place := fun same => different (same ▸ isLast)
  rw [entryAt?_put tree below, if_neg elsewhere]

/-- Nothing is where the path of a temporary file leads. -/
theorem nothing_beside
    {tree : FileTree} {path name : String} {beside : Place}
    (isName : Path.fileName? path = some name)
    (leads : tree.locate (tree.temporaryPath path name) = .ok beside) :
    tree.entryAt? beside = none := by
  let temporary := temporaryName name (tree.freshNumber name)
  have isTemporary : Path.IsName temporary :=
    isName_temporaryName (Path.noSlash_of_fileName? isName) _
  have joined : ∃ base, tree.temporaryPath path name = Path.join base temporary := by
    rw [temporaryPath, Path.withFileName, isName]
    exact ⟨_, rfl⟩
  obtain ⟨base, isPath⟩ := joined
  have names : namesOf (tree.temporaryPath path name) = namesOf base ++ [temporary] := by
    rw [isPath, namesOf_join isTemporary.isAbsolute, namesOf_name isTemporary]
  obtain ⟨start, _, isBeside⟩ :=
    eq_append_of_locate names (List.forall_mem_singleton.mpr isTemporary.notUp) leads
  have isLast : beside.getLast? = some temporary := by
    rw [isBeside, List.filter_cons_of_pos (by simpa using isTemporary.notHere), List.filter_nil,
      List.getLast?_concat]
  cases found : tree.entryAt? beside with
  | none => rfl
  | some entry =>
      have taken := holdsName_iff.mpr ⟨beside, isLast, Option.isSome_of_eq_some found⟩
      exact nomatch (freshNumber_isLeast tree name).1.symm.trans taken

/-! ## Files that are moved -/

theorem drop_put
    {tree : FileTree} {place : Place} (nothing : tree.entryAt? place = none) (entry : FileEntry) :
    (tree.put place entry).drop place = tree := by
  have below := ne_nil_of_noEntry nothing
  have absent : tree.entries.get? place = none := by
    rw [entryAt?, if_neg below] at nothing
    exact nothing
  have sameEntries : (tree.entries.insert place entry).erase place = tree.entries := by
    refine Table.ext_get? fun other => ?_
    rw [Table.get?_erase, Table.get?_insert]
    by_cases same : other = place
    · rw [if_pos same, same, absent]
    · rw [if_neg same, if_neg same]
  rw [drop, put, sameEntries]

/-- A file that stands where nothing was is in nobody's way. -/
theorem moveTarget_put_iff
    {tree : FileTree} {beside place : Place} {path : String} {contents : ByteArray}
    (nothing : tree.entryAt? beside = none) :
    (tree.put beside (.file contents)).moveTarget path = .ok place ↔
      tree.moveTarget path = .ok place := by
  have below := ne_nil_of_noEntry nothing
  have directory_iff (other : Place) :
      (tree.put beside (.file contents)).entryAt? other = some .directory ↔
        tree.entryAt? other = some .directory := by
    rw [entryAt?_put tree below]
    by_cases same : other = beside
    · rw [if_pos same, same, nothing]
      exact iff_of_false nofun nofun
    · rw [if_neg same]
  constructor
  · intro target
    have keeps : KeepsDirectories (tree.put beside (.file contents)) tree :=
      ⟨rfl, (directory_iff _).mp⟩
    exact keeps.moveTarget target
      (mt (directory_iff place).mpr (notDirectory_of_moveTarget target))
  · intro target
    have keeps : KeepsDirectories tree (tree.put beside (.file contents)) :=
      ⟨rfl, (directory_iff _).mpr⟩
    exact keeps.moveTarget target
      (mt (directory_iff place).mp (notDirectory_of_moveTarget target))

section Temporary

variable {tree : FileTree} {path source : String} {contents : ByteArray} {beside : Place}

theorem moveFile_put_eq_ok_iff
    (leads : tree.locate source = .ok beside) (nothing : tree.entryAt? beside = none)
    {next : FileTree} :
    (tree.put beside (.file contents)).moveFile source path = .ok next ↔
      ∃ place, tree.moveTarget path = .ok place ∧ next = tree.put place (.file contents) := by
  have writes := WritesFile.put_nothing nothing contents
  have found := writes.written
  rw [moveFile, writes.keepsDirectories.locate leads]
  simp only [bind, Except.bind, found]
  rw [drop_put nothing]
  cases target : (tree.put beside (.file contents)).moveTarget path with
  | error error =>
      refine iff_of_false nofun ?_
      rintro ⟨place, isTarget, _⟩
      rw [(moveTarget_put_iff nothing).mpr isTarget] at target
      exact nomatch target
  | ok place =>
      have isTarget := (moveTarget_put_iff nothing).mp target
      rw [isTarget]
      simp [pure_eq_ok_iff]

theorem removeFile_put
    (leads : tree.locate source = .ok beside) (nothing : tree.entryAt? beside = none) :
    (tree.put beside (.file contents)).removeFile source = .ok tree := by
  have writes := WritesFile.put_nothing nothing contents
  have found := writes.written
  rw [removeFile, writes.keepsDirectories.locate leads]
  simp only [bind, Except.bind, found]
  rw [drop_put nothing]
  rfl

theorem replaceThrough_of_unwritten
    {temporary : String} {error : OsError} (lost : tree.locate temporary = .error error) :
    tree.replaceThrough temporary path contents = (.error error, tree) := by
  have refused : tree.writeFile temporary contents = .error error := by
    rw [writeFile, lost]
    rfl
  simp only [replaceThrough, refused]

theorem replaceThrough_of_written
    {temporary : String} (leads : tree.locate temporary = .ok beside)
    (nothing : tree.entryAt? beside = none) :
    tree.replaceThrough temporary path contents =
      match (tree.put beside (.file contents)).moveFile temporary path with
      | .ok moved => (.ok (), moved)
      | .error error => (.error error, tree) := by
  have isWritten : tree.writeFile temporary contents = .ok (tree.put beside (.file contents)) := by
    refine writeFile_eq_ok_iff.mpr ⟨beside, leads, ?_, rfl⟩
    rw [nothing]
    exact nofun
  simp only [replaceThrough, isWritten, removeFile_put leads nothing]
  rfl

theorem replaceThrough_eq_ok_iff
    {temporary : String} (fresh : ∀ beside, tree.locate temporary = .ok beside →
      tree.entryAt? beside = none) {next : FileTree} :
    tree.replaceThrough temporary path contents = (.ok (), next) ↔
      (∃ beside, tree.locate temporary = .ok beside) ∧
        ∃ place, tree.moveTarget path = .ok place ∧ next = tree.put place (.file contents) := by
  cases leads : tree.locate temporary with
  | error error =>
      rw [replaceThrough_of_unwritten leads]
      refine iff_of_false nofun ?_
      rintro ⟨⟨beside, isBeside⟩, _⟩
      exact nomatch isBeside
  | ok beside =>
      have nothing := fresh beside leads
      rw [replaceThrough_of_written leads nothing, ← moveFile_put_eq_ok_iff leads nothing,
        and_iff_right ⟨beside, rfl⟩]
      cases (tree.put beside (.file contents)).moveFile temporary path with
      | error error => exact iff_of_false nofun nofun
      | ok moved => simp

/-- Of a temporary file that could not be moved nothing is left. -/
theorem eq_of_replaceThrough_error
    {temporary : String} (fresh : ∀ beside, tree.locate temporary = .ok beside →
      tree.entryAt? beside = none) {error : OsError} {next : FileTree}
    (refused : tree.replaceThrough temporary path contents = (.error error, next)) :
    next = tree := by
  cases leads : tree.locate temporary with
  | error lost =>
      rw [replaceThrough_of_unwritten leads] at refused
      exact (Prod.mk.inj refused).2.symm
  | ok beside =>
      rw [replaceThrough_of_written leads (fresh beside leads)] at refused
      split at refused
      · exact nomatch (Prod.mk.inj refused).1
      · exact (Prod.mk.inj refused).2.symm

end Temporary

/-! ## Replaced files -/

section Files

variable {tree next : FileTree} {path name : String} {contents : ByteArray}

theorem replaceFile_eq_ok_iff
    (isName : Path.fileName? path = some name) :
    tree.replaceFile path name contents = (.ok (), next) ↔
      (∃ beside, tree.locate (tree.temporaryPath path name) = .ok beside) ∧
        ∃ place, tree.moveTarget path = .ok place ∧ next = tree.put place (.file contents) :=
  replaceThrough_eq_ok_iff fun _ => nothing_beside isName

theorem eq_of_replaceFile_error
    (isName : Path.fileName? path = some name) {error : OsError}
    (refused : tree.replaceFile path name contents = (.error error, next)) :
    next = tree :=
  eq_of_replaceThrough_error (fun _ => nothing_beside isName) refused

theorem replaceFile_writes
    (isName : Path.fileName? path = some name)
    (replaced : tree.replaceFile path name contents = (.ok (), next)) :
    ∃ place, tree.moveTarget path = .ok place ∧ WritesFile tree next place contents := by
  obtain ⟨_, place, target, rfl⟩ := (replaceFile_eq_ok_iff isName).mp replaced
  exact ⟨place, target,
    .put (ne_nil_of_moveTarget target) (notDirectory_of_moveTarget target) contents⟩

/-- A file that is written has no temporary name, so the next temporary file is the same. -/
theorem temporaryPath_put
    (isName : Path.fileName? path = some name) {place : Place}
    (target : tree.moveTarget path = .ok place) (entry : FileEntry) :
    (tree.put place entry).temporaryPath path name = tree.temporaryPath path name := by
  have below := ne_nil_of_moveTarget target
  obtain ⟨_, _, _, _, last, isLast, notDots, _, noSlash, isPlace, _⟩ :=
    moveTarget_eq_ok_iff.mp target
  have sameName : last = name :=
    Option.some.inj ((Path.fileName?_of_namesOf isLast noSlash notDots).symm.trans isName)
  have endsInName : place.getLast? = some name := by
    rw [isPlace, sameName, List.getLast?_concat]
  have sameNumber : (tree.put place entry).freshNumber name = tree.freshNumber name := by
    refine freshNumber_congr fun number => holdsName_put below ?_ entry
    rw [endsInName]
    exact fun same => temporaryName_ne name number (Option.some.inj same).symm
  rw [temporaryPath, sameNumber, temporaryPath]

theorem readFile_put
    {place : Place} (below : place ≠ [])
    (leads : (tree.put place (.file contents)).locate path = .ok place) :
    (tree.put place (.file contents)).readFile path = .ok contents := by
  have found : (tree.put place (.file contents)).entryAt? place = some (.file contents) := by
    rw [entryAt?_put tree below, if_pos rfl]
  have entry : (tree.put place (.file contents)).entry path = .ok (.file contents) := by
    rw [FileTree.entry, leads]
    simp only [bind, Except.bind, found]
    rfl
  rw [readFile, entry]
  rfl

/-- A file that was replaced is at a place where it can be read, and replaced again. -/
theorem replaceFile_again
    (isName : Path.fileName? path = some name)
    (replaced : tree.replaceFile path name contents = (.ok (), next)) :
    ∃ place, next = tree.put place (.file contents) ∧ ∀ first,
      KeepsDirectories tree (tree.put place (.file first)) ∧
        (tree.put place (.file first)).readFile path = .ok first ∧
        ∀ second, (tree.put place (.file first)).replaceFile path name second =
          (.ok (), tree.put place (.file second)) := by
  obtain ⟨⟨beside, leadsBeside⟩, place, target, rfl⟩ :=
    (replaceFile_eq_ok_iff isName).mp replaced
  refine ⟨place, rfl, fun first => ?_⟩
  have below : place ≠ [] := ne_nil_of_moveTarget target
  have keeps :=
    KeepsDirectories.put tree below (notDirectory_of_moveTarget target) (.file first)
  have stillFree : (tree.put place (.file first)).entryAt? place ≠ some .directory := by
    rw [entryAt?_put tree below, if_pos rfl]
    exact nofun
  have targetAgain := keeps.moveTarget target stillFree
  have leadsAgain := keeps.locate leadsBeside
  rw [← temporaryPath_put isName target (.file first)] at leadsAgain
  refine ⟨keeps, readFile_put below (locate_of_moveTarget targetAgain), fun second => ?_⟩
  exact (replaceFile_eq_ok_iff isName).mpr
    ⟨⟨beside, leadsAgain⟩, place, targetAgain, (put_put tree place _ _).symm⟩

end Files

end Pipework.FileTree
