import Pipework.Proofs.FileTree.Changes

/-!
# Files that are written one after the other

A path under which a file was written leads in the end to what the last write to its place has
put there (`FileTree.WritesInTurn.readFile_eq`). So each file is found as it was written exactly
when no two writes to one place differ (`FileTree.WritesInTurn.found_iff`). Writes end before the
first file that cannot be written (`FileTree.exists_written_of_inTurn`), and what stands where none
of them leads stays as it was (`FileTree.WritesInTurn.present`).
-/

namespace Pipework.FileTree

theorem readFile_eq_ok_iff
    {tree : FileTree} {path : String} {contents : ByteArray} :
    tree.readFile path = .ok contents ↔
      ∃ place, tree.locate path = .ok place ∧ tree.entryAt? place = some (.file contents) := by
  rw [← entry_eq_ok_iff, readFile, bind_eq_ok_iff]
  constructor
  · rintro ⟨found, isThere, isRead⟩
    split at isRead
    · exact pure_eq_ok_iff.mp isRead ▸ isThere
    · cases isRead
  · intro isThere
    exact ⟨_, isThere, rfl⟩

/-- Files are written under paths one after the other. -/
inductive WritesInTurn : FileTree → List (String × String) → FileTree → Prop
  | nil (tree : FileTree) : WritesInTurn tree [] tree
  | cons {tree next final : FileTree} {path contents : String} {place : Place}
      {rest : List (String × String)} (leads : next.locate path = .ok place)
      (writes : WritesFile tree next place contents.toUTF8)
      (others : WritesInTurn next rest final) : WritesInTurn tree ((path, contents) :: rest) final

/-- Whether a path leads to a place. -/
def leadsTo (tree : FileTree) (path : String) (place : Place) : Bool :=
  match tree.locate path with
  | .ok other => decide (other = place)
  | .error _ => false

theorem leadsTo_iff
    {tree : FileTree} {path : String} {place : Place} :
    tree.leadsTo path place = true ↔ tree.locate path = .ok place := by
  rw [leadsTo]
  cases tree.locate path <;> simp

/-- What a place holds after some writes that held contents before them. -/
def lastContents (tree : FileTree) (place : Place) (contents : String)
    (writes : List (String × String)) : String :=
  writes.foldl (fun current write => if tree.leadsTo write.1 place then write.2 else current)
    contents

namespace WritesInTurn

variable {tree middle final : FileTree} {writes more : List (String × String)}

theorem keepsDirectories
    (inTurn : WritesInTurn tree writes final) :
    KeepsDirectories tree final := by
  induction inTurn with
  | nil tree => exact ⟨rfl, id⟩
  | cons _ writes _ inductionHypothesis => exact writes.keepsDirectories.trans inductionHypothesis

theorem append
    (first : WritesInTurn tree writes middle) (second : WritesInTurn middle more final) :
    WritesInTurn tree (writes ++ more) final := by
  induction first with
  | nil _ => exact second
  | cons leads writes _ inductionHypothesis =>
      exact .cons leads writes (inductionHypothesis second)

theorem split
    {front back : List (String × String)} (inTurn : WritesInTurn tree (front ++ back) final) :
    ∃ middle, WritesInTurn tree front middle ∧ WritesInTurn middle back final := by
  induction front generalizing tree with
  | nil => exact ⟨tree, .nil tree, inTurn⟩
  | cons write rest inductionHypothesis =>
      cases inTurn with
      | cons leads writes others =>
          obtain ⟨middle, before, after⟩ := inductionHypothesis others
          exact ⟨middle, .cons leads writes before, after⟩

/-- A place that holds a file holds in the end what was last written to it. -/
theorem entryAt?_eq
    (inTurn : WritesInTurn tree writes final) {place : Place} {contents : String}
    (held : tree.entryAt? place = some (.file contents.toUTF8)) :
    final.entryAt? place = some (.file (final.lastContents place contents writes).toUTF8) := by
  induction inTurn generalizing contents with
  | nil tree => exact held
  | @cons tree next final path written other rest leads writes others inductionHypothesis =>
      have leadsInEnd := others.keepsDirectories.locate leads
      rw [lastContents, List.foldl_cons]
      by_cases same : other = place
      · rw [if_pos (leadsTo_iff.mpr (same ▸ leadsInEnd))]
        exact inductionHypothesis (same ▸ writes.written)
      · have notThere : ¬ final.leadsTo path place = true := by
          intro there
          rw [leadsTo_iff, leadsInEnd] at there
          exact same (Except.ok.inj there)
        rw [if_neg notThere]
        exact inductionHypothesis (present_of_made held (writes.elsewhere place (Ne.symm same)))

/-- Under a path that was written to stands what was last written to its place. -/
theorem readFile_eq
    {front back : List (String × String)} {path contents : String}
    (inTurn : WritesInTurn tree (front ++ (path, contents) :: back) final) :
    ∃ place, final.locate path = .ok place ∧
      final.readFile path = .ok (final.lastContents place contents back).toUTF8 := by
  obtain ⟨middle, _, after⟩ := inTurn.split
  cases after with
  | @cons _ next _ _ _ place _ leads writes others =>
      have leadsInEnd := others.keepsDirectories.locate leads
      exact ⟨place, leadsInEnd,
        readFile_eq_ok_iff.mpr ⟨place, leadsInEnd, others.entryAt?_eq writes.written⟩⟩

end WritesInTurn

theorem lastContents_of_same
    {tree : FileTree} {place : Place} {contents : String} {writes : List (String × String)}
    (same : ∀ write ∈ writes, tree.locate write.1 = .ok place → write.2 = contents) :
    tree.lastContents place contents writes = contents := by
  induction writes with
  | nil => rfl
  | cons write rest inductionHypothesis =>
      obtain ⟨first, others⟩ := List.forall_mem_cons.mp same
      rw [lastContents, List.foldl_cons]
      by_cases leads : tree.leadsTo write.1 place = true
      · rw [if_pos leads, first (leadsTo_iff.mp leads)]
        exact inductionHypothesis others
      · rw [if_neg leads]
        exact inductionHypothesis others

/-- All files are found as they were written exactly when no two that were written to one place
differ. -/
theorem WritesInTurn.found_iff
    {tree final : FileTree} {writes : List (String × String)}
    (inTurn : WritesInTurn tree writes final) :
    (∀ write ∈ writes, final.readFile write.1 = .ok write.2.toUTF8) ↔
      ∀ first ∈ writes, ∀ second ∈ writes,
        final.locate first.1 = final.locate second.1 → first.2 = second.2 := by
  constructor
  · intro found first isFirst second isSecond samePlace
    have readFirst := found first isFirst
    have readSecond := found second isSecond
    obtain ⟨place, leadsFirst, atFirst⟩ := readFile_eq_ok_iff.mp readFirst
    obtain ⟨other, leadsSecond, atSecond⟩ := readFile_eq_ok_iff.mp readSecond
    rw [leadsFirst, leadsSecond] at samePlace
    rw [← Except.ok.inj samePlace, atFirst] at atSecond
    exact String.toByteArray_inj.mp (FileEntry.file.inj (Option.some.inj atSecond))
  · rintro agree ⟨path, contents⟩ isWrite
    obtain ⟨front, back, rfl⟩ := List.append_of_mem isWrite
    obtain ⟨place, leads, isRead⟩ := inTurn.readFile_eq
    have same : ∀ write ∈ back, final.locate write.1 = .ok place → write.2 = contents := by
      intro write inBack leadsToo
      refine agree write ?_ (path, contents) isWrite (leadsToo.trans leads.symm)
      exact List.mem_append_right _ (List.mem_cons_of_mem _ inBack)
    rw [isRead, lastContents_of_same same]

/-! ## Files that are written until one cannot be -/

/-- What stands at a place still does when none of the paths that were written leads there. -/
theorem WritesInTurn.present
    {tree final : FileTree} {writes : List (String × String)} {place : Place} {entry : FileEntry}
    (inTurn : WritesInTurn tree writes final) (held : tree.entryAt? place = some entry)
    (elsewhere : ∀ write ∈ writes, final.locate write.1 ≠ .ok place) :
    final.entryAt? place = some entry := by
  induction inTurn with
  | nil tree => exact held
  | @cons _ _ _ _ _ other _ leads writes others inductionHypothesis =>
      obtain ⟨notFirst, notOthers⟩ := List.forall_mem_cons.mp elsewhere
      have different : place ≠ other := fun same =>
        notFirst (same ▸ others.keepsDirectories.locate leads)
      exact inductionHypothesis (present_of_made held (writes.elsewhere place different)) notOthers

/-- Where a file was there still is one. -/
theorem WritesInTurn.isFile
    {tree final : FileTree} {writes : List (String × String)} {place : Place}
    (inTurn : WritesInTurn tree writes final)
    (held : ∃ contents, tree.entryAt? place = some (.file contents)) :
    ∃ contents, final.entryAt? place = some (.file contents) := by
  induction inTurn with
  | nil tree => exact held
  | @cons _ _ _ _ _ other _ _ writes _ inductionHypothesis =>
      refine inductionHypothesis ?_
      by_cases same : place = other
      · exact ⟨_, same ▸ writes.written⟩
      · obtain ⟨contents, isHeld⟩ := held
        exact ⟨contents, present_of_made isHeld (writes.elsewhere place same)⟩

/-- What is written to a place stands there when everything that is written there is the same. -/
theorem WritesInTurn.written
    {tree final : FileTree} {writes : List (String × String)} {path contents : String}
    {place : Place} (inTurn : WritesInTurn tree writes final) (member : (path, contents) ∈ writes)
    (leads : final.locate path = .ok place)
    (same : ∀ write ∈ writes, final.locate write.1 = .ok place → write.2 = contents) :
    final.entryAt? place = some (.file contents.toUTF8) := by
  obtain ⟨front, back, rfl⟩ := List.append_of_mem member
  obtain ⟨other, leadsToo, isRead⟩ := inTurn.readFile_eq
  obtain rfl := Except.ok.inj (leads.symm.trans leadsToo)
  have sameBehind : ∀ write ∈ back, final.locate write.1 = .ok place → write.2 = contents :=
    fun write behind => same write (List.mem_append_right front (List.mem_cons_of_mem _ behind))
  rw [lastContents_of_same sameBehind] at isRead
  obtain ⟨found, leadsAgain, isFound⟩ := readFile_eq_ok_iff.mp isRead
  obtain rfl := Except.ok.inj (leads.symm.trans leadsAgain)
  exact isFound

theorem inTurn_cons_eq_ok_iff
    {tree final : FileTree} {step : Step} {steps : List Step} :
    inTurn (step :: steps) tree = (.ok (), final) ↔
      ∃ next, step tree = (.ok (), next) ∧ inTurn steps next = (.ok (), final) := by
  rw [inTurn]
  split
  · rename_i error partly refused
    rw [refused]
    simp
  · rename_i next isDone
    rw [isDone]
    simp

/-- Files are written in turn up to the first that cannot be written. -/
theorem exists_written_of_inTurn
    {tree final : FileTree} {files : List (String × String)} {outcome : Except OsError Unit}
    (done : inTurn (files.map fun file => writing file.1 file.2) tree = (outcome, final)) :
    ∃ front back, files = front ++ back ∧ WritesInTurn tree front final ∧
      (outcome = .ok () ↔ back = []) ∧
      ∀ file ∈ back.head?, ∀ next, final.writeFile file.1 file.2.toUTF8 ≠ .ok next := by
  induction files generalizing tree with
  | nil =>
      obtain ⟨rfl, rfl⟩ := Prod.mk.inj done
      exact ⟨[], [], rfl, .nil tree, iff_of_true rfl rfl, fun _ isHead => nomatch isHead⟩
  | cons file files inductionHypothesis =>
      rw [List.map_cons, inTurn, writing] at done
      cases isWritten : tree.writeFile file.1 file.2.toUTF8 with
      | error error =>
          simp only [isWritten] at done
          obtain ⟨rfl, rfl⟩ := Prod.mk.inj done
          refine ⟨[], file :: files, rfl, .nil tree, iff_of_false nofun (List.cons_ne_nil _ _), ?_⟩
          rintro other isHead next isNext
          obtain rfl := Option.some.inj isHead
          rw [isWritten] at isNext
          exact nomatch isNext
      | ok next =>
          simp only [isWritten] at done
          obtain ⟨front, back, rfl, writes, ends, stops⟩ := inductionHypothesis done
          obtain ⟨place, leads, first⟩ := writeFile_writes isWritten
          exact ⟨file :: front, back, rfl,
            .cons (first.keepsDirectories.locate leads) first writes, ends, stops⟩

/-- Files that are written one after the other, each in a directory that exists. -/
theorem writesInTurn_of_inTurn
    {tree final : FileTree} {files : List (String × String)}
    (done : inTurn (files.map fun file => writing file.1 file.2) tree = (.ok (), final)) :
    WritesInTurn tree files final := by
  obtain ⟨front, back, rfl, writes, ends, _⟩ := exists_written_of_inTurn done
  rw [ends.mp rfl, List.append_nil]
  exact writes

end Pipework.FileTree
