import Pipework.Proofs.FileTree.Directories
import Pipework.Proofs.FileTree.Writes
import Pipework.Project.Start

/-!
# Projects that are started

A project that was started is found again in its directory. What is read there are the settings
that were written (`Project.readText_of_start`): the later files of a new project lie elsewhere.
-/

namespace Pipework

namespace FileTree

/-- What is read under a path hangs on the place to which it leads. -/
theorem readText_congr
    {tree : FileTree} {path other : String} (same : tree.locate path = tree.locate other) :
    tree.readText path = tree.readText other := by
  rw [readText, readText, readFile, readFile, entry, entry, same]

theorem hasEntry_of_readText
    {tree : FileTree} {path text : String} (isRead : tree.readText path = .ok text) :
    tree.hasEntry path = true := by
  obtain ⟨contents, isFile, -⟩ := bind_eq_ok_iff.mp isRead
  obtain ⟨found, isFound, -⟩ := bind_eq_ok_iff.mp isFile
  rw [hasEntry, isFound]

theorem readText_of_readFile
    {tree : FileTree} {path text : String} (isRead : tree.readFile path = .ok text.toUTF8) :
    tree.readText path = .ok text := by
  have spelled : String.fromUTF8? text.toUTF8 = some text := by
    simp only [String.fromUTF8?, String.toUTF8_eq_toByteArray, dif_pos text.isValidUTF8]
    rfl
  rw [readText, isRead]
  simp only [bind, Except.bind, spelled]
  rfl

end FileTree

namespace Project

variable {tree ready final : FileTree} {path name : String} {name? : Option String}

/-- A project has the name that is asked for or that of its directory, which is there and holds no
settings yet. -/
theorem startName_eq_ok_iff :
    startName tree path name? = .ok name ↔
      ∃ place, tree.canonical path = .ok place ∧ (name? <|> place.getLast?) = some name ∧
        tree.hasEntry (Path.join path settingsFile) = false := by
  rw [startName, bind_eq_ok_iff]
  refine exists_congr fun place => and_congr mapError_eq_ok_iff ?_
  cases name? <|> place.getLast? with
  | none => exact iff_of_false nofun fun both => nomatch both.1
  | some found =>
      show (if tree.hasEntry (Path.join path settingsFile) = true then _ else _) = _ ↔ _
      rw [ite_throw_eq_ok_iff, pure_eq_ok_iff, Bool.not_eq_true, and_comm, Option.some.injEq,
        eq_comm]

/-- The first files of a project, in the order in which they are written. -/
def startFiles (path name : String) (graph : Graph) : List (String × String) :=
  [(Path.join path settingsFile, Settings.initialText name),
    (Path.join path "graphs/hello.json", graph.text), (Path.join path ".gitignore", ignoredFiles)]

theorem writesInTurn_of_writeStart
    {graph : Graph} (done : writeStart path name graph tree = (.ok (), final)) :
    ∃ made, FileTree.MakesDirectories tree made ∧
      FileTree.WritesInTurn made (startFiles path name graph) final := by
  obtain ⟨made, isMade, onwards⟩ := FileTree.inTurn_cons_eq_ok_iff.mp done
  have makes := FileTree.makeDirectories_makes tree (Path.join path "graphs")
  rw [FileTree.makingDirectories] at isMade
  rw [isMade] at makes
  exact ⟨made, makes, FileTree.writesInTurn_of_inTurn onwards⟩

theorem exists_start
    (done : start tree path name? = (.ok (), final)) :
    ∃ ready name graph, startName ready path name? = .ok name ∧
      writeStart path name graph ready = (.ok (), final) := by
  rw [start] at done
  split at done
  · exact nomatch (Prod.mk.inj done).1
  · rename_i ready isReady
    split at done
    · exact nomatch (Prod.mk.inj done).1
    · exact nomatch (Prod.mk.inj done).1
    · rename_i name graph isName _
      obtain ⟨isDone, rfl⟩ := Prod.mk.inj done
      refine ⟨ready, name, graph, isName, Prod.ext (mapError_eq_ok_iff.mp isDone) rfl⟩

/-- Where a project was started, the settings of its name are read. -/
theorem readText_of_startFiles
    {graph : Graph}
    (writes : FileTree.WritesInTurn tree (startFiles path name graph) final) :
    final.readText (Path.join path settingsFile) = .ok (Settings.initialText name) := by
  have isFirst : FileTree.WritesInTurn tree ([] ++ startFiles path name graph) final := writes
  obtain ⟨place, leads, isRead⟩ := isFirst.readFile_eq
  have isLast : (FileTree.namesOf settingsFile).getLast? = some settingsFile := by decide
  have elsewhere : ∀ write ∈ [(Path.join path "graphs/hello.json", graph.text),
      (Path.join path ".gitignore", ignoredFiles)], final.locate write.1 = .ok place →
        write.2 = Settings.initialText name := by
    intro write isWrite leadsToo
    have isSettings := FileTree.getLast?_of_locate_join (by decide) isLast (by decide) leads
    have isOther : ∃ other, place.getLast? = some other ∧ other ≠ settingsFile := by
      simp only [List.mem_cons, List.not_mem_nil, or_false] at isWrite
      rcases isWrite with rfl | rfl
      · exact ⟨"hello.json", FileTree.getLast?_of_locate_join (by decide) (by decide) (by decide)
          leadsToo, by decide⟩
      · exact ⟨".gitignore", FileTree.getLast?_of_locate_join (by decide) (by decide) (by decide)
          leadsToo, by decide⟩
    obtain ⟨other, isOther, different⟩ := isOther
    exact absurd (Option.some.inj (isOther.symm.trans isSettings)) different
  rw [FileTree.lastContents_of_same elsewhere] at isRead
  exact FileTree.readText_of_readFile isRead

/-- A project that was started has its name, a directory, and its first settings there. -/
theorem readText_of_start
    (done : start tree path name? = (.ok (), final)) :
    ∃ place name, final.canonical path = .ok place ∧
      (name? <|> place.getLast?) = some name ∧ final.isDirectory path = true ∧
      final.readText (Path.join path settingsFile) = .ok (Settings.initialText name) := by
  obtain ⟨ready, name, graph, isName, written⟩ := exists_start done
  obtain ⟨place, isPlace, named, _⟩ := startName_eq_ok_iff.mp isName
  obtain ⟨made, makes, writes⟩ := writesInTurn_of_writeStart written
  have isRead := readText_of_startFiles writes
  obtain ⟨leads, -⟩ := FileTree.canonical_eq_ok_iff.mp isPlace
  have leadsInEnd := writes.keepsDirectories.locate (makes.keepsDirectories.locate leads)
  obtain ⟨contents, isFile, -⟩ := bind_eq_ok_iff.mp isRead
  obtain ⟨file, leadsToFile, -⟩ := FileTree.readFile_eq_ok_iff.mp isFile
  have isDirectory := FileTree.isDirectory_of_locate_join
    (FileTree.locate_eq_ok_iff.mp leads).1 (by decide) (by decide) leadsToFile
  obtain ⟨found, leadsToo, isFound⟩ := FileTree.isDirectory_iff.mp isDirectory
  obtain rfl := Except.ok.inj (leadsInEnd.symm.trans leadsToo)
  exact ⟨place, name, FileTree.canonical_eq_ok_iff.mpr ⟨leadsInEnd, isFound ▸ rfl⟩, named,
    isDirectory, isRead⟩

theorem load_of_readText
    {file directory text : String} (isPlace : places tree path = (file, directory))
    (isRead : tree.readText file = .ok text) :
    load tree path = (Settings.ofText text).map fun settings => ⟨settings, directory⟩ := by
  rw [load, isPlace]
  simp only [FileTree.hasEntry_of_readText isRead, isRead]
  cases Settings.ofText text <;> rfl

end Project

end Pipework
