import Pipework.Proofs.Except
import Pipework.Proofs.Package.Name
import Pipework.Proofs.Text.Blank

/-!
# Files of packages

A package has a main file and a module file, and that of a library has a runner besides
(`Graph.get?_packageFiles_iff`). Its digest is always that of these files.
-/

namespace Pipework

namespace Package

/-- The main file of the runner of a library. -/
def runnerFile : String := runnerDirectory ++ "/main.go"

/-- The digest is that of the files. -/
def IsSealed (package : Package) : Prop :=
  package.digest = Digest.text (digestMessage package.files)

theorem isSealed_sealed
    (package : Package) :
    package.sealed.IsSealed := by
  rw [IsSealed, sealed]

theorem IsSealed.sealed_eq
    {package : Package} (isSealed : package.IsSealed) :
    package.sealed = package := by
  rw [sealed, ← isSealed]

end Package

namespace Graph

variable {graph : Graph} {package : Package}

/-! ## Names of files -/

/-- The main file of the package of a graph. -/
def mainFile (graph : Graph) : String := Package.mainFileName graph.isCommand graph.packageName

theorem isNamePart_of_mem_packageName
    {character : Char} (member : character ∈ graph.packageName.toList) :
    isNamePart character = true := by
  have isGoName : isGoName graph.packageName = true := by
    rw [packageName]
    split
    · decide
    · exact Go.isGoName_packageName graph.packagePath
  exact Go.isNamePart_of_isGoName isGoName member

/-- A module path has no blank end, for it is cut or made up. -/
theorem getLast?_modulePath
    (graph : Graph) :
    graph.modulePath.toList.getLast? ≠ some '\r' := by
  rw [modulePath]
  split
  · intro last
    have isGoName := Go.isGoName_packageName graph.name
    exact absurd (Go.isNamePart_of_isGoName isGoName (List.mem_of_getLast? last)) (by decide)
  · rw [Text.trim, String.toList_ofList]
    exact Text.getLast?_dropBlankEnd (by decide) _

theorem mainFile_of_command
    (command : graph.isCommand = true) :
    graph.mainFile = "main.go" := by
  rw [mainFile, Package.mainFileName, if_pos command]

theorem mainFile_of_library
    (library : graph.isCommand = false) :
    graph.mainFile = graph.packageName ++ ".go" := by
  rw [mainFile, Package.mainFileName, library, if_neg nofun]

theorem getLast?_mainFile
    (graph : Graph) :
    graph.mainFile.toList.getLast? = some 'o' := by
  cases kind : graph.isCommand with
  | true =>
      rw [mainFile_of_command kind]
      decide
  | false =>
      rw [mainFile_of_library kind, String.toList_append,
        List.getLast?_append_of_ne_nil _ (by decide)]
      decide

theorem isNamePart_of_mem_mainFile
    {character : Char} (member : character ∈ graph.mainFile.toList) :
    isNamePart character = true ∨ character = '.' := by
  -- Checked one by one: a statement about every character would be decided for all there are.
  have fixed : ("main.go".toList ++ ".go".toList).all (fun character =>
      isNamePart character || character = '.') = true := by
    decide
  have known (inFixed : character ∈ "main.go".toList ++ ".go".toList) :
      isNamePart character = true ∨ character = '.' := by
    simpa using List.all_eq_true.mp fixed character inFixed
  cases kind : graph.isCommand with
  | true =>
      rw [mainFile_of_command kind] at member
      exact known (List.mem_append_left _ member)
  | false =>
      rw [mainFile_of_library kind, String.toList_append, List.mem_append] at member
      rcases member with inName | inEnding
      · exact Or.inl (isNamePart_of_mem_packageName inName)
      · exact known (List.mem_append_right _ inEnding)

theorem mainFile_ne_goMod
    (graph : Graph) :
    graph.mainFile ≠ "go.mod" := by
  intro same
  have ends := graph.getLast?_mainFile
  rw [same] at ends
  exact absurd ends (by decide)

theorem mainFile_ne_runnerFile
    (graph : Graph) :
    graph.mainFile ≠ Package.runnerFile := by
  intro same
  have slash : '/' ∈ graph.mainFile.toList := by
    rw [same]
    decide
  exact absurd (isNamePart_of_mem_mainFile slash) (by decide)

/-! ## What a package holds -/

/-- A graph of one node with a part, bound to nothing. -/
def lone (path : String) (isCommand : Bool) (part : Part) : Graph :=
  { empty "g" path isCommand with
    nodes := Table.empty.insert "A" ⟨"A", true, 1, true, 0, 0, part, Node.unbound part⟩ }

/-- The package is the one of the graph. -/
structure Yields (graph : Graph) (package : Package) : Prop where
  name : package.name = graph.packageName
  modulePath : package.modulePath = graph.modulePath
  isCommand : package.isCommand = graph.isCommand
  files : package.files = graph.packageFiles
  isSealed : package.IsSealed

theorem yields_of_made
    (made : graph.package = .ok package) :
    graph.Yields package := by
  rw [Graph.package, check_bind_eq_ok_iff, pure_eq_ok_iff] at made
  obtain ⟨_, rfl⟩ := made
  refine ⟨?_, ?_, ?_, ?_, Package.isSealed_sealed _⟩ <;> rw [Package.sealed]

theorem exists_yields
    (unproblematic : graph.problems = []) :
    ∃ package, graph.package = .ok package ∧ graph.Yields package := by
  obtain ⟨package, made⟩ := package_of_no_problems unproblematic
  exact ⟨package, made, yields_of_made made⟩

theorem packageFiles_of_command
    (command : graph.isCommand = true) :
    graph.packageFiles =
      (Table.empty.insert graph.mainFile (Source.main graph graph.packageName)).insert "go.mod"
        (Source.goMod graph.modulePath) := by
  simp only [packageFiles, command, if_true, mainFile]

theorem packageFiles_of_library
    (library : graph.isCommand = false) :
    graph.packageFiles =
      ((Table.empty.insert graph.mainFile (Source.main graph graph.packageName)).insert
        Package.runnerFile (Source.runner graph.name graph.modulePath)).insert "go.mod"
          (Source.goMod graph.modulePath) := by
  simp only [packageFiles, library, mainFile, Package.runnerFile, Bool.false_eq_true, if_false]

theorem get?_packageFiles_iff
    {name contents : String} :
    graph.packageFiles.get? name = some contents ↔
      (name = "go.mod" ∧ contents = Source.goMod graph.modulePath) ∨
        (graph.isCommand = false ∧ name = Package.runnerFile ∧
          contents = Source.runner graph.name graph.modulePath) ∨
        (name = graph.mainFile ∧ contents = Source.main graph graph.packageName) := by
  have goModApart : Package.runnerFile ≠ "go.mod" := by decide
  cases kind : graph.isCommand with
  | true =>
      rw [packageFiles_of_command kind, Table.get?_insert_iff, Table.get?_insert_iff,
        Table.get?_empty]
      have apart := graph.mainFile_ne_goMod
      grind
  | false =>
      rw [packageFiles_of_library kind, Table.get?_insert_iff, Table.get?_insert_iff,
        Table.get?_insert_iff, Table.get?_empty]
      have apart := graph.mainFile_ne_goMod
      have runnerApart := graph.mainFile_ne_runnerFile
      grind

theorem get?_mainFile
    (graph : Graph) :
    graph.packageFiles.get? graph.mainFile = some (Source.main graph graph.packageName) :=
  get?_packageFiles_iff.mpr (Or.inr (Or.inr ⟨rfl, rfl⟩))

theorem get?_goMod
    (graph : Graph) :
    graph.packageFiles.get? "go.mod" = some (Source.goMod graph.modulePath) :=
  get?_packageFiles_iff.mpr (Or.inl ⟨rfl, rfl⟩)

theorem get?_runnerFile
    (library : graph.isCommand = false) :
    graph.packageFiles.get? Package.runnerFile =
      some (Source.runner graph.name graph.modulePath) :=
  get?_packageFiles_iff.mpr (Or.inr (Or.inl ⟨library, rfl, rfl⟩))

theorem Yields.source
    (yields : graph.Yields package) :
    package.source = Source.main graph graph.packageName := by
  have isMain : package.mainFile = graph.mainFile := by
    rw [Package.mainFile, yields.isCommand, yields.name, mainFile]
  rw [Package.source, isMain, yields.files, get?_mainFile, Option.getD_some]

end Graph

end Pipework
