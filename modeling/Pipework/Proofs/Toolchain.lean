import Pipework.Proofs.Package.Files
import Pipework.Proofs.Text.Marks
import Pipework.Proofs.Workspace.Packages

/-!
# Where a program is built

A build runs in the directory of a package, and the path that it is given for the program is the
one that the caller is told. From the directory this path need not denote what it denotes for the
caller: both denote the same file exactly when the directory, seen from within itself, denotes
itself (`Toolchain.build_denotes_iff`). An absolute directory does; a relative one that never goes
up does only if it names nothing, and otherwise the program is put as far below the directory
again.
-/

namespace Pipework

/-! ## What paths denote -/

namespace FileTree

variable {tree : FileTree}

/-- The place that a path denotes, whether or not something stands there. -/
def denoted (tree : FileTree) (path : String) : Place :=
  (namesOf path).foldl advance (tree.startOf path)

/-- A path that leads somewhere leads to what it denotes. -/
theorem denoted_of_locate
    {path : String} {place : Place} (leads : tree.locate path = .ok place) :
    tree.denoted path = place := by
  have isPlace := eq_foldl_of_walk (locate_eq_ok_iff.mp leads).2
  rw [stepsOf, List.foldl_append] at isPlace
  rw [isPlace]
  cases endsInSlash path <;> rfl

theorem denoted_join
    {base path : String} (relative : Path.isAbsolute path = false) :
    tree.denoted (Path.join base path) = (namesOf path).foldl advance (tree.denoted base) := by
  rw [denoted, namesOf_join relative, startOf_join tree relative, List.foldl_append, denoted]

/-- From behind a name, one step on or up leads to different places from different places. -/
theorem advance_concat_inj
    {first second : Place} (name step : String) :
    advance (first ++ [name]) step = advance (second ++ [name]) step ↔ first = second := by
  unfold advance
  split_ifs
  · exact List.append_left_inj _
  · rw [List.dropLast_concat, List.dropLast_concat]
  · rw [List.append_left_inj, List.append_left_inj]

/-! ## The view from a directory -/

/-- The tree as a program sees it that runs in a directory. -/
def inside (tree : FileTree) (directory : String) : FileTree :=
  { tree with workingDirectory := tree.denoted directory }

theorem denoted_inside_of_isAbsolute
    {path : String} (absolute : Path.isAbsolute path = true) (directory : String) :
    (tree.inside directory).denoted path = tree.denoted path := by
  rw [denoted, denoted, startOf, startOf, if_pos absolute, if_pos absolute]

theorem denoted_inside_of_relative
    {path : String} (relative : Path.isAbsolute path = false) (directory : String) :
    (tree.inside directory).denoted path =
      (namesOf path).foldl advance (tree.denoted directory) := by
  rw [denoted, startOf, relative, if_neg Bool.false_ne_true]
  rfl

/-- Utilities see their arguments from the directory in which they run. -/
theorem denoted_pathFrom
    {call : Call} {directory : String} (runs : call.directory? = some directory)
    (argument : String) :
    tree.denoted (Utility.pathFrom call argument) = (tree.inside directory).denoted argument := by
  rw [Utility.pathFrom, runs, Option.getD_some]
  cases absolute : Path.isAbsolute argument with
  | true => rw [denoted_inside_of_isAbsolute absolute, Path.join, if_pos absolute]
  | false => rw [denoted_inside_of_relative absolute, denoted_join absolute]

/-- A relative directory that never goes up denotes itself from within only if it names
nothing. -/
theorem denoted_inside_self_iff
    {directory : String} (relative : Path.isAbsolute directory = false)
    (noUp : ".." ∉ namesOf directory) :
    (tree.inside directory).denoted directory = tree.denoted directory ↔
      ∀ name ∈ namesOf directory, name = "." := by
  rw [denoted_inside_of_relative relative, foldl_advance_of_noUp fun name member up => noUp (up ▸ member),
    List.append_right_eq_self,
    List.filter_eq_nil_iff]
  simp

end FileTree

/-! ## Names of programs -/

namespace Package

/-- A package that was rendered from a graph, formatted or not. -/
def IsGenerated (package : Package) : Prop :=
  ∃ (graph : Graph) (plain : Package), graph.package = .ok plain ∧
    (package = plain ∨ ∃ formatter, package = plain.format formatter)

variable {package : Package}

theorem IsGenerated.noSlash_name
    (generated : package.IsGenerated) :
    package.name ≠ "" ∧ '/' ∉ package.name.toList := by
  obtain ⟨graph, plain, made, isPackage⟩ := generated
  have sameName : package.name = graph.packageName := by
    rw [← (Graph.yields_of_made made).name]
    rcases isPackage with rfl | ⟨formatter, rfl⟩ <;> rfl
  rw [sameName, Graph.packageName]
  split
  · decide
  · refine ⟨fun empty => ?_, Go.noSlash_packageName _⟩
    have isGoName := Go.isGoName_packageName graph.packagePath
    rw [empty] at isGoName
    exact absurd isGoName (by decide)

/-- The program of a package has a name without slashes, though it may be a dot or two. -/
theorem IsGenerated.noSlash_binaryName
    (generated : package.IsGenerated) :
    package.binaryName ≠ "" ∧ '/' ∉ package.binaryName.toList := by
  rw [binaryName]
  split
  · exact generated.noSlash_name
  · rename_i segment first rest isSegment
    refine ⟨fun empty => ?_, ?_⟩
    · rw [← String.toList_eq_nil_iff, String.toList_ofList] at empty
      exact nomatch empty
    · rw [String.toList_ofList, ← isSegment]
      exact (Text.afterLast_cases _ _).2

end Package

/-! ## Builds -/

namespace Toolchain

variable {host : Host} {tree : FileTree} {go directory path : String} {package : Package}

theorem build_eq_ok_iff :
    build host tree go directory package = .ok path ↔
      (∃ exit, host tree (buildCall go directory package) = .ok exit ∧ exit.status = 0) ∧
        path = binaryPath directory package := by
  rw [build, bind_eq_ok_iff]
  have start_iff (exit : Exit) : start host tree (buildCall go directory package) = .ok exit ↔
      host tree (buildCall go directory package) = .ok exit := by
    rw [start]
    cases host tree (buildCall go directory package) <;> simp
  simp only [start_iff]
  constructor
  · rintro ⟨exit, started, ended⟩
    split at ended
    · rename_i well
      exact ⟨⟨exit, started, well⟩, pure_eq_ok_iff.mp ended⟩
    · exact nomatch ended
  · rintro ⟨⟨exit, started, well⟩, rfl⟩
    exact ⟨exit, started, by rw [if_pos well]; rfl⟩

/-- The program of a package stands one step behind the directory of programs, wherever the path
is seen from. -/
theorem denoted_binaryPath
    (generated : package.IsGenerated) (tree : FileTree) (directory : String) :
    tree.denoted (binaryPath directory package) =
      FileTree.advance (tree.denoted directory ++ [binaryDirectory]) package.binaryName := by
  obtain ⟨filled, noSlash⟩ := generated.noSlash_binaryName
  have isDirectory : Path.IsName binaryDirectory := by decide
  rw [binaryPath, FileTree.denoted_join (Path.isAbsolute_of_noSlash noSlash),
    FileTree.denoted_join isDirectory.isAbsolute, FileTree.namesOf_name isDirectory,
    FileTree.namesOf_of_noSlash filled noSlash]
  rfl

theorem denoted_binaryPath_iff
    (generated : package.IsGenerated) (tree : FileTree) (directory : String) :
    (tree.inside directory).denoted (binaryPath directory package) =
        tree.denoted (binaryPath directory package) ↔
      (tree.inside directory).denoted directory = tree.denoted directory := by
  rw [denoted_binaryPath generated, denoted_binaryPath generated, FileTree.advance_concat_inj]

/-- A build that succeeds tells a path and has given the same path to the program that built,
which ran in the directory of the package. From there the path denotes what it denotes for the
caller exactly when the directory does; so it is for every absolute directory, but for a relative
one that never goes up only if it names nothing. -/
theorem build_denotes_iff
    (generated : package.IsGenerated)
    (built : build host tree go directory package = .ok path) :
    let call := buildCall go directory package
    let child := tree.inside directory
    call.directory? = some directory ∧
      (∃ exit, host tree call = .ok exit ∧ exit.status = 0) ∧
      ∃ passed, call.arguments = ["build", "-o", passed, package.commandDirectory] ∧
        (child.denoted passed = tree.denoted path ↔
          child.denoted directory = tree.denoted directory) ∧
        (Path.isAbsolute directory = true → child.denoted passed = tree.denoted path) ∧
        (Path.isAbsolute directory = false → ".." ∉ FileTree.namesOf directory →
          (child.denoted passed = tree.denoted path ↔
            ∀ name ∈ FileTree.namesOf directory, name = ".")) := by
  intro call child
  obtain ⟨succeeds, rfl⟩ := build_eq_ok_iff.mp built
  have same_iff := denoted_binaryPath_iff generated tree directory
  refine ⟨rfl, succeeds, binaryPath directory package, rfl, same_iff, ?_, ?_⟩
  · intro absolute
    exact same_iff.mpr (FileTree.denoted_inside_of_isAbsolute absolute directory)
  · intro relative noUp
    exact same_iff.trans (FileTree.denoted_inside_self_iff relative noUp)

/-- The files of a project whose packages have a relative directory. -/
def oneDirectory : FileTree :=
  (Workspace.noFiles.put ["gen"] .directory).put ["gen", "g"] .directory

/-- The program of such a package is put where the caller does not look for it. -/
theorem build_denotes_iff_relative :
    ∃ package : Package, package.IsGenerated ∧
      build Host.utilities oneDirectory "/bin/true" "gen/g" package = .ok "gen/g/bin/g" ∧
      oneDirectory.denoted "gen/g/bin/g" = ["gen", "g", "bin", "g"] ∧
      ∃ passed, (buildCall "/bin/true" "gen/g" package).arguments =
          ["build", "-o", passed, package.commandDirectory] ∧
        (oneDirectory.inside "gen/g").denoted passed ≠ oneDirectory.denoted "gen/g/bin/g" := by
  obtain ⟨package, made, yields⟩ := Graph.exists_yields
    (rfl : (Graph.empty "g" "example.com/g" true).problems = [])
  have generated : package.IsGenerated := ⟨_, package, made, Or.inl rfl⟩
  have isName : package.binaryName = "g" := by
    have isSegment : Go.lastSegment (Graph.empty "g" "example.com/g" true).modulePath = ['g'] := by
      decide +kernel
    rw [Package.binaryName, yields.modulePath, isSegment]
  have isPath : binaryPath "gen/g" package = "gen/g/bin/g" := by
    rw [binaryPath, isName]
    decide +kernel
  have starts : directoryError? oneDirectory (buildCall "/bin/true" "gen/g" package) = none := by
    have isDirectory : oneDirectory.entry "gen/g" = .ok .directory := by decide +kernel
    simp only [directoryError?, buildCall, Option.bind_some, isDirectory]
  have isUtility : Utility.ofPath? "/bin/true" = some .succeed := by decide +kernel
  have ends : Host.utilities oneDirectory (buildCall "/bin/true" "gen/g" package) =
      .ok (.success "") := by
    rw [Host.utilities, starts]
    simp only [buildCall, isUtility]
    rfl
  have built : build Host.utilities oneDirectory "/bin/true" "gen/g" package =
      .ok "gen/g/bin/g" :=
    build_eq_ok_iff.mpr ⟨⟨_, ends, rfl⟩, isPath.symm⟩
  obtain ⟨_, _, passed, arguments, _, _, relative_iff⟩ := build_denotes_iff generated built
  refine ⟨package, generated, built, by decide +kernel, passed, arguments, fun same => ?_⟩
  have onlyDots := (relative_iff (by decide) (by decide)).mp same
  exact absurd (onlyDots "gen" (by decide)) (by decide)

end Toolchain

end Pipework
