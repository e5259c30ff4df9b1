import Mathlib.Data.List.Nodup
import Pipework.Proofs.FileTree.Below
import Pipework.Proofs.FileTree.Writes
import Pipework.Proofs.Package.Name
import Pipework.Proofs.Store.Isolation
import Pipework.Proofs.Workspace.Batch

/-!
# Packages that are generated together

The package of a graph goes into a directory that is named by the stem of its file, wherever this
file lies below the directory of the graphs. Packages that are generated in turn are all found as
they were generated exactly when no two of their files that go to one place differ
(`Workspace.generate_keeps_all_iff`); that is so when the stems differ and are names.
-/

namespace Pipework

open FileTree (WritesInTurn)

/-! ## Files of packages -/

theorem Go.noSlash_packageName
    (path : String) :
    '/' ∉ (packageName path).toList := by
  intro member
  have isPart := isNamePart_of_isGoName (isGoName_packageName path) member
  exact absurd isPart (by decide)

namespace Package

/-- The names of the files in packages: the main file of a runner, or a name without slashes. -/
def IsFileName (name : String) : Prop := name = "run/main.go" ∨ Path.IsName name

theorem isFileName_main
    {name : String} (noSlash : '/' ∉ name.toList) (isCommand : Bool) :
    IsFileName (mainFileName isCommand name) := by
  right
  cases isCommand with
  | true =>
      have isName : Path.IsName "main.go" := by decide
      exact isName
  | false =>
      have isFile : (mainFileName false name).toList = name.toList ++ ".go".toList :=
        String.toList_append
      have apart {other : String} (short : other.toList.length < 3) :
          mainFileName false name ≠ other := by
        intro same
        rw [← same, isFile, List.length_append] at short
        have three : ".go".toList.length = 3 := rfl
        omega
      refine ⟨apart (by decide), apart (by decide), apart (by decide), ?_⟩
      rw [isFile, List.mem_append, not_or]
      exact ⟨noSlash, by decide⟩

theorem IsFileName.isAbsolute
    {name : String} (isFileName : IsFileName name) :
    Path.isAbsolute name = false := by
  rcases isFileName with rfl | isName
  · decide
  · exact isName.isAbsolute

/-- The names on the way to a file of a package lead down. -/
theorem IsFileName.step_cases
    {name : String} (isFileName : IsFileName name) :
    ∀ step ∈ FileTree.namesOf name, step ≠ "." ∧ step ≠ ".." := by
  rcases isFileName with rfl | isName
  · decide
  · rw [FileTree.namesOf_name isName]
    exact List.forall_mem_singleton.mpr ⟨isName.notHere, isName.notUp⟩

theorem IsFileName.eq_of_namesOf
    {first second : String} (isFirst : IsFileName first) (isSecond : IsFileName second)
    (same : FileTree.namesOf first = FileTree.namesOf second) :
    first = second := by
  have twoSteps : FileTree.namesOf "run/main.go" = ["run", "main.go"] := by decide
  rcases isFirst with rfl | firstName <;> rcases isSecond with rfl | secondName
  · rfl
  · rw [twoSteps, FileTree.namesOf_name secondName] at same
    exact nomatch same
  · rw [twoSteps, FileTree.namesOf_name firstName] at same
    exact nomatch same
  · rw [FileTree.namesOf_name firstName, FileTree.namesOf_name secondName] at same
    exact (List.cons.inj same).1

end Package

theorem Graph.isFileName_packageFiles
    {graph : Graph} {name contents : String}
    (isFile : graph.packageFiles.get? name = some contents) :
    Package.IsFileName name := by
  have noSlash : '/' ∉ graph.packageName.toList := by
    rw [packageName]
    split
    · decide
    · exact Go.noSlash_packageName _
  have isModule : Path.IsName "go.mod" := by decide
  have isMain := Package.isFileName_main noSlash graph.isCommand
  simp only [packageFiles, Table.get?_insert] at isFile
  by_cases module : name = "go.mod"
  · rw [module]
    exact .inr isModule
  · rw [if_neg module] at isFile
    by_cases command : graph.isCommand = true
    · rw [if_pos command, Table.get?_insert] at isFile
      by_cases main : name = Package.mainFileName graph.isCommand graph.packageName
      · rw [main]
        exact isMain
      · rw [if_neg main] at isFile
        cases isFile
    · rw [if_neg command, Table.get?_insert] at isFile
      by_cases runner : name = Package.runnerDirectory ++ "/main.go"
      · rw [runner]
        exact .inl rfl
      · rw [if_neg runner, Table.get?_insert] at isFile
        by_cases main : name = Package.mainFileName graph.isCommand graph.packageName
        · rw [main]
          exact isMain
        · rw [if_neg main] at isFile
          cases isFile

namespace Workspace

variable {workspace : Workspace} {host : Host} {tree next final : FileTree} {key : String}
variable {package : Package}

theorem isFileName_of_package
    (generated : workspace.package host tree key = .ok package) :
    ∀ file ∈ package.files.entries, Package.IsFileName file.1 := by
  rintro ⟨name, contents⟩ isFile
  rw [Table.mem_entries_iff] at isFile
  unfold Workspace.package at generated
  cases inStore : workspace.store.generate key with
  | error error =>
      rw [inStore] at generated
      exact nomatch generated
  | ok plain =>
      obtain ⟨graph, _, isPackage⟩ := Store.generate_eq_ok_iff.mp inStore
      simp only [Graph.package, check_bind_eq_ok_iff, pure_eq_ok_iff] at isPackage
      have plainFiles : plain.files = graph.packageFiles := by
        rw [isPackage.2]
        rfl
      rw [inStore] at generated
      simp only at generated
      split at generated
      · rw [← Except.ok.inj generated] at isFile
        simp only [Package.format, Package.sealed, Table.get?_mapEntries, plainFiles] at isFile
        obtain ⟨before, isBefore, _⟩ := Option.map_eq_some_iff.mp isFile
        exact Graph.isFileName_packageFiles isBefore
      · rw [← Except.ok.inj generated, plainFiles] at isFile
        exact Graph.isFileName_packageFiles isFile

/-! ## Packages in turn -/

/-- The packages that are generated for keys in turn, each with its key, up to the first that
fails. -/
def packagesInTurn (workspace : Workspace) (host : Host) (tree : FileTree) :
    List String → List (String × Package)
  | [] => []
  | key :: rest =>
      match workspace.generateInto host tree key none with
      | (.error _, _) => []
      | (.ok package, written) => (key, package) :: packagesInTurn workspace host written rest

/-- The files of a package by their paths, with what is written to them. -/
def writesOf (workspace : Workspace) (entry : String × Package) : List (String × String) :=
  entry.2.files.entries.map fun file =>
    (Path.join (workspace.packageDirectory entry.1 none) file.1, file.2)

/-- Each file of a package is found in the directory of its key as it was generated. -/
def Keeps (workspace : Workspace) (tree : FileTree) (entry : String × Package) : Prop :=
  ∀ file ∈ entry.2.files.entries,
    tree.readFile (Path.join (workspace.packageDirectory entry.1 none) file.1) =
      .ok file.2.toUTF8

theorem writesInTurn_of_file
    {directory name contents : String}
    (isWritten : Toolchain.writePackageFile directory name contents tree = (.ok (), next)) :
    WritesInTurn tree [(Path.join directory name, contents)] next := by
  obtain ⟨ready, made, onwards⟩ := FileTree.inTurn_cons_eq_ok_iff.mp isWritten
  have makes := FileTree.makeDirectories_makes tree
    ((Path.parent? (Path.join directory name)).getD "")
  rw [FileTree.makingDirectories] at made
  rw [made] at makes
  have alone : [FileTree.writing (Path.join directory name) contents] =
      [(Path.join directory name, contents)].map fun file => FileTree.writing file.1 file.2 := rfl
  rw [alone] at onwards
  cases FileTree.writesInTurn_of_inTurn onwards with
  | cons leads writes others => exact .cons leads (writes.after_makes makes) others

theorem writesInTurn_of_files
    {directory : String} {files : List (String × String)}
    (areWritten : FileTree.inTurn
      (files.map fun file => Toolchain.writePackageFile directory file.1 file.2) tree =
        (.ok (), next)) :
    WritesInTurn tree (files.map fun file => (Path.join directory file.1, file.2)) next := by
  induction files generalizing tree with
  | nil =>
      obtain rfl := (Prod.mk.inj areWritten).2
      exact .nil tree
  | cons file rest inductionHypothesis =>
      obtain ⟨after, isWritten, onwards⟩ := FileTree.inTurn_cons_eq_ok_iff.mp areWritten
      exact (writesInTurn_of_file isWritten).append (inductionHypothesis onwards)

theorem generateInto_ok
    (generated : workspace.generateInto host tree key none = (.ok package, next)) :
    workspace.package host tree key = .ok package ∧
      WritesInTurn tree (workspace.writesOf (key, package)) next := by
  unfold generateInto at generated
  cases isPackage : workspace.package host tree key with
  | error failure =>
      rw [isPackage] at generated
      exact nomatch (Prod.mk.inj generated).1
  | ok found =>
      simp only [isPackage, writePackage] at generated
      cases outcome : Toolchain.writePackage (workspace.packageDirectory key none) found tree with
      | mk result written =>
          rw [outcome] at generated
          cases result with
          | error error => exact nomatch (Prod.mk.inj generated).1
          | ok _ =>
              obtain ⟨same, rfl⟩ := Prod.mk.inj generated
              have samePackage : found = package := Except.ok.inj same
              rw [samePackage] at outcome ⊢
              exact ⟨rfl, writesInTurn_of_files outcome⟩

/-- What generating several packages writes, when it comes to its end. -/
theorem generateEach_ok
    {keys : List String}
    (generated : workspace.generateEach host none tree keys = (.ok (), final)) :
    (workspace.packagesInTurn host tree keys).map Prod.fst = keys ∧
      (∀ entry ∈ workspace.packagesInTurn host tree keys,
        ∀ file ∈ entry.2.files.entries, Package.IsFileName file.1) ∧
      WritesInTurn tree
        ((workspace.packagesInTurn host tree keys).flatMap workspace.writesOf) final := by
  induction keys generalizing tree with
  | nil =>
      obtain rfl := (Prod.mk.inj generated).2
      exact ⟨rfl, fun _ member => absurd member List.not_mem_nil, .nil tree⟩
  | cons key rest inductionHypothesis =>
      unfold generateEach at generated
      unfold packagesInTurn
      cases outcome : workspace.generateInto host tree key none with
      | mk result written =>
          rw [outcome] at generated
          cases result with
          | error failure => exact nomatch (Prod.mk.inj generated).1
          | ok package =>
              obtain ⟨isPackage, writes⟩ := generateInto_ok outcome
              obtain ⟨sameKeys, areFiles, others⟩ := inductionHypothesis generated
              refine ⟨?_, List.forall_mem_cons.mpr ⟨isFileName_of_package isPackage, areFiles⟩, ?_⟩
              · rw [List.map_cons, sameKeys]
              · rw [List.flatMap_cons]
                exact writes.append others

/-- The packages of a project, as they are generated when all graphs are asked for. -/
def allPackages (workspace : Workspace) (host : Host) : List (String × Package) :=
  match workspace.loadFor none none with
  | .error _ => []
  | .ok (keys, loaded) => loaded.packagesInTurn host loaded.tree keys

theorem loadFor_all_eq_ok
    {keys : List String} {loaded : Workspace}
    (isLoaded : workspace.loadFor none none = .ok (keys, loaded)) :
    keys = workspace.keys ∧ loaded.project = workspace.project := by
  simp only [loadFor, Option.isSome_none, Bool.false_eq_true, if_false, bind_eq_ok_iff,
    pure_eq_ok_iff] at isLoaded
  obtain ⟨_, _, same⟩ := isLoaded
  rw [Prod.mk.injEq] at same
  obtain ⟨rfl, rfl⟩ := same
  exact ⟨rfl, rfl⟩

/-- What is written when the packages of all graphs are generated. -/
theorem generate_ok
    (generated : workspace.generate host none none = (.ok (), final)) :
    (workspace.allPackages host).map Prod.fst = workspace.keys ∧
      (∀ entry ∈ workspace.allPackages host,
        ∀ file ∈ entry.2.files.entries, Package.IsFileName file.1) ∧
      ∃ start, WritesInTurn start ((workspace.allPackages host).flatMap workspace.writesOf)
        final := by
  unfold generate at generated
  unfold allPackages
  cases isLoaded : workspace.loadFor none none with
  | error failure =>
      rw [isLoaded] at generated
      exact nomatch (Prod.mk.inj generated).1
  | ok found =>
      obtain ⟨keys, loaded⟩ := found
      rw [isLoaded] at generated
      obtain ⟨sameKeys, sameProject⟩ := loadFor_all_eq_ok isLoaded
      obtain ⟨keysInTurn, areFiles, writes⟩ := generateEach_ok generated
      -- Where packages go depends on nothing but the project.
      have sameWrites : loaded.writesOf = workspace.writesOf := by
        funext entry
        rw [writesOf, writesOf, packageDirectory, packageDirectory, sameProject]
      rw [sameWrites] at writes
      exact ⟨keysInTurn.trans sameKeys, areFiles, loaded.tree, writes⟩

/-- Packages are kept when each of the files that were written is found. -/
theorem keeps_all_iff
    {packages : List (String × Package)} :
    (∀ entry ∈ packages, workspace.Keeps tree entry) ↔
      ∀ write ∈ packages.flatMap workspace.writesOf,
        tree.readFile write.1 = .ok write.2.toUTF8 := by
  simp only [List.forall_mem_flatMap, writesOf, List.forall_mem_map, Keeps]

/-! ## Directories of packages -/

theorem namesOf_packageDirectory
    {key : String} (isName : Path.IsName (graphStem key)) :
    FileTree.namesOf (workspace.packageDirectory key none) =
      FileTree.namesOf workspace.project.outputPath ++ [graphStem key] := by
  rw [packageDirectory, Option.getD_none, FileTree.namesOf_join isName.isAbsolute,
    FileTree.namesOf_name isName]

theorem packageDirectory_eq_iff
    {key other : String} (isName : Path.IsName (graphStem key))
    (isOther : Path.IsName (graphStem other)) :
    workspace.packageDirectory key none = workspace.packageDirectory other none ↔
      graphStem key = graphStem other := by
  constructor
  · intro same
    have names := congrArg FileTree.namesOf same
    rw [namesOf_packageDirectory isName, namesOf_packageDirectory isOther,
      List.append_cancel_left_eq] at names
    exact (List.cons.inj names).1
  · intro same
    rw [packageDirectory, packageDirectory, same]

/-- Packages have directories of their own exactly when no two graphs have the same stem. -/
theorem nodup_directories_iff
    {keys : List String} (areNames : ∀ key ∈ keys, Path.IsName (graphStem key)) :
    (keys.map fun key => workspace.packageDirectory key none).Nodup ↔
      (keys.map graphStem).Nodup := by
  unfold List.Nodup
  rw [List.pairwise_map, List.pairwise_map]
  refine List.Pairwise.iff_of_mem fun isKey isOther => ?_
  exact not_congr (packageDirectory_eq_iff (areNames _ isKey) (areNames _ isOther))

/-- Where a file of a package is put, below the place to which the directory of all packages
leads. -/
theorem place_of_file
    {key name : String} {place : Place} (isStem : Path.IsName (graphStem key))
    (isFile : Package.IsFileName name)
    (leads : tree.locate (Path.join (workspace.packageDirectory key none) name) = .ok place) :
    ∃ start, tree.walk (tree.startOf workspace.project.outputPath)
        (FileTree.namesOf workspace.project.outputPath) = .ok start ∧
      place = start ++ graphStem key :: FileTree.namesOf name := by
  have names : FileTree.namesOf (Path.join (workspace.packageDirectory key none) name) =
      FileTree.namesOf workspace.project.outputPath ++
        graphStem key :: FileTree.namesOf name := by
    rw [FileTree.namesOf_join isFile.isAbsolute, namesOf_packageDirectory isStem,
      List.append_assoc, List.singleton_append]
  have steps : ∀ step ∈ graphStem key :: FileTree.namesOf name, step ≠ "." ∧ step ≠ ".." :=
    List.forall_mem_cons.mpr ⟨⟨isStem.notHere, isStem.notUp⟩, isFile.step_cases⟩
  obtain ⟨start, toStart, isPlace⟩ :=
    FileTree.eq_append_of_locate names (fun step member => (steps step member).2) leads
  have allNamed : (graphStem key :: FileTree.namesOf name).filter (· ≠ ".") =
      graphStem key :: FileTree.namesOf name :=
    List.filter_eq_self.mpr fun step member => decide_eq_true (steps step member).1
  rw [packageDirectory, Option.getD_none, FileTree.startOf_join tree isFile.isAbsolute,
    FileTree.startOf_join tree isStem.isAbsolute] at toStart
  rw [allNamed] at isPlace
  exact ⟨start, toStart, isPlace⟩

/-- Files of packages that go to one place have one name and belong to graphs with one stem. -/
theorem eq_of_samePlace
    {key other first second : String} {place : Place} (isStem : Path.IsName (graphStem key))
    (isOther : Path.IsName (graphStem other)) (isFirst : Package.IsFileName first)
    (isSecond : Package.IsFileName second)
    (leadsFirst :
      tree.locate (Path.join (workspace.packageDirectory key none) first) = .ok place)
    (leadsSecond :
      tree.locate (Path.join (workspace.packageDirectory other none) second) = .ok place) :
    graphStem key = graphStem other ∧ first = second := by
  obtain ⟨start, toStart, isPlace⟩ := place_of_file isStem isFirst leadsFirst
  obtain ⟨otherStart, toOther, isPlaceToo⟩ := place_of_file isOther isSecond leadsSecond
  rw [toStart] at toOther
  rw [← Except.ok.inj toOther, isPlace, List.append_cancel_left_eq, List.cons.injEq]
    at isPlaceToo
  exact ⟨isPlaceToo.1, isFirst.eq_of_namesOf isSecond isPlaceToo.2⟩

/-- Packages of graphs with different stems put no two files in one place. -/
theorem agree_of_stems_nodup
    {packages : List (String × Package)}
    (areNames : ∀ entry ∈ packages, Path.IsName (graphStem entry.1))
    (apart : (packages.map fun entry => graphStem entry.1).Nodup)
    (areFiles : ∀ entry ∈ packages,
      ∀ file ∈ entry.2.files.entries, Package.IsFileName file.1)
    {start : FileTree}
    (inTurn : WritesInTurn start (packages.flatMap workspace.writesOf) final) :
    ∀ first ∈ packages.flatMap workspace.writesOf,
      ∀ second ∈ packages.flatMap workspace.writesOf,
        final.locate first.1 = final.locate second.1 → first.2 = second.2 := by
  intro first isFirst second isSecond samePlace
  obtain ⟨front, back, isSplit⟩ := List.append_of_mem isFirst
  rw [isSplit] at inTurn
  obtain ⟨place, leadsFirst, _⟩ := inTurn.readFile_eq
  obtain ⟨entry, isEntry, inEntry⟩ := List.mem_flatMap.mp isFirst
  obtain ⟨file, isFile, rfl⟩ := List.mem_map.mp inEntry
  obtain ⟨other, isOther, inOther⟩ := List.mem_flatMap.mp isSecond
  obtain ⟨otherFile, isOtherFile, rfl⟩ := List.mem_map.mp inOther
  obtain ⟨sameStem, sameName⟩ := eq_of_samePlace (areNames entry isEntry)
    (areNames other isOther) (areFiles entry isEntry file isFile)
    (areFiles other isOther otherFile isOtherFile) leadsFirst (samePlace.symm.trans leadsFirst)
  obtain rfl : entry = other := List.inj_on_of_nodup_map apart isEntry isOther sameStem
  obtain rfl : file = otherFile :=
    List.inj_on_of_nodup_map entry.2.files.keys_nodup isFile isOtherFile sameName
  rfl

/-! ## A whole project -/

section Commands

open CommandLine (Command Surroundings withWorkspace)

variable {surroundings : Surroundings} {config : String}

theorem perform_generate
    (surroundings : Surroundings) (tree : FileTree) (config : String) :
    (Command.generate none none).perform surroundings tree config =
      .ofChange (withWorkspace tree config fun workspace =>
        workspace.generate surroundings.host none none) := rfl

theorem opens_of_generate
    (endsWell : ((Command.generate none none).perform surroundings tree config).run.status.code =
      0) :
    ∃ workspace, ofPath tree config = .ok workspace ∧
      workspace.generate surroundings.host none none =
        (.ok (), ((Command.generate none none).perform surroundings tree config).run.tree) := by
  rw [perform_generate, code_run_ofChange] at endsWell
  rw [perform_generate, tree_run_ofChange]
  unfold withWorkspace at endsWell ⊢
  cases opened : ofPath tree config with
  | error failure =>
      rw [opened] at endsWell
      exact nomatch endsWell
  | ok workspace =>
      rw [opened] at endsWell
      exact ⟨workspace, rfl, Prod.ext endsWell rfl⟩

end Commands

/-- When the packages of a whole project are generated and the process ends well, one package was
generated for each graph file, and all of them are found as they were generated exactly when no
two of their files that go to one place differ. Where the stems of all graphs are names, each
package has a directory of its own exactly when no two stems are the same, and then every package
is found. -/
theorem generate_keeps_all_iff
    {surroundings : CommandLine.Surroundings} {tree : FileTree} {config : String}
    (endsWell : ((CommandLine.Command.generate none none).perform surroundings tree
      config).run.status.code = 0) :
    let final := ((CommandLine.Command.generate none none).perform surroundings tree
      config).run.tree
    ∃ workspace, ofPath tree config = .ok workspace ∧
      let packages := workspace.allPackages surroundings.host
      let writes := packages.flatMap workspace.writesOf
      packages.map Prod.fst = workspace.keys ∧
      ((∀ entry ∈ packages, workspace.Keeps final entry) ↔
        ∀ first ∈ writes, ∀ second ∈ writes,
          final.locate first.1 = final.locate second.1 → first.2 = second.2) ∧
      ((∀ key ∈ workspace.keys, Path.IsName (graphStem key)) →
        ((workspace.keys.map fun key => workspace.packageDirectory key none).Nodup ↔
          (workspace.keys.map graphStem).Nodup) ∧
        ((workspace.keys.map graphStem).Nodup →
          ∀ entry ∈ packages, workspace.Keeps final entry)) := by
  intro final
  obtain ⟨workspace, opened, generated⟩ := opens_of_generate endsWell
  obtain ⟨sameKeys, areFiles, start, inTurn⟩ := generate_ok generated
  have keeps_iff := keeps_all_iff.trans inTurn.found_iff
  refine ⟨workspace, opened, sameKeys, keeps_iff, fun areNames => ⟨?_, fun apart => ?_⟩⟩
  · exact nodup_directories_iff areNames
  · rw [← sameKeys, List.forall_mem_map] at areNames
    rw [← sameKeys, List.map_map] at apart
    exact keeps_iff.mpr (agree_of_stems_nodup areNames apart areFiles inTurn)

/-- The files of a project with two graphs that have the same stem. -/
def sameStem : FileTree :=
  (((noFiles.put ["graphs"] .directory).put ["graphs", "nested"] .directory).put
    ["graphs", "a.json"]
      (.file "\x7b\"name\":\"a\",\"package_path\":\"p\",\"is_command\":true\x7d".toUTF8)).put
    ["graphs", "nested", "a.json"]
      (.file "\x7b\"name\":\"a\",\"package_path\":\"q\",\"is_command\":true\x7d".toUTF8)

theorem keys_sameStem :
    (ofProject sameStem (Project.ofDirectory ".")).keys = ["a.json", "nested/a.json"] := by
  have isPath : (ofProject sameStem (Project.ofDirectory ".")).project.graphsPath = "./graphs" := by
    decide +kernel
  have isTree : (ofProject sameStem (Project.ofDirectory ".")).tree = sameStem := rfl
  have leads : sameStem.locate "./graphs" = .ok ["graphs"] := by decide +kernel
  have isDirectory : sameStem.entryAt? ["graphs"] = some .directory := by decide +kernel
  have found : ((sameStem.filesBelow ["graphs"]).filter
      fun file => file.1.getLast?.any isGraphFile).map (fun file => keyOfNames file.1) =
        ["a.json", "nested/a.json"] := by decide +kernel
  rw [keys, isPath, isTree, graphKeys, leads]
  simp only [isDirectory]
  rw [found]
  exact List.mergeSort_of_pairwise (by simp)

theorem generate_keeps_all_iff_sameStem :
    let surroundings : CommandLine.Surroundings := ⟨fun _ _ => .error .notFound, .ok "", none⟩
    let run := ((CommandLine.Command.generate none none).perform surroundings sameStem
      "chanweave.yaml").run
    let workspace := ofProject sameStem (Project.ofDirectory ".")
    let packages := workspace.allPackages surroundings.host
    run.status.code = 0 ∧ packages.map Prod.fst = ["a.json", "nested/a.json"] ∧
      ¬ ∀ entry ∈ packages, workspace.Keeps run.tree entry := by
  intro surroundings run workspace packages
  have isProject : Project.loadOrDefault sameStem "chanweave.yaml" =
      .ok (Project.ofDirectory ".") := by decide +kernel
  have opened := ofPath_of_project isProject
  have generated : (workspace.generate surroundings.host none none).1 = .ok () := by
    rw [generate, loadFor, keys_sameStem]
    decide +kernel
  have endsWell : run.status.code = 0 := by
    simp only [run]
    rw [perform_generate, code_run_ofChange]
    unfold CommandLine.withWorkspace
    rw [opened]
    exact generated
  have overwritten : ∃ first ∈ packages.flatMap workspace.writesOf,
      ∃ second ∈ packages.flatMap workspace.writesOf,
        first.1 = second.1 ∧ first.2 ≠ second.2 := by
    simp only [packages]
    unfold allPackages loadFor
    rw [keys_sameStem]
    decide +kernel
  obtain ⟨found, isFound, sameKeys, keeps_iff, _⟩ := generate_keeps_all_iff endsWell
  rw [opened] at isFound
  obtain rfl := Except.ok.inj isFound
  refine ⟨endsWell, sameKeys.trans keys_sameStem, fun keeps => ?_⟩
  obtain ⟨first, isFirst, second, isSecond, samePath, differ⟩ := overwritten
  exact differ (keeps_iff.mp keeps first isFirst second isSecond (congrArg _ samePath))

end Workspace

end Pipework
