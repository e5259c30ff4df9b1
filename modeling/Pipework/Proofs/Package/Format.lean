import Pipework.Proofs.Package.Files
import Pipework.Proofs.Store.Isolation
import Pipework.Workspace.Generate

/-!
# Formatting packages

A formatter is asked about each Go file of a package. What it puts out replaces the file, and what
it says against a file becomes a warning; no other file changes, none comes and none goes, and the
digest is again that of the files (`Package.formats_format`). A package is unchanged where
formatting is turned off, or where the formatter changes nothing (`Graph.package_formatted`).
-/

namespace Pipework

namespace Package

variable {package : Package} {formatter : Formatter} {path contents : String}

/-! ## Single files -/

/-- A file that a formatter refuses, and why it does. -/
def failure? (formatter : Formatter) (file : String × String) : Option (String × String) :=
  if isGoFile file.1 then
    match formatter file.2 with
    | .ok _ => none
    | .error reason => some (file.1, reason)
  else none

theorem isGoFile_iff :
    isGoFile path = true ↔ ".go".toList <:+ path.toList := by
  rw [isGoFile, List.isSuffixOf_iff_suffix]

theorem failure?_eq_some_iff
    {file failure : String × String} :
    failure? formatter file = some failure ↔
      failure.1 = file.1 ∧ ".go".toList <:+ file.1.toList ∧
        formatter file.2 = .error failure.2 := by
  rw [failure?, ← isGoFile_iff]
  by_cases goFile : isGoFile file.1 = true
  · rw [if_pos goFile]
    cases outcome : formatter file.2 with
    | ok output => simp
    | error reason =>
        rw [Option.some_inj, Prod.ext_iff]
        simp [goFile, eq_comm]
  · rw [if_neg goFile]
    simp [goFile]

theorem formatFailure?_eq
    (file : String × String) :
    formatFailure? formatter file.1 file.2 =
      (failure? formatter file).map fun failure =>
        "gofmt failed on " ++ failure.1 ++ ": " ++ failure.2 := by
  rw [formatFailure?, failure?]
  split_ifs with goFile
  · cases formatter file.2 <;> rfl
  · rfl

theorem formattedFile_of_ok
    (goFile : ".go".toList <:+ path.toList) {output : String}
    (accepted : formatter contents = .ok output) :
    formattedFile formatter path contents = output := by
  rw [formattedFile, if_pos (isGoFile_iff.mpr goFile), accepted]

theorem formattedFile_of_kept
    (kept : ".go".toList <:+ path.toList → ∃ reason, formatter contents = .error reason) :
    formattedFile formatter path contents = contents := by
  rw [formattedFile]
  split_ifs with goFile
  · obtain ⟨reason, refused⟩ := kept (isGoFile_iff.mp goFile)
    rw [refused]
  · rfl

/-! ## The whole package -/

/-- What a formatter makes of a package. -/
structure Formats (formatter : Formatter) (package formatted : Package) : Prop where
  name : formatted.name = package.name
  modulePath : formatted.modulePath = package.modulePath
  isCommand : formatted.isCommand = package.isCommand
  paths : formatted.files.keys = package.files.keys
  replaced {path contents output : String} (found : package.files.get? path = some contents)
    (goFile : ".go".toList <:+ path.toList) (accepted : formatter contents = .ok output) :
    formatted.files.get? path = some output
  kept {path contents : String} (found : package.files.get? path = some contents)
    (unformatted : ".go".toList <:+ path.toList → ∃ reason, formatter contents = .error reason) :
    formatted.files.get? path = some contents
  warned : ∃ failures : List (String × String),
    formatted.diagnostics = package.diagnostics ++ failures.map (fun failure =>
      "gofmt failed on " ++ failure.1 ++ ": " ++ failure.2) ∧
    (failures.map Prod.fst).Pairwise (· < ·) ∧
    ∀ path reason, (path, reason) ∈ failures ↔ ∃ contents,
      package.files.get? path = some contents ∧ ".go".toList <:+ path.toList ∧
        formatter contents = .error reason
  isSealed : formatted.IsSealed

theorem files_format
    (package : Package) (formatter : Formatter) :
    (package.format formatter).files = package.files.mapEntries (formattedFile formatter) := by
  rw [format, sealed]

theorem get?_format
    (found : package.files.get? path = some contents) :
    (package.format formatter).files.get? path = some (formattedFile formatter path contents) := by
  rw [files_format, Table.get?_mapEntries, found, Option.map_some]

theorem diagnostics_format
    (package : Package) (formatter : Formatter) :
    (package.format formatter).diagnostics = package.diagnostics ++
      (package.files.entries.filterMap (failure? formatter)).map fun failure =>
        "gofmt failed on " ++ failure.1 ++ ": " ++ failure.2 := by
  rw [List.map_filterMap, format, sealed]
  simp only [formatFailure?_eq]

theorem failures_increasing
    (package : Package) (formatter : Formatter) :
    ((package.files.entries.filterMap (failure? formatter)).map Prod.fst).Pairwise (· < ·) := by
  rw [List.pairwise_map, List.pairwise_filterMap]
  refine package.files.ordered.imp ?_
  intro first second before firstFailure isFirst secondFailure isSecond
  rw [(failure?_eq_some_iff.mp isFirst).1, (failure?_eq_some_iff.mp isSecond).1]
  exact before

theorem formats_format
    (package : Package) (formatter : Formatter) :
    Formats formatter package (package.format formatter) where
  name := by rw [format, sealed]
  modulePath := by rw [format, sealed]
  isCommand := by rw [format, sealed]
  paths := by
    rw [Table.keys_eq_iff]
    intro path
    rw [Table.contains, Table.contains, files_format, Table.get?_mapEntries, Option.isSome_map]
  replaced found goFile accepted := by
    rw [get?_format found, formattedFile_of_ok goFile accepted]
  kept found unformatted := by
    rw [get?_format found, formattedFile_of_kept unformatted]
  warned := by
    refine ⟨_, package.diagnostics_format formatter, package.failures_increasing formatter, ?_⟩
    intro path reason
    rw [List.mem_filterMap]
    constructor
    · intro failed
      obtain ⟨⟨name, contents⟩, member, failure⟩ := failed
      obtain ⟨rfl, goFile, refused⟩ := failure?_eq_some_iff.mp failure
      exact ⟨contents, Table.mem_entries_iff.mp member, goFile, refused⟩
    · intro failed
      obtain ⟨contents, found, goFile, refused⟩ := failed
      exact ⟨(path, contents), Table.mem_entries_iff.mpr found,
        failure?_eq_some_iff.mpr ⟨rfl, goFile, refused⟩⟩
  isSealed := isSealed_sealed _

/-- A formatter that gives back the Go files of a package leaves it as it is, with its digest. -/
theorem format_eq_self
    (isSealed : package.IsSealed)
    (unchanged : ∀ path contents, package.files.get? path = some contents →
      ".go".toList <:+ path.toList → formatter contents = .ok contents) :
    package.format formatter = package := by
  have sameFiles : package.files.mapEntries (formattedFile formatter) = package.files := by
    refine Table.ext_get? fun path => ?_
    rw [Table.get?_mapEntries]
    cases found : package.files.get? path with
    | none => rfl
    | some contents =>
        rw [Option.map_some, formattedFile]
        split_ifs with goFile
        · rw [unchanged path contents found (isGoFile_iff.mp goFile)]
        · rfl
  have noFailure : (package.files.entries.filterMap fun file =>
      formatFailure? formatter file.1 file.2) = [] := by
    rw [List.filterMap_eq_nil_iff]
    intro file member
    rw [formatFailure?]
    split_ifs with goFile
    · rw [unchanged file.1 file.2 (Table.mem_entries_iff.mp member) (isGoFile_iff.mp goFile)]
    · rfl
  rw [format, sameFiles, noFailure, List.append_nil]
  exact isSealed.sealed_eq

end Package

namespace Graph

variable {graph : Graph} {package : Package}

/-- A rendered package is formatted as the project wants it: not at all, or by the program of the
project; and a formatter that changes nothing leaves it as it is, with its digest. -/
theorem package_formatted
    (made : graph.package = .ok package) :
    (∀ formatter, Package.Formats formatter package (package.format formatter)) ∧
      (∀ formatter : Formatter,
        (∀ path contents, package.files.get? path = some contents →
          ".go".toList <:+ path.toList → formatter contents = .ok contents) →
        package.format formatter = package) ∧
      ∀ (workspace : Workspace) (host : Host) (tree : FileTree) (key : String),
        workspace.store.graphs.get? key = some graph →
        workspace.package host tree key = .ok
          (if workspace.project.settings.codegen.format then
            package.format (formatWith host tree workspace.project.settings.codegen.gofmt)
          else package) := by
  refine ⟨package.formats_format, fun _ => Package.format_eq_self (yields_of_made made).isSealed,
    ?_⟩
  intro workspace host tree key loaded
  have generated : workspace.store.generate key = .ok package :=
    Store.generate_eq_ok_iff.mpr ⟨graph, loaded, made⟩
  rw [Workspace.package, generated]
  dsimp only
  split <;> rfl

/-- A formatter that takes the runner of a library but not its main file. -/
theorem package_formatted_runnerOnly :
    let library := empty "g" "example.com/lib" false
    let formatter : Formatter := fun source =>
      if source = Source.runner "g" "example.com/lib" then .ok "package main\n"
      else .error "refused"
    ∃ package, library.package = .ok package ∧
      (package.format formatter).files.get? Package.runnerFile = some "package main\n" ∧
      (package.format formatter).files.get? "lib.go" = package.files.get? "lib.go" ∧
      ∃ failures, (package.format formatter).diagnostics = package.diagnostics ++ failures ∧
        "gofmt failed on lib.go: refused" ∈ failures := by
  intro library formatter
  obtain ⟨package, made, yields⟩ := exists_yields (rfl : library.problems = [])
  obtain ⟨formats, _, _⟩ := package_formatted made
  have isMain : library.mainFile = "lib.go" := by decide +kernel
  have path : library.modulePath = "example.com/lib" := by decide +kernel
  have main : package.files.get? "lib.go" = some (Source.main library library.packageName) := by
    rw [yields.files, ← isMain, get?_mainFile]
  have runner : package.files.get? Package.runnerFile =
      some (Source.runner "g" "example.com/lib") := by
    rw [yields.files, get?_runnerFile rfl, path]
    rfl
  have refused : formatter (Source.main library library.packageName) = .error "refused" := by
    have apart : Source.main library library.packageName ≠ Source.runner "g" "example.com/lib" := by
      decide +kernel
    exact if_neg apart
  have goFile : ".go".toList <:+ "lib.go".toList := by decide
  obtain ⟨failures, warned, _, failures_iff⟩ := (formats formatter).warned
  refine ⟨package, made, (formats formatter).replaced runner (by decide) (if_pos rfl), ?_, _,
    warned, ?_⟩
  · rw [main]
    exact (formats formatter).kept main fun _ => ⟨_, refused⟩
  · rw [List.mem_map]
    exact ⟨("lib.go", "refused"), (failures_iff _ _).mpr ⟨_, main, goFile, refused⟩, rfl⟩

end Graph

end Pipework
