import Pipework.Toolchain
import Pipework.Workspace

/-!
Generating packages from the graphs of a project, and building and running them.

Files that were written before a failure stay.
-/

namespace Pipework.Workspace

/-! ## Packages -/

/-- The package of a loaded graph, formatted as the project wants it. -/
def package (workspace : Workspace) (host : Host) (tree : FileTree) (key : String) :
    Except Failure Package :=
  match workspace.store.generate key with
  | .error error =>
      .error <|
        ((Failure.ofError error).within ("graph error: " ++ error.message)).within
          ("Failed to generate " ++ key)
  | .ok package =>
      let codegen := workspace.project.settings.codegen
      if codegen.format then .ok (package.format (formatWith host tree codegen.gofmt))
      else .ok package

/-- Writes a package into a directory. -/
def writePackage (tree : FileTree) (directory : String) (package : Package) :
    Except Failure Unit × FileTree :=
  let (result, written) := Toolchain.writePackage directory package tree
  (result.mapError fun error =>
    (Failure.ofError (.system error)).within ("Failed to write package to " ++ directory), written)

/-- Generates the package of a loaded graph and writes it where it belongs. -/
def generateInto (workspace : Workspace) (host : Host) (tree : FileTree) (key : String)
    (out? : Option String) : Except Failure Package × FileTree :=
  match workspace.package host tree key with
  | .error failure => (.error failure, tree)
  | .ok package =>
      let (result, written) := writePackage tree (workspace.packageDirectory key out?) package
      (result.map fun _ => package, written)

/-- Generates the packages of loaded graphs, up to the first that fails. -/
def generateEach (workspace : Workspace) (host : Host) (out? : Option String)
    (tree : FileTree) : List String → Except Failure Unit × FileTree
  | [] => (.ok (), tree)
  | key :: rest =>
      match workspace.generateInto host tree key out? with
      | (.error failure, partly) => (.error failure, partly)
      | (.ok _, written) => generateEach workspace host out? written rest

/-- Loads one graph, or all of them, and gives their keys. A directory can be asked for only
with one graph. -/
def loadFor (workspace : Workspace) (graph? out? : Option String) :
    Except Failure (List String × Workspace) := do
  match graph? with
  | some graph => return ([graphKey graph], ← workspace.load graph)
  | none =>
      if out?.isSome then throw (.plain "--out needs a single graph")
      let (result, store) := workspace.store.loadAll workspace.keys
      orFailWith "Failed to load graphs" result
      return (workspace.keys, { workspace with store })

/-- Generates the package of one graph, or of all of them. -/
def generate (workspace : Workspace) (host : Host) (graph? out? : Option String) :
    Except Failure Unit × FileTree :=
  match workspace.loadFor graph? out? with
  | .error failure => (.error failure, workspace.tree)
  | .ok (keys, loaded) => loaded.generateEach host out? loaded.tree keys

/-- Loads a graph, generates its package and writes it. -/
def generateOne (workspace : Workspace) (host : Host) (graph : String) (out? : Option String) :
    Except Failure Package × FileTree :=
  match workspace.load graph with
  | .error failure => (.error failure, workspace.tree)
  | .ok loaded => loaded.generateInto host loaded.tree (graphKey graph) out?

/-! ## Programs -/

/-- Tells an error of the toolchain as the failure to do something with a graph. -/
def orToolchainFailure {α : Type} (activity graph : String)
    (result : Except ToolchainError α) : Except Failure α :=
  result.mapError fun error =>
    ⟨"Failed to " ++ activity ++ " graph '" ++ graph ++ "'", [error.message]⟩

/-- Generates the package of a graph and builds its program, whose path is given. -/
def build (workspace : Workspace) (host : Host) (graph : String) (out? : Option String) :
    Except Failure String × FileTree :=
  match workspace.generateOne host graph out? with
  | (.error failure, tree) => (.error failure, tree)
  | (.ok package, tree) =>
      let directory := workspace.packageDirectory (graphKey graph) out?
      (orToolchainFailure "build" graph
        (Toolchain.build host tree workspace.project.settings.codegen.go directory package), tree)

/-- Generates the package of a graph and runs its program. What the program puts out is given
beside the result. -/
def run (workspace : Workspace) (host : Host) (graph : String) (out? : Option String)
    (input : String) : Except Failure Unit × Exit × FileTree :=
  match workspace.generateOne host graph out? with
  | (.error failure, tree) => (.error failure, .success "", tree)
  | (.ok package, tree) =>
      let directory := workspace.packageDirectory (graphKey graph) out?
      let (result, exit) :=
        Toolchain.run host tree workspace.project.settings.codegen.go directory package input
      (orToolchainFailure "run" graph result, exit, tree)

end Pipework.Workspace
