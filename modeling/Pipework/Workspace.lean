import Pipework.Failure
import Pipework.Project
import Pipework.Storage.Files

/-!
Workspaces: a project that is open, with a store above the files of its graphs.

A command names a graph by the path of its file below the directory of the graphs; the ending
of that file may be left out.
-/

namespace Pipework

/-! ## Graphs and their files -/

/-- The ending of graph files. -/
def graphExtension : String := "json"

/-- The key of the graph that a user names. -/
def graphKey (graph : String) : String :=
  if Path.extension? graph = some graphExtension then graph else graph ++ "." ++ graphExtension

/-- The name of a graph with a key. -/
def graphStem (key : String) : String := (Path.fileStem? key).getD key

/-- Whether a graph file is where a path leads, by its name. -/
def isGraphFile (path : String) : Bool := decide (Path.extension? path = some graphExtension)

/-- The key of a file by the names that lead to it. A backslash in a name counts as a slash. -/
def keyOfNames (names : Place) : String :=
  String.ofList ((String.intercalate "/" names).toList.map fun character =>
    if character = '\\' then '/' else character)

/-- The keys of the graph files below a directory, in order. A path that leads to a graph file
itself gives the empty key. -/
def graphKeys (tree : FileTree) (directory : String) : List String :=
  match tree.locate directory with
  | .error _ => []
  | .ok place =>
      match tree.entryAt? place with
      | none => []
      | some (.file _) => if isGraphFile directory then [""] else []
      | some .directory =>
          let found := (tree.filesBelow place).filter fun file =>
            file.1.getLast?.any isGraphFile
          (found.map fun file => keyOfNames file.1).mergeSort

/-! ## Workspaces -/

/-- A project with a store above its graphs. -/
structure Workspace where
  project : Project
  store : Store FileStorage

namespace Workspace

/-- The files as they are. -/
def tree (workspace : Workspace) : FileTree := workspace.store.storage.tree

/-- The workspace of a project, in which no graph is loaded. -/
def ofProject (tree : FileTree) (project : Project) : Workspace :=
  ⟨project, Store.empty Registry.builtin project.settings.saveTimeout ⟨project.graphsPath, tree⟩⟩

/-- Opens the project at a path. -/
def ofPath (tree : FileTree) (path : String) : Except Failure Workspace := do
  let project ← orFailWith "Failed to load configuration" (Project.loadOrDefault tree path)
  return ofProject tree project

/-- The keys of all graphs of the project. -/
def keys (workspace : Workspace) : List String :=
  graphKeys workspace.tree workspace.project.graphsPath

/-- Where the package of a graph is put: the directory asked for, or one of its own below the
directory of the packages. -/
def packageDirectory (workspace : Workspace) (key : String) (out? : Option String) : String :=
  out?.getD (Path.join workspace.project.outputPath (graphStem key))

/-! ## Loading and saving -/

/-- Loads the graph that a user names. -/
def load (workspace : Workspace) (graph : String) : Except Failure Workspace := do
  let store ← orFailWith ("Failed to load graph '" ++ graph ++ "'")
    (workspace.store.load (graphKey graph))
  return { workspace with store }

/-- The loaded graph that a user names. -/
def graph (workspace : Workspace) (graph : String) : Except Failure Graph :=
  orFail (workspace.store.graph (graphKey graph))

/-- Changes the loaded graph that a user names. -/
def change (workspace : Workspace) (graph : String) (request : Request) :
    Except Error Workspace :=
  match workspace.store.change (graphKey graph) request with
  | (.ok (), store) => .ok { workspace with store }
  | (.error error, _) => .error error

/-- Saves the graph that a user names, and gives the files after that. -/
def save (workspace : Workspace) (graph : String) : Except Failure Unit × FileTree :=
  let (result, store) := workspace.store.save (graphKey graph)
  (orFailWith ("Failed to save graph '" ++ graph ++ "'") result, store.storage.tree)

end Workspace

end Pipework
