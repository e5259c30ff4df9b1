import Pipework.FileTree
import Pipework.Project.Settings

/-!
Projects: settings and the directory to which they belong.
-/

namespace Pipework

/-- A project. -/
structure Project where
  settings : Settings
  /-- The directory of the project. -/
  directory : String
  deriving DecidableEq, Repr, Inhabited

namespace Project

/-- The file that holds the settings of a project. -/
def settingsFile : String := "chanweave.yaml"

/-- The directory of the graphs. -/
def graphsPath (project : Project) : String :=
  Path.join project.directory project.settings.graphsDirectory

/-- The directory of the generated packages. -/
def outputPath (project : Project) : String :=
  Path.join project.directory project.settings.outputDirectory

/-- The project of a directory without settings. Its name is that of the directory, if it has
one. -/
def ofDirectory (directory : String) : Project :=
  ⟨Settings.ofName ((Path.fileName? directory).getD "chanweave"), directory⟩

/-- Where the settings of a project are, and the directory to which they belong. A path leads to
either of the two. -/
def places (tree : FileTree) (path : String) : String × String :=
  if tree.isDirectory path then (Path.join path settingsFile, path)
  else (path, (Path.parent? path).getD ".")

/-- Opens the project at a path. -/
def load (tree : FileTree) (path : String) : Except Error Project := do
  let (file, directory) := places tree path
  if !tree.hasEntry file then throw (.configNotFound file)
  match tree.readText file with
  | .error error => throw (.system error)
  | .ok text => return ⟨← Settings.ofText text, directory⟩

/-- The directory of the project that would be at a path. -/
def directoryOf (tree : FileTree) (path : String) : String :=
  if tree.isDirectory path then path
  else
    match Path.parent? path with
    | some parent => if parent.isEmpty then "." else parent
    | none => "."

/-- Opens the project at a path. Where no settings are, it is one without settings. -/
def loadOrDefault (tree : FileTree) (path : String) : Except Error Project :=
  match load tree path with
  | .error (.configNotFound _) => .ok (ofDirectory (directoryOf tree path))
  | result => result

end Project

end Pipework
