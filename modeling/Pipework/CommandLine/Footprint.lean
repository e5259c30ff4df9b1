import Pipework.CommandLine

/-!
Which files a command line can look at, so that a program has to show it no others.
-/

namespace Pipework.CommandLine

/-- Files of a host: some that are looked at by themselves, and directories with all that is
below them. -/
structure Footprint where
  paths : List String
  directories : List String
  deriving DecidableEq, Repr, Inhabited

/-- Where a command puts packages, if it says so. -/
def Command.out? : Command → Option String
  | .generate _ out? | .build _ out? | .run _ out? => out?
  | _ => none

/-- The files that a command names. -/
def Command.paths : Command → List String
  | .init path _ =>
      path :: [Project.settingsFile, "graphs", "graphs/hello.json", ".gitignore"].map (Path.join path)
  | .applyScript _ input => [input]
  | _ => []

/-- What a command can look at before its project is open. -/
def Command.footprint (command : Command) (config : String) : Footprint :=
  ⟨[config, Path.join config Project.settingsFile] ++ command.paths, command.out?.toList⟩

/-- What a command can look at below the directories of its project. -/
def projectFootprint (tree : FileTree) (config : String) : Footprint :=
  match Project.loadOrDefault tree config with
  | .ok project => ⟨[], [project.graphsPath, project.outputPath]⟩
  | .error _ => ⟨[], []⟩

/-- Whether a command reads the standard input. -/
def Command.readsInput : Command → Bool
  | .applyScript _ input => decide (input = "-")
  | .run .. => true
  | _ => false

end Pipework.CommandLine
