import Pipework.Host
import Pipework.Package

/-!
The Go toolchain: formatting sources, and building and running packages.
-/

namespace Pipework

/-! ## Formatting -/

/-- Formats a source by giving it to a program and taking what the program puts out. -/
def formatWith (host : Host) (tree : FileTree) (program : String) : Formatter := fun source =>
  match host tree { program, arguments := [], directory? := none, input := source } with
  | .error error => .error ("failed to run " ++ program ++ ": " ++ error.message)
  | .ok exit => if exit.status = 0 then .ok exit.output else .error (Text.trim exit.errors)

/-! ## Errors -/

/-- What can go wrong with the toolchain. -/
inductive ToolchainError where
  | cannotStart (program : String) (error : OsError)
  | versionFailed (program : String) (exit : Exit)
  | buildFailed (modulePath errors : String)
  | runFailed (modulePath : String) (exit : Exit)
  deriving DecidableEq, Repr, Inhabited

namespace ToolchainError

/-- The text of an error with the toolchain itself. -/
private def unusable (reason : String) : String :=
  "Go toolchain error: " ++ reason ++ ". Ensure Go is installed and on PATH."

/-- The text of an error. -/
def message : ToolchainError → String
  | cannotStart program error =>
      unusable ("Failed to run " ++ program ++ ": " ++ error.message)
  | versionFailed program exit =>
      unusable (program ++ " version exited with " ++ exit.statusText ++ ": " ++
        Text.trim exit.errors)
  | buildFailed modulePath _ => "go build failed: could not build " ++ modulePath
  | runFailed modulePath exit =>
      "go run failed: " ++ modulePath ++ " exited with " ++ exit.statusText

end ToolchainError

/-! ## Commands -/

namespace Toolchain

/-- Starts a program. -/
def start (host : Host) (tree : FileTree) (call : Call) : Except ToolchainError Exit :=
  match host tree call with
  | .ok exit => .ok exit
  | .error error => .error (.cannotStart call.program error)

/-- The version that a toolchain gives. -/
def version (host : Host) (tree : FileTree) (go : String) : Except ToolchainError String := do
  let exit ← start host tree
    { program := go, arguments := ["version"], directory? := none, input := "" }
  if exit.status = 0 then return Text.trim exit.output
  else throw (.versionFailed go exit)

/-- The directory of built programs, seen from the package. -/
def binaryDirectory : String := "bin"

/-- The path of the program that is built of a package in a directory. -/
def binaryPath (directory : String) (package : Package) : String :=
  Path.join (Path.join directory binaryDirectory) package.binaryName

/-- The call that builds the command of a package in a directory. -/
def buildCall (go directory : String) (package : Package) : Call :=
  { program := go,
    arguments := ["build", "-o", binaryPath directory package, package.commandDirectory],
    directory? := some directory, input := "" }

/-- Builds the command of a package in a directory and gives the path of the program. -/
def build (host : Host) (tree : FileTree) (go directory : String) (package : Package) :
    Except ToolchainError String := do
  let exit ← start host tree (buildCall go directory package)
  if exit.status = 0 then return binaryPath directory package
  else throw (.buildFailed package.modulePath exit.errors)

/-- The call that runs the command of a package in a directory. -/
def runCall (go directory : String) (package : Package) (input : String) : Call :=
  { program := go, arguments := ["run", package.commandDirectory],
    directory? := some directory, input }

/-- Runs the command of a package in a directory, to its end. A failure still shows what the
command put out. -/
def run (host : Host) (tree : FileTree) (go directory : String) (package : Package)
    (input : String) : Except ToolchainError Unit × Exit :=
  match start host tree (runCall go directory package input) with
  | .error error => (.error error, .failure "")
  | .ok exit =>
      (if exit.status = 0 then .ok () else .error (.runFailed package.modulePath exit), exit)

/-! ## Writing packages -/

/-- Writes a file of a package below a directory, and makes the directories on the way to it. -/
def writePackageFile (directory name contents : String) : FileTree.Step :=
  let path := Path.join directory name
  FileTree.inTurn
    [FileTree.makingDirectories ((Path.parent? path).getD ""), FileTree.writing path contents]

/-- Writes all files of a package below a directory. -/
def writePackage (directory : String) (package : Package) : FileTree.Step :=
  FileTree.inTurn <| package.files.entries.map fun entry =>
    writePackageFile directory entry.1 entry.2

end Toolchain

end Pipework
