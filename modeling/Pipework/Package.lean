import Pipework.Package.Source
import Pipework.Package.Digest
import Pipework.Error

/-!
Generated Go packages: what a graph becomes, and how a formatter may change it.
-/

namespace Pipework

/-! ## Packages -/

/-- A generated package. -/
structure Package where
  /-- The Go name of the package. -/
  name : String
  /-- The path of the module. -/
  modulePath : String
  isCommand : Bool
  /-- The contents of each file, by its path below the package. -/
  files : Table String String
  /-- Warnings for the user. -/
  diagnostics : List String
  /-- The digest of the files. -/
  digest : String
  deriving DecidableEq

namespace Package

/-- The directory of the runner of a library. -/
def runnerDirectory : String := "run"

/-- The main file of a command, or of a library with a name. -/
def mainFileName (isCommand : Bool) (name : String) : String :=
  if isCommand then "main.go" else name ++ ".go"

/-- The file with the node functions and the entry point. -/
def mainFile (package : Package) : String := mainFileName package.isCommand package.name

/-- The directory of the command, seen from the package. -/
def commandDirectory (package : Package) : String :=
  if package.isCommand then "." else "./" ++ runnerDirectory

/-- The contents of the main file. -/
def source (package : Package) : String := (package.files.get? package.mainFile).getD ""

/-- The name of the built command: the last segment of the module path, or the name of the
package when there is none. -/
def binaryName (package : Package) : String :=
  match Go.lastSegment package.modulePath with
  | [] => package.name
  | segment@(_ :: _) => String.ofList segment

/-! ## Digests -/

/-- The bytes of a text and a null byte. -/
def digestField (text : String) : List UInt8 := text.toUTF8.data.toList ++ [0]

/-- The message whose digest stands for some files: each path and its contents, in the order of
the paths. -/
def digestMessage (files : Table String String) : List UInt8 :=
  files.entries.flatMap fun entry => digestField entry.1 ++ digestField entry.2

/-- The package with the digest of its files. -/
def sealed (package : Package) : Package :=
  { package with digest := Digest.text (digestMessage package.files) }

end Package

/-! ## Generation -/

namespace Graph

/-- Refuses a graph that is not consistent. -/
def requireConsistent (graph : Graph) : Except Error Unit :=
  match graph.problems with
  | [] => .ok ()
  | problems@(_ :: _) => .error (.inconsistent graph.name problems)

/-- The Go name of the package. -/
def packageName (graph : Graph) : String :=
  if graph.isCommand then "main" else Go.packageName graph.packagePath

/-- The path of the module: the one of the package, or a name made of that of the graph when
there is none. -/
def modulePath (graph : Graph) : String :=
  let path := Text.trim graph.packagePath
  if path.isEmpty then Go.packageName graph.name else path

/-- The files of the package. -/
def packageFiles (graph : Graph) : Table String String :=
  let files := Table.empty.insert (Package.mainFileName graph.isCommand graph.packageName)
    (Source.main graph graph.packageName)
  let files :=
    if graph.isCommand then files
    else files.insert (Package.runnerDirectory ++ "/main.go")
      (Source.runner graph.name graph.modulePath)
  files.insert "go.mod" (Source.goMod graph.modulePath)

/-- The warning about a node for which the program does not wait. -/
def waitWarning (node : Node) : String :=
  "node '" ++ node.name ++
    "' has wait=false; the entry point returns without waiting for it"

/-- The package of a consistent graph. -/
def package (graph : Graph) : Except Error Package := do
  graph.requireConsistent
  let unawaited := graph.wiring.nodes.filter fun wired => !wired.node.waits
  return Package.sealed
    { name := graph.packageName, modulePath := graph.modulePath, isCommand := graph.isCommand,
      files := graph.packageFiles,
      diagnostics := unawaited.map fun wired => waitWarning wired.node, digest := "" }

end Graph

/-! ## Formatting -/

/-- Formats a source, or says why it cannot. -/
abbrev Formatter := String → Except String String

namespace Package

/-- Whether a file is Go source, by its name. -/
def isGoFile (path : String) : Bool := ".go".toList.isSuffixOf path.toList

/-- The contents of a file after formatting; a file that cannot be formatted stays. -/
def formattedFile (formatter : Formatter) (path contents : String) : String :=
  if isGoFile path then
    match formatter contents with
    | .ok formatted => formatted
    | .error _ => contents
  else contents

/-- What is said of a file that cannot be formatted. -/
def formatFailure? (formatter : Formatter) (path contents : String) : Option String :=
  if isGoFile path then
    match formatter contents with
    | .ok _ => none
    | .error reason => some ("gofmt failed on " ++ path ++ ": " ++ reason)
  else none

/-- The package with formatted files and the failures among its warnings. -/
def format (package : Package) (formatter : Formatter) : Package :=
  sealed
    { package with
      files := package.files.mapEntries (formattedFile formatter),
      diagnostics := package.diagnostics ++
        package.files.entries.filterMap fun entry => formatFailure? formatter entry.1 entry.2 }

end Package

end Pipework
