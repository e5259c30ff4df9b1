import Pipework.Failure
import Pipework.Graph.Edit
import Pipework.Graph.Stored
import Pipework.Project

/-!
Starting a project: a directory with settings and with a graph to look at.
-/

namespace Pipework

/-! ## The first graph -/

namespace Graph

/-- Asks for a node as it is when only its name and its part are given. -/
private def plainNode (name : String) (kind : PartKind) (members : List (String × Json.Value)) :
    Request :=
  .createNode
    { name, partType := kind.key, part := .object members, enabled := true, waits := true,
      multiplicity := 1, x := 0, y := 0 }

/-- Asks for a channel of numbers. -/
private def numberChannel (name : String) (first second : Endpoint) : Request :=
  .createChannel { name, type := "int", capacity := 0, anonymous := false, first, second }

/-- A user's code with one pin for numbers. -/
private def codeMembers (imports : List String) (body : String) (pin : Pin) :
    List (String × Json.Value) :=
  [("imports", .array (imports.map .string)), ("body", .string body),
    ("pins", .array [pin.value])]

/-- The requests that make the first graph of a project: the even ones of ten numbers are
printed and the odd ones are dropped. -/
def helloRequests : List Request :=
  [plainNode "Numbers" .code <|
      codeMembers [] "for i := 0; i < 10; i++ \x7b\n\tnumbers <- i\n\x7d" (.output "numbers" "int"),
    plainNode "Even" .filter [("type", .string "int"), ("predicate", .string "v%2 == 0")],
    plainNode "Printer" .code <|
      codeMembers ["fmt"] "for v := range values \x7b\n\tfmt.Println(v)\n\x7d"
        (.input "values" "int"),
    plainNode "Discard" .sink [("type", .string "int")],
    numberChannel "numbers" ⟨"Numbers", "numbers"⟩ ⟨"Even", "input"⟩,
    numberChannel "evens" ⟨"Even", "match"⟩ ⟨"Printer", "values"⟩,
    numberChannel "odds" ⟨"Even", "nomatch"⟩ ⟨"Discard", "input"⟩]

/-- The first graph of a project. -/
def hello : Except Error Graph :=
  helloRequests.foldlM (apply Registry.builtin) (empty "hello" "example.com/hello" true)

end Graph

/-! ## The first files -/

namespace Project

/-- What version control leaves out of a project. -/
def ignoredFiles : String :=
  Text.ofLines
    ["# Generated Go packages", "gen/", "", "# IDE", ".idea/", ".vscode/", "*.swp"]

/-- Tells an error of the operating system as a failure. -/
private def orSystemFailure {α : Type} (result : Except OsError α) : Except Failure α :=
  result.mapError fun error => .plain error.message

/-- Makes a directory that does not exist yet. -/
def ensureDirectory (path : String) : FileTree.Step := fun tree =>
  if tree.hasEntry path then (.ok (), tree) else tree.makeDirectories path

/-- The name of the project that starts in a directory: the one that is asked for, or that of
the directory. -/
def startName (tree : FileTree) (path : String) (name? : Option String) :
    Except Failure String := do
  let place ← orSystemFailure (tree.canonical path)
  let name ← match name? <|> place.getLast? with
    | some name => .ok name
    | none => .error (.plain "Could not determine project name from path")
  if tree.hasEntry (Path.join path settingsFile) then
    throw (.plain ("Directory '" ++ path ++ "' already contains a " ++ settingsFile))
  return name

/-- Puts the first files of a project into a directory that exists. -/
def writeStart (path name : String) (graph : Graph) : FileTree.Step :=
  FileTree.inTurn
    [FileTree.makingDirectories (Path.join path "graphs"),
      FileTree.writing (Path.join path settingsFile) (Settings.initialText name),
      FileTree.writing (Path.join path "graphs/hello.json") graph.text,
      FileTree.writing (Path.join path ".gitignore") ignoredFiles]

/-- Starts a project in a directory. -/
def start (tree : FileTree) (path : String) (name? : Option String) :
    Except Failure Unit × FileTree :=
  match ensureDirectory path tree with
  | (.error error, partly) => (orSystemFailure (.error error), partly)
  | (.ok (), ready) =>
      match startName ready path name?, orFailWith "Failed to build example graph" Graph.hello with
      | .error failure, _ => (.error failure, ready)
      | _, .error failure => (.error failure, ready)
      | .ok name, .ok graph =>
          let (result, written) := writeStart path name graph ready
          (orSystemFailure result, written)

end Project

end Pipework
