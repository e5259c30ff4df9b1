import Pipework.CommandLine.Command
import Pipework.CommandLine.Usage
import Pipework.Project.Start
import Pipework.Workspace.Generate

/-!
The command line: what the commands do to the files of a working directory, and what they say.
-/

namespace Pipework.CommandLine

/-! ## Surroundings and effects -/

/-- What a command finds around it, apart from files. -/
structure Surroundings where
  host : Host
  /-- The text on the standard input, or why it cannot be read. -/
  input : Except OsError String
  /-- Where the project is, if the environment says so. -/
  config? : Option String

/-- What a command has done. -/
structure Effect where
  result : Except Failure Unit
  tree : FileTree
  output : String
  errors : String

namespace Effect

/-- What came of changing files. -/
def ofChange (change : Except Failure Unit × FileTree) : Effect := ⟨change.1, change.2, "", ""⟩

/-- What came of looking at files. -/
def ofText (tree : FileTree) : Except Failure String → Effect
  | .ok text => ⟨.ok (), tree, text, ""⟩
  | .error failure => ⟨.error failure, tree, "", ""⟩

end Effect

/-! ## Commands -/

/-- The list of the kinds of parts. -/
def partsText : String :=
  let kinds := Registry.builtin.kinds
  let width := kinds.foldl (fun width kind => max width kind.key.length) 0
  String.join <| kinds.map fun kind =>
    kind.key ++ String.ofList (List.replicate (width - kind.key.length) ' ') ++ "  " ++
      kind.description ++ "\n"

/-- Opens the project, changes a graph of it in memory, and saves the graph if that succeeds. -/
def changeGraph (tree : FileTree) (config graph : String)
    (change : Workspace → Except Failure Workspace) : Except Failure Unit × FileTree :=
  match Workspace.ofPath tree config >>= change with
  | .ok changed => changed.save graph
  | .error failure => (.error failure, tree)

/-- Opens the project and does something with its files. -/
def withWorkspace (tree : FileTree) (config : String)
    (action : Workspace → Except Failure Unit × FileTree) : Except Failure Unit × FileTree :=
  match Workspace.ofPath tree config with
  | .ok workspace => action workspace
  | .error failure => (.error failure, tree)

/-- The request for a channel between two pins. -/
def channelRequest (name first second type : String) (capacity : UInt32) :
    Except Failure Request := do
  let first ← readEndpoint first
  let second ← readEndpoint second
  return .createChannel { name, type, capacity, anonymous := false, first, second }

/-- Changes a graph as a request asks, which may turn out not to be one. -/
def changeByRequest (tree : FileTree) (config graph : String) (request : Except Failure Request) :
    Except Failure Unit × FileTree :=
  match request with
  | .ok request => changeGraph tree config graph fun workspace => workspace.edit graph request
  | .error failure => (.error failure, tree)

/-- The text of a script; a hyphen stands for the standard input. -/
def scriptText (surroundings : Surroundings) (tree : FileTree) (input : String) :
    Except Failure String :=
  let (text, place) :=
    if input = "-" then (surroundings.input, "stdin") else (tree.readText input, input)
  text.mapError fun error => ⟨"Failed to read requests from " ++ place, [error.message]⟩

/-- Applies a script to a graph. -/
def applyScript (surroundings : Surroundings) (tree : FileTree) (config graph input : String) :
    Except Failure Unit × FileTree :=
  match scriptText surroundings tree input with
  | .error failure => (.error failure, tree)
  | .ok script => withWorkspace tree config fun workspace => workspace.applyScript graph script

/-- Runs the program of a graph. -/
def runGraph (surroundings : Surroundings) (tree : FileTree) (config graph : String)
    (out? : Option String) : Effect :=
  match Workspace.ofPath tree config with
  | .error failure => ⟨.error failure, tree, "", ""⟩
  | .ok workspace =>
      let input := surroundings.input.toOption.getD ""
      let (result, exit, written) := workspace.run surroundings.host graph out? input
      ⟨result, written, exit.output, exit.errors⟩

/-- Does what a command asks for. -/
def Command.perform (surroundings : Surroundings) (tree : FileTree) (config : String) :
    Command → Effect
  | .init path name? => .ofChange (Project.start tree path name?)
  | .newGraph graph packagePath? isCommand =>
      .ofChange <| changeGraph tree config graph fun workspace =>
        workspace.newGraph graph packagePath? isCommand
  | .showGraph graph asDocument =>
      .ofText tree <| Workspace.ofPath tree config >>= fun workspace =>
        workspace.showGraph graph asDocument
  | .setGraph graph changes =>
      .ofChange <| changeGraph tree config graph fun workspace => workspace.setGraph graph changes
  | .checkGraphs graph? =>
      .ofChange <| withWorkspace tree config fun workspace =>
        (workspace.checkGraphs graph?, tree)
  | .addNode graph name partType options =>
      .ofChange <| changeGraph tree config graph fun workspace =>
        workspace.addNode graph name partType options
  | .removeNode graph name =>
      .ofChange <| changeByRequest tree config graph (.ok (.deleteNode name))
  | .setNode graph name changes =>
      .ofChange <| changeGraph tree config graph fun workspace =>
        workspace.setNode graph name changes
  | .moveNode graph node x y =>
      .ofChange <| changeByRequest tree config graph (.ok (.setPosition { node, x, y }))
  | .addChannel graph name first second type capacity =>
      .ofChange <| changeByRequest tree config graph
        (channelRequest name first second type capacity)
  | .removeChannel graph name =>
      .ofChange <| changeByRequest tree config graph (.ok (.deleteChannel name))
  | .connectPin graph pin channel =>
      .ofChange <| changeByRequest tree config graph <|
        (readEndpoint pin).map fun endpoint => .connectPin { endpoint, channel }
  | .disconnectPin graph pin =>
      .ofChange <| changeByRequest tree config graph <|
        (readEndpoint pin).map .disconnectPin
  | .applyScript graph input =>
      .ofChange (CommandLine.applyScript surroundings tree config graph input)
  | .generate graph? out? =>
      .ofChange <| withWorkspace tree config fun workspace =>
        workspace.generate surroundings.host graph? out?
  | .build graph out? =>
      .ofChange <| withWorkspace tree config fun workspace =>
        let (result, written) := workspace.build surroundings.host graph out?
        (result.map fun _ => (), written)
  | .run graph out? => runGraph surroundings tree config graph out?
  | .parts => ⟨.ok (), tree, partsText, ""⟩

/-! ## Programs -/

/-- How the program ends: well, with a failure, or because it was not understood. -/
inductive Status where
  | success
  | failure
  | misuse
  deriving DecidableEq, Repr, Inhabited

/-- The number by which a program tells how it ended. -/
def Status.code : Status → UInt8
  | success => 0
  | failure => 1
  | misuse => 2

/-- The whole run of the program. -/
structure Run where
  status : Status
  tree : FileTree
  output : String
  errors : String

/-- The run that an effect amounts to. A failure is reported behind all other messages. -/
def Effect.run (effect : Effect) : Run :=
  match effect.result with
  | .ok () => ⟨.success, effect.tree, effect.output, effect.errors⟩
  | .error failure => ⟨.failure, effect.tree, effect.output, effect.errors ++ failure.report⟩

/-- The name and the version of the program. -/
def versionText : String := "chanweave 0.1.0\n"

/-- Where the project is: what the options say weighs more than what the environment says. -/
def configOf (options : List (String × String)) (environment? : Option String) : String :=
  (options.lookup configOption.name <|> environment?).getD defaultConfig

/-- Runs the program with the words of a command line. -/
def run (surroundings : Surroundings) (tree : FileTree) (words : List String) : Run :=
  match grammar.read words with
  | .understood options command =>
      (command.perform surroundings tree (configOf options surroundings.config?)).run
  | .help => ⟨.success, tree, usageText, ""⟩
  | .version => ⟨.success, tree, versionText, ""⟩
  | .misuse => ⟨.misuse, tree, "", misuseText⟩

end Pipework.CommandLine
