import Pipework.Graph.Summary
import Pipework.Request.Json
import Pipework.Workspace

/-!
Editing the graphs of a project: a graph is loaded, changed and saved again.

A change is made in memory, where it either succeeds or leaves nothing behind; only what has
succeeded is saved. Scripts of requests are the exception: what came before the first request
that fails stays done, and is saved.
-/

namespace Pipework

/-! ## What can be asked for -/

/-- What a new node is to be; its part is given as JSON. -/
structure NodeOptions where
  part? : Option String
  multiplicity : UInt32
  disabled : Bool
  unawaited : Bool
  x : Int64
  y : Int64
  deriving DecidableEq, Repr, Inhabited

/-- What is to change about a node; its part is given as JSON. What is not given stays. -/
structure NodeChanges where
  name? : Option String
  partType? : Option String
  part? : Option String
  enabled? : Option Bool
  waits? : Option Bool
  multiplicity? : Option UInt32
  deriving DecidableEq, Repr, Inhabited

/-- What is to change about a graph. What is not given stays. -/
structure GraphChanges where
  name? : Option String
  packagePath? : Option String
  isCommand? : Option Bool
  deriving DecidableEq, Repr, Inhabited

/-- Reads the configuration of a part. -/
def readPart (text : String) : Except Failure Json.Value :=
  match (Json.Document.ofText text).value with
  | .ok config => .ok config
  | .error error =>
      .error ⟨"Part configuration is not valid JSON", [(Json.DecodeError.unreadable error).message]⟩

/-- Reads the name of a pin. -/
def readEndpoint (text : String) : Except Failure Endpoint :=
  match Endpoint.ofText? text with
  | some endpoint => .ok endpoint
  | none => .error (.plain ("Expected NODE.PIN, got '" ++ text ++ "'"))

/-- The request for a new node. -/
def NodeOptions.request (options : NodeOptions) (name partType : String) :
    Except Failure Request := do
  let part ← match options.part? with
    | some text => readPart text
    | none => .ok .null
  return .createNode
    { name, partType, part, enabled := !options.disabled, waits := !options.unawaited,
      multiplicity := options.multiplicity, x := options.x, y := options.y }

/-- The request that changes the node with a name, which is as given. -/
def NodeChanges.request (changes : NodeChanges) (name : String) (node : Node)
    (part? : Option Json.Value) : SetNodeProperties :=
  { node := name, name := changes.name?.getD name,
    enabled := changes.enabled?.getD node.enabled, waits := changes.waits?.getD node.waits,
    multiplicity := changes.multiplicity?.getD node.multiplicity,
    partType := changes.partType?.getD node.part.kind.key,
    part := part?.getD node.part.config, x := node.x, y := node.y }

/-- The request that changes a graph as it is. -/
def GraphChanges.request (changes : GraphChanges) (graph : Graph) : SetGraphProperties :=
  { name := changes.name?.getD graph.name,
    packagePath := changes.packagePath?.getD graph.packagePath,
    isCommand := changes.isCommand?.getD graph.isCommand }

namespace Workspace

/-! ## Changes in memory -/

/-- Loads a graph and changes it as a request asks. -/
def edit (workspace : Workspace) (graph : String) (request : Request) :
    Except Failure Workspace := do
  let loaded ← workspace.load graph
  orFailWith (request.op ++ " failed on graph '" ++ graph ++ "'") (loaded.change graph request)

/-- Makes an empty graph. The path of its package follows from its name if none is given. -/
def newGraph (workspace : Workspace) (graph : String) (packagePath? : Option String)
    (isCommand : Bool) : Except Failure Workspace := do
  let key := graphKey graph
  let path ← orFail (workspace.store.storage.path key)
  if ← orFail (Storage.holds workspace.store.storage key) then
    throw (.plain ("Graph '" ++ graph ++ "' already exists at " ++ path))
  let name := graphStem key
  let created := Graph.empty name (packagePath?.getD ("example.com/" ++ name)) isCommand
  let store ← orFail (workspace.store.create key created)
  return { workspace with store }

/-- Changes the properties of a graph. -/
def setGraph (workspace : Workspace) (graph : String) (changes : GraphChanges) :
    Except Failure Workspace := do
  let loaded ← workspace.load graph
  let request := changes.request (← loaded.graph graph)
  orFail (loaded.change graph (.setGraphProperties request))

/-- Adds a node to a graph. -/
def addNode (workspace : Workspace) (graph name partType : String) (options : NodeOptions) :
    Except Failure Workspace := do
  workspace.edit graph (← options.request name partType)

/-- Changes a node of a graph. -/
def setNode (workspace : Workspace) (graph name : String) (changes : NodeChanges) :
    Except Failure Workspace := do
  let loaded ← workspace.load graph
  let part? ← changes.part?.mapM readPart
  match (← loaded.graph graph).node? name with
  | none => throw (.plain ("Node '" ++ name ++ "' not found in graph '" ++ graph ++ "'"))
  | some node =>
      let request := Request.setNodeProperties (changes.request name node part?)
      orFailWith (request.op ++ " failed on graph '" ++ graph ++ "'")
        (loaded.change graph request)

/-! ## Scripts -/

/-- The request that a line of a script is. Lines that are blank or start with a hash sign are
none. -/
def requestLine? (line : String) : Option String :=
  let text := Text.trim line
  if text.isEmpty || text.toList.head? == some '#' then none else some text

/-- Does what a line of a script asks. -/
def applyLine (store : Store FileStorage) (key line : String) :
    Except String Unit × Store FileStorage :=
  match Request.ofText line with
  | .error error => (.error ("invalid request: " ++ error.message), store)
  | .ok request =>
      let (result, next) := store.apply key request
      (result.mapError fun error =>
        request.op ++ " failed [" ++ error.code.name ++ "]: " ++ error.message, next)

/-- Does what numbered lines ask, up to the first that fails. -/
def applyLines (store : Store FileStorage) (key : String) :
    List (String × Nat) → Except Failure Unit × Store FileStorage
  | [] => (.ok (), store)
  | (line, number) :: rest =>
      match requestLine? line with
      | none => applyLines store key rest
      | some text =>
          match applyLine store key text with
          | (.ok (), next) => applyLines next key rest
          | (.error reason, next) =>
              (.error ⟨"line " ++ toString number, [reason]⟩, next)

/-- Applies a script to a graph and saves what has come about. A failure to save weighs more
than one of the script. -/
def applyScript (workspace : Workspace) (graph script : String) :
    Except Failure Unit × FileTree :=
  match workspace.load graph with
  | .error failure => (.error failure, workspace.tree)
  | .ok loaded =>
      let (result, store) :=
        applyLines loaded.store (graphKey graph) ((Text.linesOf script).zipIdx 1)
      match { loaded with store }.save graph with
      | (.error failure, tree) => (.error failure, tree)
      | (.ok (), tree) => (result, tree)

/-! ## Showing and checking -/

/-- The text of a graph: its document, or a summary. -/
def showGraph (workspace : Workspace) (graph : String) (asDocument : Bool) :
    Except Failure String := do
  let loaded ← (← workspace.load graph).graph graph
  return if asDocument then loaded.text else loaded.summary

/-- How many graphs cannot be loaded, each into the store that those before it leave. -/
def countFailures (store : Store FileStorage) : List String → Nat
  | [] => 0
  | key :: rest =>
      match store.load key with
      | .ok loaded => countFailures loaded rest
      | .error _ => countFailures store rest + 1

/-- Verifies one graph, or all of them. -/
def checkGraphs (workspace : Workspace) (graph? : Option String) : Except Failure Unit :=
  let keys :=
    match graph? with
    | some graph => [graphKey graph]
    | none => workspace.keys
  let failed := countFailures workspace.store keys
  if failed = 0 then .ok ()
  else
    .error <| .plain <|
      toString failed ++ " of " ++ toString keys.length ++ " graphs failed verification"

end Workspace

end Pipework
