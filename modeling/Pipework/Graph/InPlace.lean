import Pipework.Graph.Edit

/-!
Changes of graphs in place.

A graph that is loaded is changed where it is: a change looks at what the graph is by then, and
writes into it step by step. Nothing takes a write back, so what a change had written before an
error would stay. That is why each of them makes all its checks before it writes anything.
-/

namespace Pipework

/-- Work on a graph in place. After an error, what was written before it stays. -/
abbrev InPlace := ExceptT Error (StateM Graph)

namespace InPlace

/-- What work on a graph gives, and the graph that it leaves. -/
def on {α : Type} (work : InPlace α) (graph : Graph) : Except Error α × Graph :=
  work.run.run graph

/-! ## Writes -/

/-- Writes the binding of an endpoint into its node, if the node is there. -/
def bind (endpoint : Endpoint) (channel : Option String) : InPlace Unit :=
  modify fun graph => graph.bind endpoint channel

/-- Changes the ends of a channel, if it is there. -/
def changeEnds (channel : String) (change : KeySet Endpoint → KeySet Endpoint) : InPlace Unit :=
  modify fun graph => graph.changeEnds channel change

/-- Takes a channel away and unbinds its ends. -/
def removeChannel (channel : String) : InPlace Unit := do
  match (← get).channel? channel with
  | none => return
  | some found =>
      modify fun graph => { graph with channels := graph.channels.erase channel }
      found.ends.toList.forM fun endpoint => bind endpoint none

/-- Unbinds an endpoint from a channel, and takes the channel away when it passes no values
any more. -/
def detach (endpoint : Endpoint) (channel : String) : InPlace Unit := do
  bind endpoint none
  changeEnds channel fun ends => ends.erase endpoint
  unless (← get).isViable channel do
    removeChannel channel

/-- Gives the pins of a node another node name on their channels. -/
def renameEnds (bound : List (String × String)) (old new : String) : InPlace Unit :=
  bound.forM fun entry => changeEnds entry.2 fun ends =>
    KeySet.add (Table.erase ends ⟨old, entry.1⟩) ⟨new, entry.1⟩

/-- Puts another node in the place of one, and lets its bound pins follow when it has another
name. -/
def replaceNode (request : SetNodeProperties) (node : Node) : InPlace Unit := do
  modify fun graph => graph.dropNode request.node
  if request.name ≠ request.node then
    renameEnds node.boundPins request.node request.name
  modify fun graph => graph.putNode request.name node

/-! ## Changes -/

/-- Adds a node with no pin bound. -/
def createNode (registry : Registry) (request : CreateNode) : InPlace Unit := do
  Graph.requireName request.name
  if (← get).nodes.contains request.name then throw (.nodeExists request.name)
  Graph.requireInstances request.multiplicity
  let part ← Graph.requirePart registry request.partType request.part
  modify fun graph => graph.putNode request.name (request.node part)

/-- Adds a channel between two pins. -/
def createChannel (request : CreateChannel) : InPlace Unit := do
  let firstPin ← (← get).requirePin request.first
  let secondPin ← (← get).requirePin request.second
  (← get).requireUnbound request.first
  (← get).requireUnbound request.second
  Graph.requireName request.name
  if (← get).channels.contains request.name then throw (.channelExists request.name)
  if request.first.node = request.second.node then
    throw (.nodeOnChannel request.first.node request.name)
  Graph.requireType request.first firstPin request.name request.type
  Graph.requireType request.second secondPin request.name request.type
  if firstPin.direction = secondPin.direction then throw (.sameDirection request.name)
  bind request.first (some request.name)
  bind request.second (some request.name)
  modify fun graph => graph.putChannel request.name request.channel

/-- Attaches a pin to a channel. -/
def connectPin (request : ConnectPin) : InPlace Unit := do
  let pin ← (← get).requirePin request.endpoint
  match (← get).channel? request.channel with
  | none => throw (.channelNotFound request.channel)
  | some channel =>
      (← get).requireUnbound request.endpoint
      if channel.ends.toList.any fun other => other.node = request.endpoint.node then
        throw (.nodeOnChannel request.endpoint.node request.channel)
      Graph.requireType request.endpoint pin request.channel channel.type
      bind request.endpoint (some request.channel)
      changeEnds request.channel fun ends => ends.add request.endpoint

/-- Detaches a pin from its channel, if it has one. -/
def disconnectPin (endpoint : Endpoint) : InPlace Unit := do
  let _ ← (← get).requirePin endpoint
  match (← get).binding? endpoint with
  | none => return
  | some channel => detach endpoint channel

/-- Takes a channel away. -/
def deleteChannel (channel : String) : InPlace Unit := do
  unless (← get).channels.contains channel do
    throw (.channelNotFound channel)
  removeChannel channel

/-- Takes a node away, once all its pins are detached. -/
def deleteNode (name : String) : InPlace Unit := do
  let node ← (← get).requireNode name
  node.boundPins.forM fun bound => detach ⟨name, bound.1⟩ bound.2
  modify fun graph => graph.dropNode name

/-- Gives a node other properties, another part and perhaps another name. Its bound pins have to
stay what they are. -/
def setNodeProperties (registry : Registry) (request : SetNodeProperties) : InPlace Unit := do
  let node ← (← get).requireNode request.node
  Graph.requireName request.name
  if request.name ≠ request.node ∧ (← get).nodes.contains request.name then
    throw (.nodeExists request.name)
  Graph.requireInstances request.multiplicity
  let part ← Graph.requirePart registry request.partType request.part
  match Graph.lostPins node part with
  | pin :: _ => throw (.boundPinChanged ⟨request.node, pin⟩)
  | [] =>
      let taken ← (← get).requireNode request.node
      replaceNode request (request.outcome taken part)

/-- Puts a node elsewhere. -/
def setPosition (request : SetPosition) : InPlace Unit := do
  let _ ← (← get).requireNode request.node
  modify fun graph => graph.place request

/-- Does what a request asks; to save changes nothing. -/
def apply (registry : Registry) : Request → InPlace Unit
  | .createNode request => createNode registry request
  | .createChannel request => createChannel request
  | .connectPin request => connectPin request
  | .disconnectPin endpoint => disconnectPin endpoint
  | .deleteNode node => deleteNode node
  | .deleteChannel channel => deleteChannel channel
  | .setNodeProperties request => setNodeProperties registry request
  | .setGraphProperties request => modify fun graph => graph.setProperties request
  | .setPosition request => setPosition request
  | .save => return

end InPlace

end Pipework
