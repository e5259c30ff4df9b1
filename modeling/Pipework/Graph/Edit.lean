import Pipework.Error
import Pipework.Request

/-!
Changes of graphs.

What each change makes of a graph, or why it is refused. `Graph.InPlace` makes the same changes in
a graph that is held somewhere, step by step and after all checks. A change keeps the two sides of
the graph in step: binding a pin lists it on the channel, and a channel that is left without an
input or an output goes and unbinds its other pins.
-/

namespace Pipework

open Json (Value)

namespace Graph

/-! ## Checks -/

/-- The node with a name, or the error that there is none. -/
def requireNode (graph : Graph) (name : String) : Except Error Node :=
  match graph.node? name with
  | some node => .ok node
  | none => .error (.nodeNotFound name)

/-- The pin at an endpoint, or the error that there is none. -/
def requirePin (graph : Graph) (endpoint : Endpoint) : Except Error Pin := do
  let node ← graph.requireNode endpoint.node
  match node.part.pin? endpoint.pin with
  | some pin => .ok pin
  | none => .error (.pinNotFound endpoint)

/-- Refuses an endpoint that is bound. -/
def requireUnbound (graph : Graph) (endpoint : Endpoint) : Except Error Unit :=
  match graph.binding? endpoint with
  | some channel => .error (.pinBound endpoint channel)
  | none => .ok ()

/-- Refuses a pin of another type than its channel. -/
def requireType (endpoint : Endpoint) (pin : Pin) (channel type : String) : Except Error Unit :=
  if pin.type = type then .ok () else .error (.typeMismatch endpoint pin.type channel type)

/-- Refuses a name that nodes and channels cannot have. -/
def requireName (name : String) : Except Error Unit :=
  match nameFault name with
  | some fault => .error (.invalidName name fault)
  | none => .ok ()

/-- Refuses a node without instances. -/
def requireInstances (multiplicity : UInt32) : Except Error Unit :=
  if multiplicity = 0 then .error .zeroMultiplicity else .ok ()

/-- The part that a request describes. -/
def requirePart (registry : Registry) (key : String) (config : Value) : Except Error Part :=
  match registry.construct key config with
  | .ok part => .ok part
  | .error error => .error (.construct error)

/-! ## Steps -/

/-- Writes the binding of an endpoint into its node, if the node is there. -/
def bind (graph : Graph) (endpoint : Endpoint) (channel : Option String) : Graph :=
  { graph with
    nodes := graph.nodes.modify endpoint.node fun node =>
      { node with connections := node.connections.insert endpoint.pin channel } }

/-- Changes the ends of a channel, if it is there. -/
def changeEnds (graph : Graph) (channel : String) (change : KeySet Endpoint → KeySet Endpoint) :
    Graph :=
  { graph with
    channels := graph.channels.modify channel fun found =>
      { found with ends := change found.ends } }

/-- The graph with a node under a name, in place of what was there. -/
def putNode (graph : Graph) (name : String) (node : Node) : Graph :=
  { graph with nodes := graph.nodes.insert name node }

/-- The graph without the node under a name; its channels stay as they are. -/
def dropNode (graph : Graph) (name : String) : Graph :=
  { graph with nodes := graph.nodes.erase name }

/-- The graph with a channel under a name, in place of what was there. -/
def putChannel (graph : Graph) (name : String) (channel : Channel) : Graph :=
  { graph with channels := graph.channels.insert name channel }

/-- Takes a channel away and unbinds its ends. -/
def removeChannel (graph : Graph) (channel : String) : Graph :=
  match graph.channel? channel with
  | none => graph
  | some found =>
      found.ends.toList.foldl (fun current endpoint => current.bind endpoint none)
        { graph with channels := graph.channels.erase channel }

/-- Whether a channel still passes values: it has two ends, and both directions among them. A
channel that is not there has nothing to lose. -/
def isViable (graph : Graph) (channel : String) : Bool :=
  match graph.channel? channel with
  | none => true
  | some found => 2 ≤ found.ends.size && graph.isTwoWay found.ends.toList

/-- Unbinds an endpoint from a channel, and takes the channel away when it passes no values
any more. -/
def detach (graph : Graph) (endpoint : Endpoint) (channel : String) : Graph :=
  let loose := (graph.bind endpoint none).changeEnds channel fun ends => ends.erase endpoint
  if loose.isViable channel then loose else loose.removeChannel channel

/-- Gives the pins of a node another node name on their channels. -/
def renameEnds (graph : Graph) (bound : List (String × String)) (old new : String) : Graph :=
  bound.foldl
    (fun current entry => current.changeEnds entry.2 fun ends =>
      KeySet.add (Table.erase ends ⟨old, entry.1⟩) ⟨new, entry.1⟩)
    graph

/-! ## What requests describe -/

/-- The bound pins that another part would not keep: it has no such pin, or one of another type
or direction. -/
def lostPins (node : Node) (part : Part) : List String :=
  (node.boundPins.map Prod.fst).filter fun name =>
    match node.part.pin? name, part.pin? name with
    | some old, some new => old.type ≠ new.type || old.direction ≠ new.direction
    | _, _ => true

/-- The connections of a node with another part: pins of both parts keep their channel. -/
def keptConnections (node : Node) (part : Part) : Table String (Option String) :=
  Table.ofList (part.pins.map fun pin => (pin.name, node.binding? pin.name))

end Graph

/-- The node that a request asks for, with the part that it describes. -/
def CreateNode.node (request : CreateNode) (part : Part) : Node :=
  { name := request.name, enabled := request.enabled, multiplicity := request.multiplicity,
    waits := request.waits, x := request.x, y := request.y, part,
    connections := Node.unbound part }

/-- The channel that a request asks for. -/
def CreateChannel.channel (request : CreateChannel) : Channel :=
  { name := request.name, type := request.type, capacity := request.capacity,
    anonymous := request.anonymous, ends := KeySet.ofList [request.first, request.second] }

/-- What a node becomes on request, with the part that the request describes. -/
def SetNodeProperties.outcome (request : SetNodeProperties) (node : Node) (part : Part) : Node :=
  { name := if request.name ≠ request.node then request.name else node.name,
    enabled := request.enabled, multiplicity := request.multiplicity, waits := request.waits,
    x := request.x, y := request.y, part, connections := Graph.keptConnections node part }

namespace Graph

/-! ## What requests make of a graph -/

/-- The graph with the channel that a request asks for, bound to its two pins. -/
def addChannel (graph : Graph) (request : CreateChannel) : Graph :=
  ((graph.bind request.first (some request.name)).bind request.second
    (some request.name)).putChannel request.name request.channel

/-- The graph with an endpoint bound to a channel and listed there. -/
def attach (graph : Graph) (endpoint : Endpoint) (channel : String) : Graph :=
  (graph.bind endpoint (some channel)).changeEnds channel fun ends => ends.add endpoint

/-- The graph in which a node has become another one, and its bound pins have followed. -/
def replaceNode (graph : Graph) (request : SetNodeProperties) (node : Node) : Graph :=
  let followed :=
    if request.name ≠ request.node then
      graph.renameEnds node.boundPins request.node request.name
    else graph
  (followed.dropNode request.node).putNode request.name node

/-- The graph with a node put elsewhere. -/
def place (graph : Graph) (request : SetPosition) : Graph :=
  { graph with
    nodes := graph.nodes.modify request.node fun node =>
      { node with x := request.x, y := request.y } }

/-- Gives the graph other properties. -/
def setProperties (graph : Graph) (request : SetGraphProperties) : Graph :=
  { graph with
    name := request.name, packagePath := request.packagePath, isCommand := request.isCommand }

/-! ## Changes -/

/-- Adds a node with no pin bound. -/
def createNode (registry : Registry) (graph : Graph) (request : CreateNode) :
    Except Error Graph := do
  requireName request.name
  if graph.nodes.contains request.name then throw (.nodeExists request.name)
  requireInstances request.multiplicity
  let part ← requirePart registry request.partType request.part
  return graph.putNode request.name (request.node part)

/-- Adds a channel between two pins. -/
def createChannel (graph : Graph) (request : CreateChannel) : Except Error Graph := do
  let firstPin ← graph.requirePin request.first
  let secondPin ← graph.requirePin request.second
  graph.requireUnbound request.first
  graph.requireUnbound request.second
  requireName request.name
  if graph.channels.contains request.name then throw (.channelExists request.name)
  if request.first.node = request.second.node then
    throw (.nodeOnChannel request.first.node request.name)
  requireType request.first firstPin request.name request.type
  requireType request.second secondPin request.name request.type
  if firstPin.direction = secondPin.direction then throw (.sameDirection request.name)
  return graph.addChannel request

/-- Attaches a pin to a channel. -/
def connectPin (graph : Graph) (request : ConnectPin) : Except Error Graph := do
  let pin ← graph.requirePin request.endpoint
  match graph.channel? request.channel with
  | none => throw (.channelNotFound request.channel)
  | some channel =>
      graph.requireUnbound request.endpoint
      if channel.ends.toList.any fun other => other.node = request.endpoint.node then
        throw (.nodeOnChannel request.endpoint.node request.channel)
      requireType request.endpoint pin request.channel channel.type
      return graph.attach request.endpoint request.channel

/-- Detaches a pin from its channel, if it has one. -/
def disconnectPin (graph : Graph) (endpoint : Endpoint) : Except Error Graph := do
  let _ ← graph.requirePin endpoint
  match graph.binding? endpoint with
  | none => return graph
  | some channel => return graph.detach endpoint channel

/-- Takes a channel away. -/
def deleteChannel (graph : Graph) (channel : String) : Except Error Graph :=
  if graph.channels.contains channel then .ok (graph.removeChannel channel)
  else .error (.channelNotFound channel)

/-- Takes a node away, once all its pins are detached. -/
def deleteNode (graph : Graph) (name : String) : Except Error Graph := do
  let node ← graph.requireNode name
  let loose := node.boundPins.foldl
    (fun current bound => current.detach ⟨name, bound.1⟩ bound.2) graph
  return loose.dropNode name

/-- Gives a node other properties, another part and perhaps another name. Its bound pins have to
stay what they are. -/
def setNodeProperties (registry : Registry) (graph : Graph) (request : SetNodeProperties) :
    Except Error Graph := do
  let node ← graph.requireNode request.node
  requireName request.name
  if request.name ≠ request.node ∧ graph.nodes.contains request.name then
    throw (.nodeExists request.name)
  requireInstances request.multiplicity
  let part ← requirePart registry request.partType request.part
  match lostPins node part with
  | pin :: _ => throw (.boundPinChanged ⟨request.node, pin⟩)
  | [] => return graph.replaceNode request (request.outcome node part)

/-- Puts a node elsewhere. -/
def setPosition (graph : Graph) (request : SetPosition) : Except Error Graph := do
  let _ ← graph.requireNode request.node
  return graph.place request

/-- The graph after a request; to save changes nothing. -/
def apply (registry : Registry) (graph : Graph) : Request → Except Error Graph
  | .createNode request => graph.createNode registry request
  | .createChannel request => graph.createChannel request
  | .connectPin request => graph.connectPin request
  | .disconnectPin endpoint => graph.disconnectPin endpoint
  | .deleteNode node => graph.deleteNode node
  | .deleteChannel channel => graph.deleteChannel channel
  | .setNodeProperties request => graph.setNodeProperties registry request
  | .setGraphProperties request => .ok (graph.setProperties request)
  | .setPosition request => graph.setPosition request
  | .save => .ok graph

end Graph

end Pipework
