import Pipework.Graph.Consistency
import Pipework.Go.Ident

/-!
The wiring of a generated program: which channels it makes, and what the function of each node
is given for its pins.

A channel is live when an enabled node writes to it and an enabled node reads from it; pins on
other channels are given nil. A live channel with several writers has a private channel for
each of them, so that each can close its own, and all of these are merged into it.
-/

namespace Pipework

/-! ## Live channels -/

namespace Graph

/-- Whether a node is in the graph and enabled. -/
def isEnabled (graph : Graph) (node : String) : Bool :=
  (graph.node? node).any Node.enabled

/-- The ends of a channel that are pins of enabled nodes with a direction. -/
def activeEnds (graph : Graph) (channel : Channel) (direction : Direction) : List Endpoint :=
  channel.ends.toList.filter fun endpoint =>
    graph.isEnabled endpoint.node &&
      (graph.pin? endpoint).any fun pin => pin.direction = direction

/-- The pins that write to a channel. -/
def writers (graph : Graph) (channel : Channel) : List Endpoint :=
  graph.activeEnds channel .output

/-- The pins that read from a channel. -/
def readers (graph : Graph) (channel : Channel) : List Endpoint :=
  graph.activeEnds channel .input

/-- Whether a channel has a writer and a reader. -/
def isLive (graph : Graph) (channel : Channel) : Bool :=
  !(graph.writers channel).isEmpty && !(graph.readers channel).isEmpty

/-- The live channels, in the order of their names. -/
def liveChannels (graph : Graph) : List Channel :=
  graph.channels.values.filter graph.isLive

/-- The enabled nodes, in the order of their names. -/
def enabledNodes (graph : Graph) : List Node :=
  graph.nodes.values.filter Node.enabled

end Graph

/-! ## Arguments -/

/-- The Go variables of some writers of a channel: the channel itself for the only one, and a
private channel for each of several. -/
def writerVariables (channel : String) (writers : List Endpoint) : List (Endpoint × String) :=
  match writers with
  | [only] => [(only, Go.channelIdent channel)]
  | several =>
      several.zipIdx.map fun (endpoint, index) => (endpoint, Go.writerIdent channel index)

/-- The private channels of some writers of a channel. -/
def privateVariables (channel : String) (writers : List Endpoint) : List String :=
  match writers with
  | [_] => []
  | several => (List.range several.length).map (Go.writerIdent channel)

/-- The variables that the ends of a live channel are given. -/
def Graph.channelArguments (graph : Graph) (channel : Channel) : List (Endpoint × String) :=
  ((graph.readers channel).map fun endpoint => (endpoint, Go.channelIdent channel.name)) ++
    writerVariables channel.name (graph.writers channel)

/-- The variables that pins are given. -/
def Graph.arguments (graph : Graph) : Table Endpoint String :=
  Table.ofList (graph.liveChannels.flatMap graph.channelArguments)

/-! ## The wiring -/

/-- A live channel in a program. -/
structure WiredChannel where
  name : String
  /-- The Go type of the values that pass. -/
  type : String
  capacity : UInt32
  /-- The private channels, of which there are none or several. -/
  writers : List String
  deriving DecidableEq, Repr, Inhabited

/-- The variable of a live channel. -/
def WiredChannel.ident (channel : WiredChannel) : String := Go.channelIdent channel.name

/-- A parameter of a node's function: a pin and the variable that it is given. -/
structure Param where
  pin : Pin
  given? : Option String
  deriving DecidableEq, Repr, Inhabited

namespace Param

/-- The parameter as Go declares it. -/
def declaration (param : Param) : String :=
  match param.pin.direction with
  | .input => param.pin.name ++ " <-chan " ++ param.pin.type
  | .output => param.pin.name ++ " chan<- " ++ param.pin.type

/-- What the parameter is given in Go. -/
def argument (param : Param) : String := param.given?.getD "nil"

/-- Whether the parameter is given a channel. -/
def isBound (param : Param) : Bool := param.given?.isSome

end Param

/-- An enabled node in a program, with a parameter for each pin. -/
structure WiredNode where
  node : Node
  params : List Param
  deriving DecidableEq

namespace WiredNode

/-- The function of a node. -/
def ident (wired : WiredNode) : String := Go.nodeIdent wired.node.name

/-- The pins that are given a channel. -/
def bindings (wired : WiredNode) : Bindings :=
  KeySet.ofList ((wired.params.filter Param.isBound).map fun param => param.pin.name)

/-- The pins whose channel the node closes: the outputs that are given one. -/
def closes (wired : WiredNode) : List String :=
  (wired.params.filter fun param => param.pin.direction = .output && param.isBound).map
    fun param => param.pin.name

end WiredNode

/-- All live channels and all enabled nodes of a program, each in the order of their names. -/
structure Wiring where
  channels : List WiredChannel
  nodes : List WiredNode
  deriving DecidableEq

/-- A live channel with its private channels. -/
def Graph.wiredChannel (graph : Graph) (channel : Channel) : WiredChannel :=
  { name := channel.name, type := channel.type, capacity := channel.capacity,
    writers := privateVariables channel.name (graph.writers channel) }

/-- A node with what some arguments give it. -/
def Node.wired (node : Node) (arguments : Table Endpoint String) : WiredNode :=
  { node, params := node.part.pins.map fun pin => ⟨pin, arguments.get? ⟨node.name, pin.name⟩⟩ }

/-- The wiring of a graph. -/
def Graph.wiring (graph : Graph) : Wiring :=
  let arguments := graph.arguments
  { channels := graph.liveChannels.map graph.wiredChannel,
    nodes := graph.enabledNodes.map fun node => node.wired arguments }

end Pipework
