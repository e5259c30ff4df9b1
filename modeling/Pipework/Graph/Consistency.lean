import Pipework.Graph.Basic
import Pipework.Text.Quoted

/-!
The check that the two sides of a graph agree.

`Graph.problems` lists every violation. The first problems come from nodes, in the order of
their keys, and then those of channels.
-/

namespace Pipework

/-! ## Problems -/

/-- A way in which a graph or its document is wrong. -/
inductive Problem where
  | channelKey (name : String) (fault : NameFault)
  | nodeKey (name : String) (fault : NameFault)
  | noInstances (node : String)
  /-- A document binds a pin that the part does not have. -/
  | unknownPin (node pin channel : String)
  /-- A document binds a pin to a channel that it does not declare. -/
  | unknownChannel (endpoint : Endpoint) (channel : String)
  | nodeElsewhere (name key : String)
  | connectionsDiffer (node : String) (connected pins : List String)
  | boundToMissing (endpoint : Endpoint) (channel : String)
  | notListed (endpoint : Endpoint) (channel : String)
  | channelElsewhere (name key : String)
  | fewEnds (channel : String)
  | severalOnNode (channel node : String)
  | endOfMissingNode (channel : String) (endpoint : Endpoint)
  | endNotBound (channel : String) (endpoint : Endpoint)
  | endMissingPin (channel : String) (endpoint : Endpoint)
  | endOtherType (endpoint : Endpoint) (pinType channel channelType : String)
  | oneWay (channel : String)
  deriving DecidableEq, Repr, Inhabited

/-- The text of a problem. -/
def Problem.message : Problem → String
  | channelKey name fault => "channel key: " ++ invalidNameText name fault
  | nodeKey name fault => "node key: " ++ invalidNameText name fault
  | noInstances node => "node '" ++ node ++ "': " ++ zeroMultiplicityText
  | unknownPin node pin channel =>
      "node '" ++ node ++ "' binds unknown pin '" ++ pin ++ "' to '" ++ channel ++ "'"
  | unknownChannel endpoint channel =>
      "pin '" ++ endpoint.text ++ "' refers to unknown channel '" ++ channel ++ "'"
  | nodeElsewhere name key => "node '" ++ name ++ "' stored under key '" ++ key ++ "'"
  | connectionsDiffer node connected pins =>
      "node '" ++ node ++ "' connections " ++ Text.quotedSet connected ++
        " do not match pins " ++ Text.quotedSet pins
  | boundToMissing endpoint channel =>
      "pin '" ++ endpoint.text ++ "' is bound to missing channel '" ++ channel ++ "'"
  | notListed endpoint channel =>
      "pin '" ++ endpoint.text ++ "' is bound to '" ++ channel ++
        "' but the channel does not list it"
  | channelElsewhere name key => "channel '" ++ name ++ "' stored under key '" ++ key ++ "'"
  | fewEnds channel => "channel '" ++ channel ++ "' has fewer than 2 pins"
  | severalOnNode channel node =>
      "channel '" ++ channel ++ "' has several pins on node '" ++ node ++ "'"
  | endOfMissingNode channel endpoint =>
      "channel '" ++ channel ++ "' lists pin '" ++ endpoint.text ++ "' of missing node"
  | endNotBound channel endpoint =>
      "channel '" ++ channel ++ "' lists pin '" ++ endpoint.text ++ "' which is not bound to it"
  | endMissingPin channel endpoint =>
      "channel '" ++ channel ++ "' lists missing pin '" ++ endpoint.text ++ "'"
  | endOtherType endpoint pinType channel channelType =>
      "pin '" ++ endpoint.text ++ "' has type '" ++ pinType ++ "' but channel '" ++ channel ++
        "' has type '" ++ channelType ++ "'"
  | oneWay channel => "channel '" ++ channel ++ "' lacks an input or an output pin"

/-! ## The check -/

/-- A problem that is listed when a condition holds. -/
def problemIf (condition : Bool) (problem : Problem) : List Problem :=
  if condition then [problem] else []

namespace Graph

/-- What is wrong with the binding of a pin of a node. -/
def bindingProblems (graph : Graph) (node : Node) (pin channel : String) : List Problem :=
  match graph.channel? channel with
  | none => [.boundToMissing ⟨node.name, pin⟩ channel]
  | some found =>
      problemIf (!found.ends.contains ⟨node.name, pin⟩) (.notListed ⟨node.name, pin⟩ channel)

/-- What is wrong with a node under a key. -/
def nodeProblems (graph : Graph) (key : String) (node : Node) : List Problem :=
  let pins := (KeySet.ofList (node.part.pins.map Pin.name)).toList
  problemIf (key ≠ node.name) (.nodeElsewhere node.name key) ++
    problemIf (pins ≠ node.connections.keys)
      (.connectionsDiffer node.name node.connections.keys pins) ++
    node.boundPins.flatMap fun bound => graph.bindingProblems node bound.1 bound.2

/-- What is wrong with an end of a channel, apart from the other ends. -/
def endProblems (graph : Graph) (channel : Channel) (endpoint : Endpoint) : List Problem :=
  match graph.node? endpoint.node with
  | none => [.endOfMissingNode channel.name endpoint]
  | some node =>
      problemIf (node.binding? endpoint.pin ≠ some channel.name)
          (.endNotBound channel.name endpoint) ++
        match node.part.pin? endpoint.pin with
        | none => [.endMissingPin channel.name endpoint]
        | some pin =>
            problemIf (pin.type ≠ channel.type)
              (.endOtherType endpoint pin.type channel.name channel.type)

/-- What is wrong with the ends of a channel that follow ends on the `seen` nodes. -/
def endsProblems (graph : Graph) (channel : Channel) (seen : List String) :
    List Endpoint → List Problem
  | [] => []
  | endpoint :: rest =>
      problemIf (endpoint.node ∈ seen) (.severalOnNode channel.name endpoint.node) ++
        graph.endProblems channel endpoint ++
        graph.endsProblems channel (endpoint.node :: seen) rest

/-- Whether a pin of the direction is among some endpoints. -/
def hasDirection (graph : Graph) (direction : Direction) (endpoints : List Endpoint) : Bool :=
  endpoints.any fun endpoint =>
    (graph.pin? endpoint).any fun pin => pin.direction = direction

/-- Whether some endpoints hold an input and an output. -/
def isTwoWay (graph : Graph) (endpoints : List Endpoint) : Bool :=
  graph.hasDirection .input endpoints && graph.hasDirection .output endpoints

/-- What is wrong with a channel under a key. A channel without ends is at rest. -/
def channelProblems (graph : Graph) (key : String) (channel : Channel) : List Problem :=
  let ends := channel.ends.toList
  problemIf (key ≠ channel.name) (.channelElsewhere channel.name key) ++
    if ends.isEmpty then []
    else
      problemIf (ends.length < 2) (.fewEnds channel.name) ++
        graph.endsProblems channel [] ends ++
        problemIf (!graph.isTwoWay ends) (.oneWay channel.name)

/-- Everything that is wrong with a graph. -/
def problems (graph : Graph) : List Problem :=
  (graph.nodes.entries.flatMap fun entry => graph.nodeProblems entry.1 entry.2) ++
    graph.channels.entries.flatMap fun entry => graph.channelProblems entry.1 entry.2

end Graph

end Pipework
