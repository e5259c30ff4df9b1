import Pipework.Graph.Basic

/-!
A graph in a few lines, for people.
-/

namespace Pipework

/-- What is unusual about a node. -/
def Node.remarks (node : Node) : List String :=
  (if node.enabled then [] else ["disabled"]) ++ (if node.waits then [] else ["no-wait"]) ++
    if 1 < node.multiplicity then ["x" ++ toString node.multiplicity.toNat] else []

/-- What is unusual about a node, behind its name. -/
def Node.remarkText (node : Node) : String :=
  if node.remarks.isEmpty then "" else " [" ++ String.intercalate ", " node.remarks ++ "]"

/-- The line of a pin of a node. -/
def Node.pinSummary (node : Node) (pin : Pin) : String :=
  "    " ++ pin.direction.word ++ " " ++ pin.name ++ " " ++ pin.type ++ " -> " ++
    (node.binding? pin.name).getD unboundWord ++ "\n"

/-- The lines of a node. -/
def Node.summary (node : Node) : String :=
  "  " ++ node.name ++ " (" ++ node.part.kind.key ++ ")" ++ node.remarkText ++ "\n" ++
    String.join (node.part.pins.map node.pinSummary)

/-- The line of a channel. -/
def Channel.summary (channel : Channel) : String :=
  "  " ++ channel.name ++ " chan " ++ channel.type ++ " (cap " ++
    toString channel.capacity.toNat ++ "): " ++
    String.intercalate ", " (channel.ends.toList.map Endpoint.text) ++ "\n"

/-- The lines of a graph. -/
def Graph.summary (graph : Graph) : String :=
  "Graph: " ++ graph.name ++ "\nPackage: " ++ graph.packagePath ++ "\nKind: " ++
    (if graph.isCommand then "command" else "library") ++ "\n\nNodes (" ++
    toString graph.nodes.size ++ "):\n" ++ String.join (graph.nodes.values.map Node.summary) ++
    "\nChannels (" ++ toString graph.channels.size ++ "):\n" ++
    String.join (graph.channels.values.map Channel.summary)

end Pipework
