import Pipework.Table
import Pipework.Part
import Pipework.Text.Split

/-!
Graphs of nodes and channels.

Nodes and channels refer to each other by name: a node says to which channel each of its pins
is bound, and a channel says which pins are attached to it. `Graph.Edit` keeps the two sides
in step and `Graph.Consistency` checks that they are; nothing here demands it.
-/

namespace Pipework

/-! ## Endpoints -/

/-- A pin of a node. -/
structure Endpoint where
  node : String
  pin : String
  deriving DecidableEq, Repr, Inhabited

namespace Endpoint

/-- The form in which a pin is named: the node, a dot, the pin. -/
def text (endpoint : Endpoint) : String := endpoint.node ++ "." ++ endpoint.pin

/-- The pin that a text names. The last dot stands between node and pin, and neither of the two
is empty. -/
def ofText? (text : String) : Option Endpoint :=
  match Text.splitAtLast? '.' text.toList with
  | some (node, pin) =>
      if node = [] ∨ pin = [] then none else some ⟨String.ofList node, String.ofList pin⟩
  | none => none

/-- Endpoints are ordered by node, and those of a node by pin. -/
instance : LT Endpoint where
  lt first second :=
    first.node < second.node ∨ (first.node = second.node ∧ first.pin < second.pin)

instance : DecidableLT Endpoint := fun first second =>
  inferInstanceAs (Decidable
    (first.node < second.node ∨ (first.node = second.node ∧ first.pin < second.pin)))

instance : TotalKey Endpoint where
  irrefl := by
    rintro ⟨node, pin⟩ (before | ⟨_, before⟩)
    · exact TotalKey.irrefl node before
    · exact TotalKey.irrefl pin before
  trans := by
    rintro ⟨firstNode, firstPin⟩ ⟨secondNode, secondPin⟩ ⟨thirdNode, thirdPin⟩ left right
    rcases left with left | ⟨sameLeft, left⟩ <;> rcases right with right | ⟨sameRight, right⟩
    · exact Or.inl (TotalKey.trans left right)
    · exact Or.inl (sameRight ▸ left)
    · exact Or.inl (sameLeft ▸ right)
    · exact Or.inr ⟨sameLeft.trans sameRight, TotalKey.trans left right⟩
  connected := by
    rintro ⟨firstNode, firstPin⟩ ⟨secondNode, secondPin⟩ notBefore notAfter
    have sameNode : firstNode = secondNode :=
      TotalKey.connected (fun before => notBefore (Or.inl before))
        (fun before => notAfter (Or.inl before))
    subst sameNode
    have samePin : firstPin = secondPin :=
      TotalKey.connected (fun before => notBefore (Or.inr ⟨rfl, before⟩))
        (fun before => notAfter (Or.inr ⟨rfl, before⟩))
    subst samePin
    rfl

end Endpoint

/-! ## Nodes, channels and graphs -/

/-- A part at work in a graph. -/
structure Node where
  name : String
  /-- Nodes that are not enabled are left out of generated programs. -/
  enabled : Bool
  /-- How many instances of the body run at once. -/
  multiplicity : UInt32
  /-- Whether the program waits for the node. -/
  waits : Bool
  x : Int64
  y : Int64
  part : Part
  /-- The channel of each bound pin; pins that are not bound have nothing. -/
  connections : Table String (Option String)
  deriving DecidableEq

namespace Node

/-- The channel to which a pin is bound. -/
def binding? (node : Node) (pin : String) : Option String := (node.connections.get? pin).join

/-- The bound pins with their channels, in the order of the pins. -/
def boundPins (node : Node) : List (String × String) :=
  node.connections.entries.filterMap fun entry => entry.2.map fun channel => (entry.1, channel)

/-- Connections in which no pin of a part is bound. -/
def unbound (part : Part) : Table String (Option String) :=
  Table.ofList (part.pins.map fun pin => (pin.name, none))

end Node

/-- A channel that pins of several nodes share. -/
structure Channel where
  name : String
  /-- The Go type of the values that pass. -/
  type : String
  /-- How many values the channel holds back; none when it is zero. -/
  capacity : UInt32
  /-- Whether the channel came about by joining two pins. -/
  anonymous : Bool
  /-- The pins attached to the channel. -/
  ends : KeySet Endpoint
  deriving DecidableEq

/-- A graph of nodes that pass values through channels. -/
structure Graph where
  name : String
  /-- The Go path of the generated package. -/
  packagePath : String
  /-- Whether a command is generated rather than a library. -/
  isCommand : Bool
  nodes : Table String Node
  channels : Table String Channel
  deriving DecidableEq

namespace Graph

/-- A graph without nodes and channels. -/
def empty (name packagePath : String) (isCommand : Bool) : Graph :=
  ⟨name, packagePath, isCommand, Table.empty, Table.empty⟩

instance : Inhabited Graph := ⟨empty "" "" false⟩

/-- The node with a name. -/
def node? (graph : Graph) (name : String) : Option Node := graph.nodes.get? name

/-- The channel with a name. -/
def channel? (graph : Graph) (name : String) : Option Channel := graph.channels.get? name

/-- The pin at an endpoint. -/
def pin? (graph : Graph) (endpoint : Endpoint) : Option Pin :=
  (graph.node? endpoint.node).bind fun node => node.part.pin? endpoint.pin

/-- The channel to which an endpoint is bound. -/
def binding? (graph : Graph) (endpoint : Endpoint) : Option String :=
  (graph.node? endpoint.node).bind fun node => node.binding? endpoint.pin

end Graph

/-! ## Names -/

/-- The word that stands for the channel of a pin that is not bound. -/
def unboundWord : String := "nil"

/-- Why a name is refused. -/
inductive NameFault where
  | blank
  | reserved
  /-- The name leads out of the directory in which it should stand. -/
  | outside
  /-- The name ends in no name of a file. -/
  | notFile
  deriving DecidableEq, Repr, Inhabited

/-- The text of a name fault. -/
def NameFault.message : NameFault → String
  | blank => "must not be empty"
  | reserved => "reserved for unbound pins"
  | outside => "must be a relative path below the graphs directory"
  | notFile => "not a file path"

/-- A refused name and why it is refused, in a line. -/
def invalidNameText (name : String) (fault : NameFault) : String :=
  "invalid name '" ++ name ++ "': " ++ fault.message

/-- What is wrong with the name of a node or channel. -/
def nameFault (name : String) : Option NameFault :=
  if Text.isBlank name then some .blank
  else if name = unboundWord then some .reserved
  else none

/-- What is said of a node without instances. -/
def zeroMultiplicityText : String := "invalid argument: multiplicity must be at least 1"

end Pipework
