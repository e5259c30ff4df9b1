import Pipework.Graph.Basic

/-!
Requests: the ways in which a graph can be asked to change.
-/

namespace Pipework

open Json (Value)

/-! ## Changes -/

/-- Asks for a node with no pin bound. -/
structure CreateNode where
  name : String
  partType : String
  part : Value
  enabled : Bool
  waits : Bool
  multiplicity : UInt32
  x : Int64
  y : Int64
  deriving Repr, Inhabited

/-- Asks for a channel between two pins. -/
structure CreateChannel where
  name : String
  type : String
  capacity : UInt32
  anonymous : Bool
  first : Endpoint
  second : Endpoint
  deriving DecidableEq, Repr, Inhabited

/-- Asks for a pin to be attached to a channel that exists. -/
structure ConnectPin where
  endpoint : Endpoint
  channel : String
  deriving DecidableEq, Repr, Inhabited

/-- Asks for other properties and another part of a node, and perhaps for another name. -/
structure SetNodeProperties where
  node : String
  name : String
  enabled : Bool
  waits : Bool
  multiplicity : UInt32
  partType : String
  part : Value
  x : Int64
  y : Int64
  deriving Repr, Inhabited

/-- Asks for another place of a node. -/
structure SetPosition where
  node : String
  x : Int64
  y : Int64
  deriving DecidableEq, Repr, Inhabited

/-- Asks for other properties of the graph itself. -/
structure SetGraphProperties where
  name : String
  packagePath : String
  isCommand : Bool
  deriving DecidableEq, Repr, Inhabited

/-! ## Requests -/

/-- A change, or the wish to have the graph saved. -/
inductive Request where
  | createNode (request : CreateNode)
  | createChannel (request : CreateChannel)
  | connectPin (request : ConnectPin)
  | disconnectPin (endpoint : Endpoint)
  | deleteNode (node : String)
  | deleteChannel (channel : String)
  | setNodeProperties (request : SetNodeProperties)
  | setGraphProperties (request : SetGraphProperties)
  | setPosition (request : SetPosition)
  | save
  deriving Repr, Inhabited

/-- The name of what a request asks for. -/
def Request.op : Request → String
  | createNode _ => "CreateNode"
  | createChannel _ => "CreateChannel"
  | connectPin _ => "ConnectPin"
  | disconnectPin _ => "DisconnectPin"
  | deleteNode _ => "DeleteNode"
  | deleteChannel _ => "DeleteChannel"
  | setNodeProperties _ => "SetNodeProperties"
  | setGraphProperties _ => "SetGraphProperties"
  | setPosition _ => "SetPosition"
  | save => "Save"

end Pipework
