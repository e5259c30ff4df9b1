import Pipework.Request

/-!
Requests as JSON.

A request is an object whose member `op` says what it asks for, or an array with that name in
front. `Request.value` writes the object with all its members.
-/

namespace Pipework

open Json (Decoder DecodeError Document Fault Fields Reading Value)

/-! ## Members -/

/-- The members of a request for a node. -/
def CreateNode.fields : Fields CreateNode :=
  CreateNode.mk <$> Fields.required "name" Decoder.text <*>
    Fields.required "part_type" Decoder.text <*> Fields.optional "part" Decoder.any .null <*>
    Fields.optional "enabled" Decoder.flag true <*> Fields.optional "wait" Decoder.flag true <*>
    Fields.optional "multiplicity" Decoder.unsigned32 1 <*>
    Fields.optional "x" Decoder.signed64 0 <*> Fields.optional "y" Decoder.signed64 0

/-- The members of an endpoint under the given names. -/
def Endpoint.fields (node pin : String) : Fields Endpoint :=
  Endpoint.mk <$> Fields.required node Decoder.text <*> Fields.required pin Decoder.text

/-- The members of a request for a channel. -/
def CreateChannel.fields : Fields CreateChannel :=
  CreateChannel.mk <$> Fields.required "name" Decoder.text <*>
    Fields.required "type" Decoder.text <*> Fields.optional "cap" Decoder.unsigned32 0 <*>
    Fields.optional "anonymous" Decoder.flag false <*> Endpoint.fields "node1" "pin1" <*>
    Endpoint.fields "node2" "pin2"

/-- The members of a request to attach a pin. -/
def ConnectPin.fields : Fields ConnectPin :=
  ConnectPin.mk <$> Endpoint.fields "node" "pin" <*> Fields.required "channel" Decoder.text

/-- The members of a request for properties of a node. -/
def SetNodeProperties.fields : Fields SetNodeProperties :=
  SetNodeProperties.mk <$> Fields.required "node" Decoder.text <*>
    Fields.required "name" Decoder.text <*> Fields.required "enabled" Decoder.flag <*>
    Fields.required "wait" Decoder.flag <*>
    Fields.required "multiplicity" Decoder.unsigned32 <*>
    Fields.required "part_type" Decoder.text <*> Fields.optional "part" Decoder.any .null <*>
    Fields.optional "x" Decoder.signed64 0 <*> Fields.optional "y" Decoder.signed64 0

/-- The members of a request for another place. -/
def SetPosition.fields : Fields SetPosition :=
  SetPosition.mk <$> Fields.required "node" Decoder.text <*>
    Fields.required "x" Decoder.signed64 <*> Fields.required "y" Decoder.signed64

/-- The members of a request for properties of the graph. -/
def SetGraphProperties.fields : Fields SetGraphProperties :=
  SetGraphProperties.mk <$> Fields.required "name" Decoder.text <*>
    Fields.required "package_path" Decoder.text <*> Fields.required "is_command" Decoder.flag

/-! ## Reading -/

namespace Request

/-- Reads what a save asks for, which is nothing: members are passed over, items are too
many. -/
def saveDecoder : Decoder Request
  | .array items@(_ :: _) _ => .error (Json.surplusBehindTag 0 items.length)
  | _ => .ok .save

/-- Reads a record that stands behind its tag. -/
def behindTag {α : Type} (name : String) (fields : Fields α) (make : α → Request) :
    Decoder Request :=
  fun tree => (fields.record name Json.surplusBehindTag tree).map make

/-- The names of requests and how each is read once its tag is off, in the order in which the
names are listed. -/
def decoders : List (String × Decoder Request) :=
  [("CreateNode", behindTag "CreateNode" CreateNode.fields createNode),
    ("CreateChannel", behindTag "CreateChannel" CreateChannel.fields createChannel),
    ("ConnectPin", behindTag "ConnectPin" ConnectPin.fields connectPin),
    ("DisconnectPin", behindTag "DisconnectPin" (Endpoint.fields "node" "pin") disconnectPin),
    ("DeleteNode", behindTag "DeleteNode" (Fields.required "node" Decoder.text) deleteNode),
    ("DeleteChannel",
      behindTag "DeleteChannel" (Fields.required "channel" Decoder.text) deleteChannel),
    ("SetNodeProperties",
      behindTag "SetNodeProperties" SetNodeProperties.fields setNodeProperties),
    ("SetGraphProperties",
      behindTag "SetGraphProperties" SetGraphProperties.fields setGraphProperties),
    ("SetPosition", behindTag "SetPosition" SetPosition.fields setPosition),
    ("Save", saveDecoder)]

/-- The names of requests, as they are listed where another name stands. -/
def knownNames : String :=
  "one of " ++ String.intercalate ", " (decoders.map fun entry => "`" ++ entry.1 ++ "`")

/-- How the request with a name is read once its tag is off. -/
def findDecoder? (name : String) : Option (Decoder Request) :=
  (decoders.find? fun entry => entry.1 = name).map Prod.snd

/-- Reads the tag of a request. -/
def tagDecoder : Decoder (Decoder Request)
  | .string name =>
      match findDecoder? name with
      | some decoder => .ok decoder
      | none => .error (.shape (.unknownVariant name knownNames))
  | tree => Json.refuse "variant identifier" tree

/-- Looks at the members of a request in turn: the tag has to name a request and must not stand
twice, and every other member has to be a value. -/
def readTag (found : Option (Decoder Request)) :
    List (Option String × Reading) → Except DecodeError (Option (Decoder Request))
  | [] => .ok found
  | (none, _) :: _ => .error (.unreadable .malformed)
  | (some key, tree) :: rest =>
      if key = "op" then
        if found.isSome then .error (.shape (.repeatedMember "op"))
        else
          match tagDecoder tree with
          | .error error => .error error
          | .ok decoder => readTag (some decoder) rest
      else
        match tree.value with
        | .error error => .error (.unreadable error)
        | .ok _ => readTag found rest

/-- Reads a request. -/
def decoder : Decoder Request
  | .object members stop =>
      match readTag none members, stop with
      | .error error, _ => .error error
      | .ok _, some fault => .error (.unreadable fault.wanted)
      | .ok none, none => .error (.shape (.missingMember "op"))
      | .ok (some content), none =>
          content (.object (members.filter fun member => member.1 ≠ some "op") none)
  | .array [] (some fault) => .error (.unreadable fault.wanted)
  | .array [] none => .error (.shape (.missingMember "op"))
  | .array (tag :: items) stop =>
      match tagDecoder tag with
      | .error error => .error error
      | .ok content =>
          match (Reading.array items stop).value with
          | .error error => .error (.unreadable error)
          | .ok _ => content (.array items none)
  | tree => Json.refuse "internally tagged enum Request" tree

/-- Reads a request out of a value. -/
def ofValue (value : Value) : Except DecodeError Request := decoder value.reading

/-- Reads a request out of a text. -/
def ofDocument (document : Document) : Except DecodeError Request :=
  match decoder document.tree, document.trailing with
  | .error error, _ => .error error
  | .ok _, some error => .error (.unreadable error)
  | .ok request, none => .ok request

/-- Reads a request out of a text. -/
def ofText (text : String) : Except DecodeError Request := ofDocument (Document.ofText text)

/-! ## Writing -/

/-- The members of a request beside its tag. -/
def members : Request → List (String × Value)
  | createNode request =>
      [("name", .string request.name), ("part_type", .string request.partType),
        ("part", request.part), ("enabled", .bool request.enabled),
        ("wait", .bool request.waits), ("multiplicity", .whole request.multiplicity.toNat),
        ("x", .whole request.x.toInt), ("y", .whole request.y.toInt)]
  | createChannel request =>
      [("name", .string request.name), ("type", .string request.type),
        ("cap", .whole request.capacity.toNat), ("anonymous", .bool request.anonymous),
        ("node1", .string request.first.node), ("pin1", .string request.first.pin),
        ("node2", .string request.second.node), ("pin2", .string request.second.pin)]
  | connectPin request =>
      [("node", .string request.endpoint.node), ("pin", .string request.endpoint.pin),
        ("channel", .string request.channel)]
  | disconnectPin endpoint => [("node", .string endpoint.node), ("pin", .string endpoint.pin)]
  | deleteNode node => [("node", .string node)]
  | deleteChannel channel => [("channel", .string channel)]
  | setNodeProperties request =>
      [("node", .string request.node), ("name", .string request.name),
        ("enabled", .bool request.enabled), ("wait", .bool request.waits),
        ("multiplicity", .whole request.multiplicity.toNat),
        ("part_type", .string request.partType), ("part", request.part),
        ("x", .whole request.x.toInt), ("y", .whole request.y.toInt)]
  | setGraphProperties request =>
      [("name", .string request.name), ("package_path", .string request.packagePath),
        ("is_command", .bool request.isCommand)]
  | setPosition request =>
      [("node", .string request.node), ("x", .whole request.x.toInt),
        ("y", .whole request.y.toInt)]
  | save => []

/-- A request as a value, with its tag in front. -/
def value (request : Request) : Value :=
  .object (("op", .string request.op) :: request.members)

end Request

end Pipework
