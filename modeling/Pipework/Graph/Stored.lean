import Pipework.Error

/-!
Graph documents.

A document lists nodes with their connections, and channels without their ends; the ends are
gathered from the connections when the document is read. `Graph.read` and `Graph.text` go
between documents and graphs, by way of the records that a document holds.
-/

namespace Pipework

open Json (Decoder DecodeError Document Fields Reading Value)

/-! ## Records -/

/-- A node in a document. -/
structure StoredNode where
  partType : String
  part : Value
  enabled : Bool
  waits : Bool
  multiplicity : UInt32
  x : Int64
  y : Int64
  /-- The channel of each pin, or the word for an unbound pin. -/
  connections : List (String × String)
  deriving Repr, Inhabited

/-- A channel in a document. -/
structure StoredChannel where
  type : String
  capacity : UInt32
  anonymous : Bool
  deriving DecidableEq, Repr, Inhabited

/-- A whole document. -/
structure StoredGraph where
  name : String
  packagePath : String
  isCommand : Bool
  nodes : List (String × StoredNode)
  channels : List (String × StoredChannel)
  deriving Repr, Inhabited

/-! ## Records as JSON -/

/-- The members of a node in a document. -/
def StoredNode.fields : Fields StoredNode :=
  StoredNode.mk <$> Fields.required "part_type" Decoder.text <*>
    Fields.optional "part" Decoder.any .null <*> Fields.optional "enabled" Decoder.flag true <*>
    Fields.optional "wait" Decoder.flag true <*>
    Fields.optional "multiplicity" Decoder.unsigned32 1 <*>
    Fields.optional "x" Decoder.signed64 0 <*> Fields.optional "y" Decoder.signed64 0 <*>
    Fields.optional "connections" (Decoder.map Decoder.text) []

/-- The members of a channel in a document. -/
def StoredChannel.fields : Fields StoredChannel :=
  StoredChannel.mk <$> Fields.required "type" Decoder.text <*>
    Fields.optional "cap" Decoder.unsigned32 0 <*> Fields.optional "anonymous" Decoder.flag false

/-- The members of a document. -/
def StoredGraph.fields : Fields StoredGraph :=
  StoredGraph.mk <$> Fields.required "name" Decoder.text <*>
    Fields.optional "package_path" Decoder.text "" <*>
    Fields.optional "is_command" Decoder.flag false <*>
    Fields.optional "nodes"
      (Decoder.map (StoredNode.fields.record "NodeFile" Json.surplusInText)) [] <*>
    Fields.optional "channels"
      (Decoder.map (StoredChannel.fields.record "ChannelFile" Json.surplusInText)) []

/-- Reads the records of a document. -/
def StoredGraph.ofDocument (document : Document) : Except DecodeError StoredGraph :=
  match StoredGraph.fields.record "GraphFile" Json.surplusInText document.tree,
      document.trailing with
  | .error error, _ => .error error
  | .ok _, some error => .error (.unreadable error)
  | .ok stored, none => .ok stored

/-- A node of a document as a value. -/
def StoredNode.value (node : StoredNode) : Value :=
  .object
    [("part_type", .string node.partType), ("part", node.part), ("enabled", .bool node.enabled),
      ("wait", .bool node.waits), ("multiplicity", .whole node.multiplicity.toNat),
      ("x", .whole node.x.toInt), ("y", .whole node.y.toInt),
      ("connections",
        .object (node.connections.map fun entry => (entry.1, .string entry.2)))]

/-- A channel of a document as a value. Only an anonymous channel says what it is. -/
def StoredChannel.value (channel : StoredChannel) : Value :=
  .object <|
    [("type", .string channel.type), ("cap", .whole channel.capacity.toNat)] ++
      if channel.anonymous then [("anonymous", .bool true)] else []

/-- A document as a value. -/
def StoredGraph.value (stored : StoredGraph) : Value :=
  .object
    [("name", .string stored.name), ("package_path", .string stored.packagePath),
      ("is_command", .bool stored.isCommand),
      ("nodes", .object (stored.nodes.map fun entry => (entry.1, entry.2.value))),
      ("channels", .object (stored.channels.map fun entry => (entry.1, entry.2.value)))]

/-! ## Graphs as records -/

/-- The node of a document for a node. -/
def Node.stored (node : Node) : StoredNode :=
  { partType := node.part.kind.key, part := node.part.config, enabled := node.enabled,
    waits := node.waits, multiplicity := node.multiplicity, x := node.x, y := node.y,
    connections := node.connections.entries.map fun entry =>
      (entry.1, entry.2.getD unboundWord) }

/-- The channel of a document for a channel. -/
def Channel.stored (channel : Channel) : StoredChannel :=
  ⟨channel.type, channel.capacity, channel.anonymous⟩

/-- The document of a graph. Nodes and channels stand under their own names. -/
def Graph.stored (graph : Graph) : StoredGraph :=
  { name := graph.name, packagePath := graph.packagePath, isCommand := graph.isCommand
    nodes := (Table.ofList (graph.nodes.values.map fun node => (node.name, node.stored))).entries
    channels :=
      (Table.ofList (graph.channels.values.map fun channel =>
        (channel.name, channel.stored))).entries }

/-- The text of the document of a graph. -/
def Graph.text (graph : Graph) : String := graph.stored.value.pretty ++ "\n"

/-! ## Records as graphs -/

/-- What has been put together of a document, and what was wrong with it. -/
structure Assembly where
  nodes : Table String Node
  channels : Table String Channel
  problems : List Problem

namespace Assembly

/-- Adds problems behind those found before. -/
def report (assembly : Assembly) (problems : List Problem) : Assembly :=
  { assembly with problems := assembly.problems ++ problems }

/-- Binds a pin of the node under a name as a connection of the document says. -/
def connect (name : String) (state : Node × Assembly) (connection : String × String) :
    Node × Assembly :=
  let (node, assembly) := state
  let (pin, channel) := connection
  if channel = unboundWord then state
  else if !node.connections.contains pin then
    (node, assembly.report [.unknownPin name pin channel])
  else
    match assembly.channels.get? channel with
    | none => (node, assembly.report [.unknownChannel ⟨name, pin⟩ channel])
    | some found =>
        ({ node with connections := node.connections.insert pin (some channel) },
          { assembly with
            channels :=
              assembly.channels.insert channel { found with ends := found.ends.add ⟨name, pin⟩ } })

/-- Adds a node of a document. -/
def addNode (registry : Registry) (assembly : Assembly) (name : String) (stored : StoredNode) :
    Except Error Assembly :=
  let named := assembly.report ((nameFault name).toList.map (Problem.nodeKey name))
  let counted := named.report (if stored.multiplicity = 0 then [.noInstances name] else [])
  match registry.construct stored.partType stored.part with
  | .error error => .error (.construct error)
  | .ok part =>
      let bare : Node :=
        { name, enabled := stored.enabled, multiplicity := stored.multiplicity,
          waits := stored.waits, x := stored.x, y := stored.y, part,
          connections := Node.unbound part }
      let (node, connected) :=
        (Table.ofList stored.connections).entries.foldl (connect name) (bare, counted)
      .ok { connected with nodes := connected.nodes.insert name node }

/-- Adds nodes of a document in turn. -/
def addNodes (registry : Registry) (assembly : Assembly) :
    List (String × StoredNode) → Except Error Assembly
  | [] => .ok assembly
  | (name, stored) :: rest =>
      match assembly.addNode registry name stored with
      | .error error => .error error
      | .ok next => next.addNodes registry rest

end Assembly

/-- A channel of a document before any pin is attached. -/
def StoredChannel.channel (name : String) (stored : StoredChannel) : Channel :=
  { name, type := stored.type, capacity := stored.capacity, anonymous := stored.anonymous,
    ends := Table.empty }

/-- The graph of a document. The first part that cannot be made is an error of its own; all
other faults are gathered. -/
def Graph.ofStored (registry : Registry) (stored : StoredGraph) : Except Error Graph :=
  let channels := (Table.ofList stored.channels).mapEntries StoredChannel.channel
  let start : Assembly :=
    { nodes := Table.empty, channels
      problems := channels.keys.flatMap fun name =>
        (nameFault name).toList.map (Problem.channelKey name) }
  match start.addNodes registry (Table.ofList stored.nodes).entries with
  | .error error => .error error
  | .ok assembly =>
      let graph : Graph :=
        ⟨stored.name, stored.packagePath, stored.isCommand, assembly.nodes, assembly.channels⟩
      match assembly.problems ++ graph.problems with
      | [] => .ok graph
      | problems@(_ :: _) => .error (.inconsistent graph.name problems)

/-- The graph of the text of a document. -/
def Graph.read (registry : Registry) (bytes : ByteArray) : Except Error Graph :=
  match StoredGraph.ofDocument (Document.ofBytes bytes) with
  | .error error => .error (.document error)
  | .ok stored => Graph.ofStored registry stored

end Pipework
