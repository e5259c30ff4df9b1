import Pipework.Proofs.Graph.Assembly
import Pipework.Proofs.Graph.Run

/-!
# Documents and graphs

The text of a graph is read as the records that were written, whatever names and texts stand in
them (`Graph.read_text`), and these are put together to the graph again: channels get their
ends back from the connections of the nodes. What is read without a fault is a graph that may be
written, so reading and writing are inverse to each other.
-/

namespace Pipework

open Json (Decoder Document Fields Value)
open Json.Fields.Reads (required optional absent)

/-! ## Records -/

theorem StoredNode.record_value
    {node : StoredNode} (kept : node.part.Kept) :
    StoredNode.fields.record "NodeFile" Json.surplusInText node.value.reading = .ok node := by
  have connections : Decoder.map Decoder.text
      (Value.object (node.connections.map fun entry => (entry.1, Value.string entry.2))).reading =
        .ok node.connections :=
    Decoder.map_reading fun _ _ => rfl
  refine Fields.record_reading _ _ (by simp) ?_
  exact ((((((((required rfl (Decoder.text_reading node.partType)).map StoredNode.mk).seq
    (optional rfl (Decoder.any_reading kept))).seq
    (optional rfl (Decoder.flag_reading node.enabled))).seq
    (optional rfl (Decoder.flag_reading node.waits))).seq
    (optional rfl (Decoder.unsigned32_reading node.multiplicity))).seq
    (optional rfl (Decoder.signed64_reading node.x))).seq
    (optional rfl (Decoder.signed64_reading node.y))).seq
    (optional rfl connections)

theorem StoredChannel.record_value
    (channel : StoredChannel) :
    StoredChannel.fields.record "ChannelFile" Json.surplusInText channel.value.reading =
      .ok channel := by
  obtain ⟨type, capacity, anonymous⟩ := channel
  cases anonymous with
  | true =>
      refine Fields.record_reading _ _ (by simp) ?_
      exact (((required rfl (Decoder.text_reading type)).map StoredChannel.mk).seq
        (optional rfl (Decoder.unsigned32_reading capacity))).seq
        (optional rfl (Decoder.flag_reading true))
  | false =>
      refine Fields.record_reading _ _ (by simp) ?_
      exact (((required rfl (Decoder.text_reading type)).map StoredChannel.mk).seq
        (optional rfl (Decoder.unsigned32_reading capacity))).seq
        (absent rfl)

theorem StoredGraph.record_value
    {stored : StoredGraph} (kept : ∀ entry ∈ stored.nodes, entry.2.part.Kept) :
    StoredGraph.fields.record "GraphFile" Json.surplusInText stored.value.reading =
      .ok stored := by
  have nodes : Decoder.map (StoredNode.fields.record "NodeFile" Json.surplusInText)
      (Value.object (stored.nodes.map fun entry => (entry.1, entry.2.value))).reading =
        .ok stored.nodes :=
    Decoder.map_reading fun entry member => StoredNode.record_value (kept entry member)
  have channels : Decoder.map (StoredChannel.fields.record "ChannelFile" Json.surplusInText)
      (Value.object (stored.channels.map fun entry => (entry.1, entry.2.value))).reading =
        .ok stored.channels :=
    Decoder.map_reading fun entry _ => entry.2.record_value
  refine Fields.record_reading _ _ (by simp) ?_
  exact (((((required rfl (Decoder.text_reading stored.name)).map StoredGraph.mk).seq
    (optional rfl (Decoder.text_reading stored.packagePath))).seq
    (optional rfl (Decoder.flag_reading stored.isCommand))).seq
    (optional rfl nodes)).seq
    (optional rfl channels)

/-! ## Room for a document -/

theorem StoredNode.value_fits
    {node : StoredNode} {room : Nat} (partFits : node.part.Fits (room + 1)) :
    node.value.Fits (room + 2) := by
  have connections : Json.FitsMembers room
      (node.connections.map fun entry => (entry.1, Value.string entry.2)) := by
    rw [Json.fitsMembers_iff, List.forall_mem_map]
    intro entry _
    exact trivial
  exact ⟨Nat.succ_pos _, trivial, partFits, trivial, trivial,
    Json.isWhole_unsigned32 node.multiplicity, Json.isWhole_signed64 node.x,
    Json.isWhole_signed64 node.y, ⟨Nat.succ_pos _, connections⟩, trivial⟩

theorem StoredChannel.value_fits
    (channel : StoredChannel) (room : Nat) :
    channel.value.Fits (room + 1) := by
  obtain ⟨type, capacity, anonymous⟩ := channel
  cases anonymous with
  | true => exact ⟨Nat.succ_pos _, trivial, Json.isWhole_unsigned32 capacity, trivial, trivial⟩
  | false => exact ⟨Nat.succ_pos _, trivial, Json.isWhole_unsigned32 capacity, trivial⟩

theorem StoredGraph.value_fits
    {stored : StoredGraph} {room : Nat}
    (partsFit : ∀ entry ∈ stored.nodes, entry.2.part.Fits (room + 1)) :
    stored.value.Fits (room + 4) := by
  have nodes : Json.FitsMembers (room + 2)
      (stored.nodes.map fun entry => (entry.1, entry.2.value)) := by
    rw [Json.fitsMembers_iff, List.forall_mem_map]
    exact fun entry member => StoredNode.value_fits (partsFit entry member)
  have channels : Json.FitsMembers (room + 2)
      (stored.channels.map fun entry => (entry.1, entry.2.value)) := by
    rw [Json.fitsMembers_iff, List.forall_mem_map]
    exact fun entry _ => entry.2.value_fits (room + 1)
  exact ⟨Nat.succ_pos _, trivial, trivial, trivial, ⟨Nat.succ_pos _, nodes⟩,
    ⟨Nat.succ_pos _, channels⟩, trivial⟩

/-- Every node of the document of a graph comes from a node of the graph. -/
theorem Graph.mem_stored_nodes
    {graph : Graph} {entry : String × StoredNode} (member : entry ∈ graph.stored.nodes) :
    ∃ node : Node, entry.2 = node.stored := by
  have found : Table.get? _ entry.1 = some entry.2 := Table.mem_entries_iff.mp member
  rw [Table.get?_ofList] at found
  have inList := List.mem_reverse.mp (Table.mem_of_lookup found)
  obtain ⟨node, _, same⟩ := List.mem_map.mp inList
  exact ⟨node, congrArg Prod.snd same.symm⟩

/-- What is written of a document is read as this document. -/
theorem StoredGraph.ofDocument_pretty
    {stored : StoredGraph} (kept : ∀ entry ∈ stored.nodes, entry.2.part.Kept)
    (partsFit : ∀ entry ∈ stored.nodes, entry.2.part.Fits (121 + 3)) :
    StoredGraph.ofDocument (Document.ofBytes (stored.value.pretty ++ "\n").toUTF8) =
      .ok stored := by
  have fits : stored.value.Fits Json.maxDepth := StoredGraph.value_fits partsFit
  rw [Json.ofBytes_pretty fits, StoredGraph.ofDocument]
  simp only [StoredGraph.record_value kept]

/-- The text of a graph is read as the document that was written. -/
theorem Graph.read_text
    (registry : Registry) (graph : Graph) :
    Graph.read registry graph.text.toUTF8 = Graph.ofStored registry graph.stored := by
  have kept : ∀ entry ∈ graph.stored.nodes, entry.2.part.Kept := by
    intro entry member
    obtain ⟨node, same⟩ := mem_stored_nodes member
    rw [same]
    exact node.part.config_kept
  have partsFit : ∀ entry ∈ graph.stored.nodes, entry.2.part.Fits (121 + 3) := by
    intro entry member
    obtain ⟨node, same⟩ := mem_stored_nodes member
    rw [same]
    exact node.part.config_fits 121
  rw [Graph.read, Graph.text, StoredGraph.ofDocument_pretty kept partsFit]

/-! ## Putting the document of a graph together -/

namespace Graph

variable {registry : Registry} {graph : Graph}

/-- The nodes in the document of a graph stand under their names. -/
theorem stored_nodes
    (mirrored : graph.Mirrored) :
    Table.ofList graph.stored.nodes = graph.nodes.mapEntries fun _ node => node.stored := by
  have sameEntries : graph.nodes.values.map (fun node => (node.name, node.stored)) =
      (graph.nodes.mapEntries fun _ node => node.stored).entries := by
    rw [Table.values, List.map_map]
    refine List.map_congr_left ?_
    intro entry member
    obtain ⟨name, node⟩ := entry
    have named := mirrored.nodeNamed (Table.mem_entries_iff.mp member)
    exact congrArg (fun key => (key, node.stored)) named
  rw [stored, Table.ofList_entries, sameEntries, Table.ofList_entries]

/-- The document of a graph declares its channels, without their ends. -/
theorem get?_stored_channels
    (mirrored : graph.Mirrored) (name : String) :
    ((Table.ofList graph.stored.channels).mapEntries StoredChannel.channel).get? name =
      graph.bareChannel? name := by
  have sameEntries : graph.channels.values.map (fun channel => (channel.name, channel.stored)) =
      (graph.channels.mapEntries fun _ channel => channel.stored).entries := by
    rw [Table.values, List.map_map]
    refine List.map_congr_left ?_
    intro entry member
    obtain ⟨name, channel⟩ := entry
    have named := mirrored.channelNamed (Table.mem_entries_iff.mp member)
    exact congrArg (fun key => (key, channel.stored)) named
  rw [stored, Table.ofList_entries, sameEntries, Table.ofList_entries, Table.get?_mapEntries,
    Table.get?_mapEntries, Option.map_map, bareChannel?]
  show (graph.channel? name).map _ = (graph.channel? name).map Channel.bare
  cases present : graph.channel? name with
  | none => rfl
  | some channel =>
      rw [Option.map_some, Option.map_some, ← mirrored.channelNamed present]
      rfl

/-- The document of a node names for each connection its channel, or the word for none. -/
theorem get?_stored_connections
    (node : Node) (pin : String) :
    (Table.ofList node.stored.connections).get? pin =
      (node.connections.get? pin).map fun connection => connection.getD unboundWord := by
  have mapped : node.stored.connections =
      (node.connections.mapEntries fun _ found => found.getD unboundWord).entries := rfl
  rw [mapped, Table.ofList_entries, Table.get?_mapEntries]

/-- The document of a graph binds each pin as the graph does. An unbound pin travels as a word
that no channel has as its name. -/
theorem stored_binding?
    (mirrored : graph.Mirrored) (legal : Legal registry graph) {name : String} {node : Node}
    (present : graph.node? name = some node) {declared : String → Bool}
    (declares : ∀ channel, declared channel = (graph.bareChannel? channel).isSome)
    {pin : String} (known : pin ∈ node.part.pins.map Pin.name) :
    node.stored.binding? declared node.part pin = node.binding? pin := by
  have connected := (mirrored.connected present pin).mpr known
  obtain ⟨connection, atPin⟩ := Table.contains_iff.mp connected
  rw [StoredNode.binding?, get?_stored_connections, Node.binding?, atPin, Option.map_some]
  cases connection with
  | none =>
      -- The word for no channel is filtered out, whatever is declared.
      simp [connects, Option.filter]
  | some channel =>
      have bound : graph.binding? ⟨name, pin⟩ = some channel := by
        rw [Graph.binding?, present, Option.bind_some, Node.binding?, atPin]
        rfl
      obtain ⟨found, channelPresent, _⟩ := lists_iff.mp ((mirrored.bound_iff _ _).mp bound)
      have isDeclared : declared channel = true := by
        rw [declares, bareChannel?_eq_some channelPresent, Option.isSome_some]
      have named : channel ≠ unboundWord := by
        have noFault := legal.channel_named channelPresent
        intro reserved
        rw [reserved] at noFault
        exact absurd noFault (by decide)
      have binds : connects (fun other => decide (other ∈ node.part.pins.map Pin.name)) declared
          (pin, channel) = true := by
        simp only [connects, named, isDeclared, known, ne_eq, not_false_eq_true, decide_true,
          Bool.and_self]
      exact Option.filter_eq_some_iff.mpr ⟨rfl, binds⟩

/-- The node that the document of a graph describes is the node of the graph. -/
theorem stored_node
    (mirrored : graph.Mirrored) (legal : Legal registry graph) {name : String} {node : Node}
    (present : graph.node? name = some node) {declared : String → Bool}
    (declares : ∀ channel, declared channel = (graph.bareChannel? channel).isSome) :
    node.stored.node declared name node.part = node := by
  refine Node.eq_of_bare ?_ (Table.ext_get? ?_)
  · rw [← mirrored.nodeNamed present]
    rfl
  · intro pin
    rw [StoredNode.get?_node]
    split
    · rename_i known
      rw [stored_binding? mirrored legal present declares known, Node.binding?]
      have connected := (mirrored.connected present pin).mpr known
      obtain ⟨connection, atPin⟩ := Table.contains_iff.mp connected
      rw [atPin]
      rfl
    · rename_i unknown
      exact (mirrored.get?_connections_of_unknown present unknown).symm

/-- An end of a channel is a pin that the document binds to it. -/
theorem stored_lists_iff
    (mirrored : graph.Mirrored) (legal : Legal registry graph) {declared : String → Bool}
    (declares : ∀ channel, declared channel = (graph.bareChannel? channel).isSome)
    (channel : String) (endpoint : Endpoint) :
    (∃ node, graph.node? endpoint.node = some node ∧
      node.stored.binding? declared node.part endpoint.pin = some channel) ↔
        graph.lists channel endpoint = true := by
  rw [← mirrored.bound_iff, binding?, Option.bind_eq_some_iff]
  refine exists_congr fun node => and_congr_right fun present => ?_
  by_cases known : endpoint.pin ∈ node.part.pins.map Pin.name
  · rw [stored_binding? mirrored legal present declares known]
  · have unbound : node.binding? endpoint.pin = none := by
      rw [Node.binding?, mirrored.get?_connections_of_unknown present known]
      rfl
    rw [unbound]
    refine ⟨fun binds => ?_, fun bound => absurd bound (by simp)⟩
    have isKnown := (Option.filter_eq_some_iff.mp binds).2
    simp only [connects, Bool.and_eq_true, decide_eq_true_eq] at isKnown
    exact absurd isKnown.1.2 known

theorem mem_stored_entries_iff
    (mirrored : graph.Mirrored) {name : String} {stored : StoredNode} :
    (name, stored) ∈ (Table.ofList graph.stored.nodes).entries ↔
      ∃ node, graph.node? name = some node ∧ stored = node.stored := by
  rw [stored_nodes mirrored, Table.mem_entries_iff, Table.get?_mapEntries,
    Option.map_eq_some_iff]
  exact exists_congr fun node => and_congr_right fun _ => eq_comm

/-- Nothing is wrong with a node in the document of a graph. -/
theorem stored_problems
    (mirrored : graph.Mirrored) (legal : Legal registry graph) {name : String} {node : Node}
    (present : graph.node? name = some node) {declared : String → Bool}
    (declares : ∀ channel, declared channel = (graph.bareChannel? channel).isSome) :
    node.stored.problems declared name node.part = [] := by
  have fits := legal.node (bareNode?_eq_some present)
  refine StoredNode.problems_eq_nil_iff.mpr ⟨fits.named, fits.instances, ?_⟩
  intro pin word atWord
  rw [get?_stored_connections, Option.map_eq_some_iff] at atWord
  obtain ⟨connection, atPin, rfl⟩ := atWord
  cases connection with
  | none => exact Or.inl rfl
  | some channel =>
      have known : pin ∈ node.part.pins.map Pin.name :=
        (mirrored.connected present pin).mp (Table.contains_iff.mpr ⟨_, atPin⟩)
      have binds := stored_binding? mirrored legal present declares known
      rw [Node.binding?, atPin] at binds
      exact Or.inr (Option.filter_eq_some_iff.mp binds).2

end Graph

/-- The assembly with which a document starts: its channels without ends, and what is wrong with
their names. -/
def StoredGraph.start (stored : StoredGraph) : Assembly :=
  let channels := (Table.ofList stored.channels).mapEntries StoredChannel.channel
  { nodes := Table.empty, channels
    problems := channels.keys.flatMap fun name =>
      (nameFault name).toList.map (Problem.channelKey name) }

/-- The graph of a document whose nodes have been put together. -/
def StoredGraph.graph (stored : StoredGraph) (assembly : Assembly) : Graph :=
  ⟨stored.name, stored.packagePath, stored.isCommand, assembly.nodes, assembly.channels⟩

namespace Graph

variable {registry : Registry} {graph : Graph}

theorem ofStored_of_addNodes
    {stored : StoredGraph} {assembly : Assembly}
    (granted : stored.start.addNodes registry (Table.ofList stored.nodes).entries =
      .ok assembly) :
    Graph.ofStored registry stored =
      match assembly.problems ++ (stored.graph assembly).problems with
      | [] => .ok (stored.graph assembly)
      | problems@(_ :: _) => .error (.inconsistent stored.name problems) := by
  simp only [StoredGraph.start] at granted
  simp only [Graph.ofStored, granted]
  rfl

section Stored

variable {assembly : Assembly}

theorem stored_made
    (legal : Legal registry graph) {name : String} {node : Node}
    (present : graph.node? name = some node) :
    registry.construct node.stored.partType node.stored.part = .ok node.part := by
  obtain ⟨key, config, made⟩ := (legal.node (bareNode?_eq_some present)).made
  exact Registry.construct_config made (Registry.knows_of_construct made)

theorem contains_start
    (mirrored : graph.Mirrored) (channel : String) :
    graph.stored.start.channels.contains channel = (graph.bareChannel? channel).isSome :=
  congrArg Option.isSome (get?_stored_channels mirrored channel)

theorem exists_stored_assembly
    (mirrored : graph.Mirrored) (legal : Legal registry graph) :
    ∃ assembly, graph.stored.start.addNodes registry
      (Table.ofList graph.stored.nodes).entries = .ok assembly := by
  refine Assembly.exists_addNodes ?_ graph.stored.start
  intro entry member
  obtain ⟨name, stored⟩ := entry
  obtain ⟨node, present, rfl⟩ := (mem_stored_entries_iff mirrored).mp member
  exact ⟨node.part, stored_made legal present⟩

variable
  (assembled : Assembly.Assembled registry (Table.ofList graph.stored.nodes).entries
    graph.stored.start assembly)

include assembled

theorem nodes_of_stored
    (mirrored : graph.Mirrored) (legal : Legal registry graph) :
    assembly.nodes = graph.nodes := by
  apply Table.ext_get?
  intro name
  cases present : graph.node? name with
  | none =>
      have absent : name ∉ (Table.ofList graph.stored.nodes).entries.map Prod.fst := by
        intro member
        obtain ⟨⟨_, stored⟩, inEntries, rfl⟩ := List.mem_map.mp member
        obtain ⟨node, nodePresent, _⟩ := (mem_stored_entries_iff mirrored).mp inEntries
        rw [present] at nodePresent
        simp at nodePresent
      rw [assembled.other absent]
      exact present.symm
  | some node =>
      obtain ⟨part, made, found⟩ :=
        assembled.node ((mem_stored_entries_iff mirrored).mpr ⟨node, present, rfl⟩)
      rw [stored_made legal present] at made
      injection made with samePart
      rw [found, ← samePart, stored_node mirrored legal present (contains_start mirrored)]
      exact present.symm

theorem channels_of_stored
    (mirrored : graph.Mirrored) (legal : Legal registry graph) :
    assembly.channels = graph.channels := by
  apply Table.ext_get?
  intro name
  have sameChannel : assembly.graph.bareChannel? name = graph.bareChannel? name := by
    rw [assembled.bareChannel]
    show Option.map _ (Table.get? (Table.mapEntries _ _) name) = _
    rw [get?_stored_channels mirrored, bareChannel?]
    cases graph.channel? name <;> rfl
  have startLists (endpoint : Endpoint) :
      graph.stored.start.graph.lists name endpoint = false := by
    show Option.any _ (Table.get? (Table.mapEntries _ _) name) = false
    rw [get?_stored_channels mirrored, bareChannel?]
    cases graph.channel? name <;> rfl
  have sameEnds (endpoint : Endpoint) :
      assembly.graph.lists name endpoint = graph.lists name endpoint := by
    rw [Bool.eq_iff_iff, assembled.lists_iff, startLists,
      ← stored_lists_iff mirrored legal (contains_start mirrored)]
    constructor
    · intro either
      rcases either with listed | ⟨stored, part, member, made, binds⟩
      · exact absurd listed Bool.false_ne_true
      · obtain ⟨node, present, rfl⟩ := (mem_stored_entries_iff mirrored).mp member
        rw [stored_made legal present] at made
        injection made with samePart
        exact ⟨node, present, samePart ▸ binds⟩
    · intro bound
      obtain ⟨node, present, binds⟩ := bound
      exact Or.inr ⟨node.stored, node.part,
        (mem_stored_entries_iff mirrored).mpr ⟨node, present, rfl⟩, stored_made legal present,
        binds⟩
  exact channel?_congr sameChannel sameEnds

theorem problems_of_stored
    (mirrored : graph.Mirrored) (legal : Legal registry graph) :
    assembly.problems = [] := by
  rw [assembled.problems, List.append_eq_nil_iff]
  constructor
  · refine List.flatMap_eq_nil_iff.mpr ?_
    intro name member
    have isPresent : (graph.bareChannel? name).isSome = true := by
      rw [← contains_start mirrored]
      exact Table.mem_keys_iff.mp member
    rw [legal.channelNamed isPresent]
    rfl
  · refine List.flatMap_eq_nil_iff.mpr ?_
    intro entry member
    obtain ⟨name, stored⟩ := entry
    obtain ⟨node, present, rfl⟩ := (mem_stored_entries_iff mirrored).mp member
    rw [Assembly.entryProblems, stored_made legal present]
    exact stored_problems mirrored legal present (contains_start mirrored)

end Stored

/-- The document of a graph whose two sides agree is put together to that graph, and refused
only for what the check finds in the graph itself. -/
theorem ofStored_stored
    (mirrored : graph.Mirrored) (legal : Legal registry graph) :
    Graph.ofStored registry graph.stored =
      match graph.problems with
      | [] => .ok graph
      | problems@(_ :: _) => .error (.inconsistent graph.name problems) := by
  obtain ⟨assembly, granted⟩ := exists_stored_assembly mirrored legal
  have assembled := Assembly.assembled_of_addNodes (Table.keys_nodup _) granted
  have sameGraph : graph.stored.graph assembly = graph := by
    rw [StoredGraph.graph, nodes_of_stored assembled mirrored legal,
      channels_of_stored assembled mirrored legal]
    rfl
  rw [ofStored_of_addNodes granted, problems_of_stored assembled mirrored legal, sameGraph,
    List.nil_append]
  rfl

/-! ## What has been read -/

/-- When nothing is wrong with its entries, a document gives names, multiplicities and parts as
they may be. -/
theorem legal_of_assembled
    {stored : StoredGraph} {assembly : Assembly}
    (assembled : Assembly.Assembled registry (Table.ofList stored.nodes).entries stored.start
      assembly)
    (startRight : stored.start.problems = [])
    (entriesRight : (Table.ofList stored.nodes).entries.flatMap
      (Assembly.entryProblems registry stored.start.channels.contains) = []) :
    Legal registry (stored.graph assembly) := by
  constructor
  · intro name node present
    obtain ⟨found, foundPresent, rfl⟩ := Option.map_eq_some_iff.mp present
    have inAssembly : assembly.nodes.get? name = some found := foundPresent
    by_cases listed : name ∈ (Table.ofList stored.nodes).entries.map Prod.fst
    · obtain ⟨⟨_, storedNode⟩, member, rfl⟩ := List.mem_map.mp listed
      obtain ⟨part, made, described⟩ := assembled.node member
      rw [inAssembly] at described
      have right := List.flatMap_eq_nil_iff.mp entriesRight _ member
      rw [Assembly.entryProblems, made] at right
      obtain ⟨named, instances, _⟩ := StoredNode.problems_eq_nil_iff.mp right
      rw [Option.some.inj described]
      exact ⟨named, instances, storedNode.partType, storedNode.part, made⟩
    · rw [assembled.other listed] at inAssembly
      exact absurd inAssembly (by simp [StoredGraph.start])
  · intro name present
    have declared : (stored.start.graph.bareChannel? name).isSome = true := by
      rw [← assembled.bareChannel]
      exact present
    rw [bareChannel?_isSome] at declared
    have member : name ∈ stored.start.channels.keys := Table.mem_keys_iff.mpr declared
    have right := List.flatMap_eq_nil_iff.mp startRight name member
    exact (nameProblems_eq_nil_iff _).mp right

/-- What is put together without a fault has no problem, and names, multiplicities and parts as
they may be. -/
theorem legal_of_ofStored
    {stored : StoredGraph} (read : Graph.ofStored registry stored = .ok graph) :
    graph.problems = [] ∧ Legal registry graph := by
  cases granted : stored.start.addNodes registry (Table.ofList stored.nodes).entries with
  | error error =>
      simp only [StoredGraph.start] at granted
      simp only [Graph.ofStored, granted] at read
      simp at read
  | ok assembly =>
      have assembled := Assembly.assembled_of_addNodes (Table.keys_nodup _) granted
      rw [ofStored_of_addNodes granted] at read
      split at read
      · rename_i noProblems
        injection read with same
        subst same
        obtain ⟨assemblyRight, graphRight⟩ := List.append_eq_nil_iff.mp noProblems
        rw [assembled.problems, List.append_eq_nil_iff] at assemblyRight
        exact ⟨graphRight, legal_of_assembled assembled assemblyRight.1 assemblyRight.2⟩
      · simp at read

theorem legal_of_read
    {bytes : ByteArray} (read : Graph.read registry bytes = .ok graph) :
    graph.problems = [] ∧ Legal registry graph := by
  rw [Graph.read] at read
  split at read
  · simp at read
  · exact legal_of_ofStored read

/-- What the text of a graph is read as hangs only on what the check finds. -/
theorem read_text_eq
    (mirrored : graph.Mirrored) (legal : Legal registry graph) :
    Graph.read registry graph.text.toUTF8 =
      match graph.problems with
      | [] => .ok graph
      | problems@(_ :: _) => .error (.inconsistent graph.name problems) := by
  rw [read_text, ofStored_stored mirrored legal]

theorem read_text_of_consistent
    (consistent : graph.Consistent) (legal : Legal registry graph) :
    Graph.read registry graph.text.toUTF8 = .ok graph := by
  rw [read_text_eq consistent.toMirrored legal, problems_eq_nil_iff.mpr consistent]

/-- A graph without problems whose names may stand, whose nodes have an instance and whose parts
were made by some registry is read back from its text by every registry that knows its parts.
So is every graph that was read, and its text is the same again. -/
theorem read_text_inverse
    (registry : Registry) :
    (∀ graph : Graph, graph.problems = [] →
      (∀ {key : String} {node : Node}, graph.node? key = some node →
        Text.isBlank node.name = false ∧ node.name ≠ "nil" ∧ 1 ≤ node.multiplicity ∧
          (∃ maker name config, Registry.construct maker name config = .ok node.part) ∧
          registry.knows node.part.kind = true) →
      (∀ {key : String} {channel : Channel}, graph.channel? key = some channel →
        Text.isBlank channel.name = false ∧ channel.name ≠ "nil") →
      Graph.read registry graph.text.toUTF8 = .ok graph) ∧
    ∀ (bytes : ByteArray) (graph : Graph), Graph.read registry bytes = .ok graph →
      Graph.read registry graph.text.toUTF8 = .ok graph ∧
        ∀ again, Graph.read registry graph.text.toUTF8 = .ok again →
          again.text = graph.text := by
  constructor
  · intro graph unproblematic nodesFit channelsFit
    have consistent := problems_eq_nil_iff.mp unproblematic
    refine read_text_of_consistent consistent ⟨?_, ?_⟩
    · intro name node present
      obtain ⟨found, foundPresent, rfl⟩ := Option.map_eq_some_iff.mp present
      obtain ⟨notBlank, notReserved, instances, ⟨maker, key, config, made⟩, known⟩ :=
        nodesFit foundPresent
      rw [consistent.nodeNamed foundPresent] at notBlank notReserved
      refine ⟨nameFault_eq_none_iff.mpr ⟨notBlank, notReserved⟩, ?_, found.part.kind.key,
        found.part.config, Registry.construct_config made known⟩
      intro isZero
      have zero : found.multiplicity = 0 := isZero
      rw [zero] at instances
      exact absurd instances (by decide)
    · intro name present
      rw [bareChannel?_isSome] at present
      obtain ⟨found, foundPresent⟩ := Option.isSome_iff_exists.mp present
      obtain ⟨notBlank, notReserved⟩ := channelsFit foundPresent
      rw [consistent.channelNamed foundPresent] at notBlank notReserved
      exact nameFault_eq_none_iff.mpr ⟨notBlank, notReserved⟩
  · intro bytes graph read
    obtain ⟨unproblematic, legal⟩ := legal_of_read read
    have again := read_text_of_consistent (problems_eq_nil_iff.mp unproblematic) legal
    refine ⟨again, ?_⟩
    intro other otherRead
    rw [again] at otherRead
    rw [← Except.ok.inj otherRead]

/-- A broadcast under a name that has to be escaped, and a sink for its first output. -/
def twoNodes : Graph :=
  (empty "pages" "example.org/pages" false).run Registry.builtin
    [.createNode ⟨"tee \"\n", "Broadcast", .object [("type", .string "int")], true, true, 1, 0, 0⟩,
      .createNode ⟨"drain", "Sink", .object [("type", .string "int")], true, false, 3, -7, 9⟩,
      .createChannel ⟨"wire", "int", 2, true, ⟨"tee \"\n", "output1"⟩, ⟨"drain", "input"⟩⟩]

theorem read_text_inverse_twoNodes :
    twoNodes.lists "wire" ⟨"drain", "input"⟩ = true ∧
      Graph.read Registry.builtin twoNodes.text.toUTF8 = .ok twoNodes := by
  have built : Built Registry.builtin twoNodes :=
    run_induction (Built.empty Registry.builtin "pages" "example.org/pages" false)
      (fun current granted => current.of_apply granted) _
  refine ⟨by decide, ?_⟩
  refine (read_text_inverse Registry.builtin).1 twoNodes
    (problems_eq_nil_iff.mpr built.consistent) ?_ built.channel_named
  intro key node present
  obtain ⟨notBlank, notReserved, instances⟩ := built.node_named present
  obtain ⟨name, config, made⟩ := (built.legal.node (bareNode?_eq_some present)).made
  exact ⟨notBlank, notReserved, instances, ⟨_, name, config, made⟩,
    Registry.knows_of_construct made⟩

end Graph

end Pipework
