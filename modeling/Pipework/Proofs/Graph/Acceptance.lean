import Pipework.Proofs.Graph.Document
import Pipework.Proofs.Part.Pins

/-!
# Which documents are accepted

A document is well formed when each of its entries fits by itself (`StoredGraph.EntriesFit`) and
the pins that it binds to one channel go together (`StoredGraph.WellFormed`). What it describes is
said of its entries alone (`StoredGraph.Describes`), and a well-formed document describes one graph
at most. A document whose parts can be made is read as the graph that it describes when it is well
formed, and refused as inconsistent otherwise (`StoredGraph.read_iff_wellFormed`): what falls out
while the graph is put together was reported, and what was reported is wrong with the document.
-/

namespace Pipework

open Json (Document)

namespace StoredGraph

/-! ## What a document says -/

/-- The node entry under a name; of several with one name the last counts. -/
def node? (stored : StoredGraph) (name : String) : Option StoredNode :=
  (Table.ofList stored.nodes).get? name

/-- The channel entry under a name; of several with one name the last counts. -/
def channel? (stored : StoredGraph) (name : String) : Option StoredChannel :=
  (Table.ofList stored.channels).get? name

/-- A connection of the document names the channel for the pin at an endpoint. -/
def Binds (stored : StoredGraph) (endpoint : Endpoint) (channel : String) : Prop :=
  ∃ entry, stored.node? endpoint.node = some entry ∧
    (Table.ofList entry.connections).get? endpoint.pin = some channel ∧ channel ≠ "nil"

/-- The part of a node entry has the pin under the name of an endpoint. -/
def HasPin (registry : Registry) (stored : StoredGraph) (endpoint : Endpoint) (pin : Pin) :
    Prop :=
  ∃ entry part, stored.node? endpoint.node = some entry ∧
    registry.construct entry.partType entry.part = .ok part ∧
    pin ∈ part.pins ∧ pin.name = endpoint.pin

/-- Every entry fits by itself: names may stand, nodes have an instance, and what is connected is
there. -/
structure EntriesFit (registry : Registry) (stored : StoredGraph) : Prop where
  nodesNamed : ∀ name entry, stored.node? name = some entry →
    Text.isBlank name = false ∧ name ≠ "nil"
  channelsNamed : ∀ name entry, stored.channel? name = some entry →
    Text.isBlank name = false ∧ name ≠ "nil"
  instances : ∀ name entry, stored.node? name = some entry → 1 ≤ entry.multiplicity
  pinsKnown : ∀ endpoint channel, stored.Binds endpoint channel →
    ∃ pin, HasPin registry stored endpoint pin
  channelsDeclared : ∀ endpoint channel, stored.Binds endpoint channel →
    ∃ entry, stored.channel? channel = some entry

/-- The entries fit, and the pins that are bound to one channel are pins of different nodes and of
the channel's type, inputs and outputs among them. -/
structure WellFormed (registry : Registry) (stored : StoredGraph) : Prop
    extends EntriesFit registry stored where
  nodesApart : ∀ channel first second, stored.Binds first channel → stored.Binds second channel →
    first.node = second.node → first = second
  typed : ∀ endpoint channel entry pin, stored.Binds endpoint channel →
    stored.channel? channel = some entry → HasPin registry stored endpoint pin →
      pin.type = entry.type
  bothWays : ∀ endpoint channel, stored.Binds endpoint channel →
    ∀ direction, ∃ other pin, stored.Binds other channel ∧
      HasPin registry stored other pin ∧ pin.direction = direction

/-- A graph is what a document says: its nodes and channels are the entries, a pin is bound as a
connection names it and otherwise to nothing, and the ends of a channel are the pins that name
it. -/
structure Describes (registry : Registry) (stored : StoredGraph) (graph : Graph) : Prop where
  properties : graph.name = stored.name ∧ graph.packagePath = stored.packagePath ∧
    graph.isCommand = stored.isCommand
  nodes : ∀ name, (graph.node? name).isSome = (stored.node? name).isSome
  node : ∀ name entry node, stored.node? name = some entry → graph.node? name = some node →
    node.name = name ∧ node.enabled = entry.enabled ∧ node.waits = entry.waits ∧
      node.multiplicity = entry.multiplicity ∧ node.x = entry.x ∧ node.y = entry.y ∧
      registry.construct entry.partType entry.part = .ok node.part
  connected : ∀ name node, graph.node? name = some node →
    ∀ pin, node.connections.contains pin = true ↔ pin ∈ node.part.pins.map Pin.name
  bound_iff : ∀ endpoint channel,
    graph.binding? endpoint = some channel ↔ stored.Binds endpoint channel
  channels : ∀ name, (graph.channel? name).isSome = (stored.channel? name).isSome
  channel : ∀ name entry channel, stored.channel? name = some entry →
    graph.channel? name = some channel →
      channel.name = name ∧ channel.type = entry.type ∧ channel.capacity = entry.capacity ∧
        channel.anonymous = entry.anonymous
  ends_iff : ∀ name channel, graph.channel? name = some channel →
    ∀ endpoint, endpoint ∈ channel.ends.toList ↔ stored.Binds endpoint name

variable {registry : Registry} {stored : StoredGraph} {graph : Graph}

theorem Binds.exists_entry
    {endpoint : Endpoint} {channel : String} (binds : stored.Binds endpoint channel) :
    ∃ entry, stored.node? endpoint.node = some entry := by
  obtain ⟨entry, isEntry, _⟩ := binds
  exact ⟨entry, isEntry⟩

/-! ## The graph that is described -/

namespace Describes

theorem entry_of_node
    (describes : stored.Describes registry graph) {name : String} {node : Node}
    (present : graph.node? name = some node) :
    ∃ entry, stored.node? name = some entry := by
  have declared := describes.nodes name
  rw [present, Option.isSome_some] at declared
  exact Option.isSome_iff_exists.mp declared.symm

theorem entry_of_channel
    (describes : stored.Describes registry graph) {name : String} {channel : Channel}
    (present : graph.channel? name = some channel) :
    ∃ entry, stored.channel? name = some entry := by
  have declared := describes.channels name
  rw [present, Option.isSome_some] at declared
  exact Option.isSome_iff_exists.mp declared.symm

/-- The pins of a described graph are those of the parts that the entries describe. -/
theorem hasPin_iff
    (describes : stored.Describes registry graph) {endpoint : Endpoint} {pin : Pin} :
    HasPin registry stored endpoint pin ↔ graph.pin? endpoint = some pin := by
  rw [Graph.pin?, Option.bind_eq_some_iff]
  constructor
  · intro has
    obtain ⟨entry, part, isEntry, made, member, named⟩ := has
    have isNode : (graph.node? endpoint.node).isSome = true := by
      rw [describes.nodes, isEntry, Option.isSome_some]
    obtain ⟨node, present⟩ := Option.isSome_iff_exists.mp isNode
    obtain ⟨_, _, _, _, _, _, nodeMade⟩ := describes.node _ _ _ isEntry present
    rw [made] at nodeMade
    have samePart : part = node.part := Except.ok.inj nodeMade
    rw [samePart] at made member
    exact ⟨node, present,
      (findPin_eq_some_iff (Registry.pins_nodup_of_construct made)).mpr ⟨member, named⟩⟩
  · intro found
    obtain ⟨node, present, isPin⟩ := found
    obtain ⟨entry, isEntry⟩ := describes.entry_of_node present
    obtain ⟨_, _, _, _, _, _, made⟩ := describes.node _ _ _ isEntry present
    obtain ⟨member, named⟩ :=
      (findPin_eq_some_iff (Registry.pins_nodup_of_construct made)).mp isPin
    exact ⟨entry, node.part, isEntry, made, member, named⟩

theorem binds_of_lists
    (describes : stored.Describes registry graph) {channel : String} {endpoint : Endpoint}
    (listed : graph.lists channel endpoint = true) :
    stored.Binds endpoint channel := by
  obtain ⟨found, present, contained⟩ := Graph.lists_iff.mp listed
  exact (describes.ends_iff channel found present endpoint).mp (KeySet.mem_toList_iff.mpr contained)

theorem lists_iff
    (describes : stored.Describes registry graph) (fit : stored.EntriesFit registry)
    (channel : String) (endpoint : Endpoint) :
    graph.lists channel endpoint = true ↔ stored.Binds endpoint channel := by
  refine ⟨describes.binds_of_lists, fun binds => ?_⟩
  obtain ⟨entry, isEntry⟩ := fit.channelsDeclared endpoint channel binds
  have isChannel : (graph.channel? channel).isSome = true := by
    rw [describes.channels, isEntry, Option.isSome_some]
  obtain ⟨found, present⟩ := Option.isSome_iff_exists.mp isChannel
  have member := (describes.ends_iff channel found present endpoint).mpr binds
  exact Graph.lists_iff.mpr ⟨found, present, KeySet.mem_toList_iff.mp member⟩

theorem wellFormed_of_consistent
    (describes : stored.Describes registry graph) (fit : stored.EntriesFit registry)
    (consistent : graph.Consistent) :
    stored.WellFormed registry := by
  have listed := describes.lists_iff fit
  refine ⟨fit, ?_, ?_, ?_⟩
  · intro channel first second inFirst inSecond
    exact consistent.oneOnNode ((listed channel first).mpr inFirst)
      ((listed channel second).mpr inSecond)
  · intro endpoint channel entry pin binds isEntry hasPin
    have isEnd := (listed channel endpoint).mpr binds
    obtain ⟨found, present, _⟩ := Graph.lists_iff.mp isEnd
    obtain ⟨_, sameType, _⟩ := describes.channel _ _ _ isEntry present
    obtain ⟨other, isOther, otherType⟩ := consistent.sameType present isEnd
    have isPin := describes.hasPin_iff.mp hasPin
    rw [isOther] at isPin
    rw [← Option.some.inj isPin, otherType, sameType]
  · intro endpoint channel binds direction
    have isEnd := (listed channel endpoint).mpr binds
    obtain ⟨found, present, _⟩ := Graph.lists_iff.mp isEnd
    obtain ⟨other, isOther, pin, atOther, isDirection⟩ :=
      Graph.hasEnd_of_isViable present (consistent.viable isEnd) direction
    exact ⟨other, pin, (listed channel other).mp isOther, describes.hasPin_iff.mpr atOther,
      isDirection⟩

theorem mirrored_of_wellFormed
    (describes : stored.Describes registry graph) (wellFormed : stored.WellFormed registry) :
    graph.Mirrored := by
  have fit := wellFormed.toEntriesFit
  have listed := describes.lists_iff fit
  refine ⟨?_, ?_, describes.connected _ _, ?_, ?_, ?_⟩
  · intro name node present
    obtain ⟨entry, isEntry⟩ := describes.entry_of_node present
    exact (describes.node _ _ _ isEntry present).1
  · intro name channel present
    obtain ⟨entry, isEntry⟩ := describes.entry_of_channel present
    exact (describes.channel _ _ _ isEntry present).1
  · intro endpoint channel
    rw [listed, describes.bound_iff]
  · intro channel first second inFirst inSecond
    exact wellFormed.nodesApart channel first second ((listed channel first).mp inFirst)
      ((listed channel second).mp inSecond)
  · intro name channel endpoint present isEnd
    have binds := (listed name endpoint).mp isEnd
    obtain ⟨entry, isEntry⟩ := describes.entry_of_channel present
    obtain ⟨_, sameType, _⟩ := describes.channel _ _ _ isEntry present
    obtain ⟨pin, hasPin⟩ := fit.pinsKnown endpoint name binds
    refine ⟨pin, describes.hasPin_iff.mp hasPin, ?_⟩
    rw [sameType]
    exact wellFormed.typed endpoint name entry pin binds isEntry hasPin

/-- The check finds nothing in a described graph exactly when the pins on each channel go
together. -/
theorem consistent_iff
    (describes : stored.Describes registry graph) (fit : stored.EntriesFit registry) :
    graph.Consistent ↔ stored.WellFormed registry := by
  refine ⟨describes.wellFormed_of_consistent fit, fun wellFormed => ?_⟩
  refine ⟨describes.mirrored_of_wellFormed wellFormed, fun {channel endpoint} isEnd => ?_⟩
  have listed := describes.lists_iff fit
  refine Graph.isViable_iff.mpr fun _ direction => ?_
  obtain ⟨other, pin, binds, hasPin, isDirection⟩ :=
    wellFormed.bothWays endpoint channel ((listed channel endpoint).mp isEnd) direction
  exact ⟨other, (listed channel other).mpr binds, pin, describes.hasPin_iff.mp hasPin,
    isDirection⟩

/-- A well-formed document describes one graph at most. -/
theorem unique
    {other : Graph} (wellFormed : stored.WellFormed registry)
    (describes : stored.Describes registry graph)
    (describesOther : stored.Describes registry other) :
    graph = other := by
  have fit := wellFormed.toEntriesFit
  have mirrored := describes.mirrored_of_wellFormed wellFormed
  have otherMirrored := describesOther.mirrored_of_wellFormed wellFormed
  have sameProperties : graph.bare = other.bare := by
    obtain ⟨name, packagePath, isCommand⟩ := describes.properties
    obtain ⟨otherName, otherPackagePath, otherIsCommand⟩ := describesOther.properties
    exact Graph.bare_eq_iff.mpr ⟨name.trans otherName.symm, packagePath.trans otherPackagePath.symm,
      isCommand.trans otherIsCommand.symm⟩
  refine Graph.ext_views mirrored otherMirrored sameProperties ?_ ?_ ?_
  · intro name
    have isNode := describes.nodes name
    have isOther := describesOther.nodes name
    cases isEntry : stored.node? name with
    | none =>
        rw [isEntry, Option.isSome_none, Option.isSome_eq_false_iff,
          Option.isNone_iff_eq_none] at isNode isOther
        rw [Graph.bareNode?, Graph.bareNode?, isNode, isOther]
    | some entry =>
        rw [isEntry, Option.isSome_some, Option.isSome_iff_exists] at isNode isOther
        obtain ⟨node, present⟩ := isNode
        obtain ⟨otherNode, otherPresent⟩ := isOther
        have first := describes.node name entry node isEntry present
        have second := describesOther.node name entry otherNode isEntry otherPresent
        have samePart : node.part = otherNode.part :=
          Except.ok.inj (first.2.2.2.2.2.2.symm.trans second.2.2.2.2.2.2)
        rw [Graph.bareNode?_eq_some present, Graph.bareNode?_eq_some otherPresent]
        simp only [Node.bare, first, second, samePart]
  · intro name
    have isChannel := describes.channels name
    have isOther := describesOther.channels name
    cases isEntry : stored.channel? name with
    | none =>
        rw [isEntry, Option.isSome_none, Option.isSome_eq_false_iff,
          Option.isNone_iff_eq_none] at isChannel isOther
        rw [Graph.bareChannel?, Graph.bareChannel?, isChannel, isOther]
    | some entry =>
        rw [isEntry, Option.isSome_some, Option.isSome_iff_exists] at isChannel isOther
        obtain ⟨channel, present⟩ := isChannel
        obtain ⟨otherChannel, otherPresent⟩ := isOther
        have first := describes.channel name entry channel isEntry present
        have second := describesOther.channel name entry otherChannel isEntry otherPresent
        rw [Graph.bareChannel?_eq_some present, Graph.bareChannel?_eq_some otherPresent]
        simp only [Channel.bare, first, second]
  · intro channel endpoint
    rw [Bool.eq_iff_iff, describes.lists_iff fit, describesOther.lists_iff fit]

end Describes

/-! ## The graph that is put together -/

theorem connects_iff
    {known declared : String → Bool} {pin channel : String} :
    connects known declared (pin, channel) = true ↔
      channel ≠ "nil" ∧ known pin = true ∧ declared channel = true := by
  rw [connects, Bool.and_eq_true, Bool.and_eq_true, decide_eq_true_eq, and_assoc]
  rfl

theorem mem_nodes_iff
    {name : String} {entry : StoredNode} :
    (name, entry) ∈ (Table.ofList stored.nodes).entries ↔ stored.node? name = some entry :=
  Table.mem_entries_iff

theorem get?_start_channels
    (name : String) :
    stored.start.channels.get? name = (stored.channel? name).map (StoredChannel.channel name) :=
  Table.get?_mapEntries _ _ _

theorem contains_start_channels
    (name : String) :
    stored.start.channels.contains name = (stored.channel? name).isSome := by
  rw [Table.contains, get?_start_channels, Option.isSome_map]

theorem bareChannel?_start
    (name : String) :
    stored.start.graph.bareChannel? name =
      (stored.channel? name).map (StoredChannel.channel name) := by
  show (stored.start.channels.get? name).map Channel.bare = _
  rw [get?_start_channels, Option.map_map]
  rfl

theorem lists_start
    (channel : String) (endpoint : Endpoint) :
    stored.start.graph.lists channel endpoint = false := by
  show (stored.start.channels.get? channel).any _ = false
  rw [get?_start_channels]
  cases stored.channel? channel <;> rfl

/-- What is wrong at the start is wrong with the name of a channel. -/
theorem problems_start_eq_nil_iff :
    stored.start.problems = [] ↔
      ∀ name entry, stored.channel? name = some entry →
        Text.isBlank name = false ∧ name ≠ "nil" := by
  show stored.start.channels.keys.flatMap _ = [] ↔ _
  rw [List.flatMap_eq_nil_iff]
  simp only [nameProblems_eq_nil_iff, Table.mem_keys_iff, contains_start_channels,
    Option.isSome_iff_exists, Graph.nameFault_eq_none_iff]
  exact forall_congr' fun name => forall_exists_index

/-! ### Entries by themselves -/

section Entry

variable {name : String} {entry : StoredNode} {part : Part}
  (isEntry : stored.node? name = some entry)
  (isMade : registry.construct entry.partType entry.part = .ok part)

include isEntry isMade

theorem hasPin_iff_of_entry
    {pin : String} {found : Pin} :
    HasPin registry stored ⟨name, pin⟩ found ↔ found ∈ part.pins ∧ found.name = pin := by
  constructor
  · intro has
    obtain ⟨other, otherPart, isOther, otherMade, member, named⟩ := has
    have sameEntry : entry = other := Option.some.inj (isEntry.symm.trans isOther)
    rw [← sameEntry, isMade] at otherMade
    exact ⟨Except.ok.inj otherMade ▸ member, named⟩
  · intro both
    exact ⟨entry, part, isEntry, isMade, both.1, both.2⟩

theorem exists_hasPin_iff_of_entry
    {pin : String} :
    (∃ found, HasPin registry stored ⟨name, pin⟩ found) ↔ pin ∈ part.pins.map Pin.name := by
  rw [List.mem_map]
  exact exists_congr fun found => hasPin_iff_of_entry isEntry isMade

/-- Nothing is found in an entry exactly when it fits. -/
theorem entryProblems_eq_nil_iff :
    Assembly.entryProblems registry stored.start.channels.contains (name, entry) = [] ↔
      (Text.isBlank name = false ∧ name ≠ "nil") ∧ 1 ≤ entry.multiplicity ∧
        ∀ pin channel, stored.Binds ⟨name, pin⟩ channel →
          (∃ found, HasPin registry stored ⟨name, pin⟩ found) ∧
            ∃ declared, stored.channel? channel = some declared := by
  rw [Assembly.entryProblems, isMade]
  refine StoredNode.problems_eq_nil_iff.trans
    (and_congr Graph.nameFault_eq_none_iff (and_congr one_le_iff_ne_zero.symm ?_))
  refine forall_congr' fun pin => forall_congr' fun channel => ?_
  rw [connects_iff, decide_eq_true_eq, contains_start_channels, Option.isSome_iff_exists,
    exists_hasPin_iff_of_entry isEntry isMade]
  constructor
  · intro right binds
    obtain ⟨other, isOther, atPin, notUnbound⟩ := binds
    have sameEntry : other = entry := Option.some.inj (isOther.symm.trans isEntry)
    rw [sameEntry] at atPin
    exact ((right atPin).resolve_left notUnbound).2
  · intro right atPin
    by_cases unbound : channel = unboundWord
    · exact Or.inl unbound
    · exact Or.inr ⟨unbound, right ⟨entry, isEntry, atPin, unbound⟩⟩

/-- Where entries fit, a node is put together with the bindings that its connections name. -/
theorem binding?_iff_of_entry
    (fit : stored.EntriesFit registry) {pin channel : String} :
    entry.binding? stored.start.channels.contains part pin = some channel ↔
      stored.Binds ⟨name, pin⟩ channel := by
  rw [StoredNode.binding?, Option.filter_eq_some_iff, connects_iff, decide_eq_true_eq,
    contains_start_channels, Option.isSome_iff_exists]
  constructor
  · intro named
    obtain ⟨atPin, notUnbound, _⟩ := named
    exact ⟨entry, isEntry, atPin, notUnbound⟩
  · intro binds
    have known := (exists_hasPin_iff_of_entry isEntry isMade).mp (fit.pinsKnown _ _ binds)
    have declared := fit.channelsDeclared _ _ binds
    obtain ⟨other, isOther, atPin, notUnbound⟩ := binds
    have sameEntry : other = entry := Option.some.inj (isOther.symm.trans isEntry)
    rw [sameEntry] at atPin
    exact ⟨atPin, notUnbound, known, declared⟩

end Entry

/-! ### All entries -/

/-- No problem is found while a document is put together exactly when its entries fit. -/
theorem entriesFit_iff
    (made : ∀ name entry, stored.node? name = some entry →
      ∃ part, registry.construct entry.partType entry.part = .ok part) :
    (stored.start.problems = [] ∧ (Table.ofList stored.nodes).entries.flatMap
      (Assembly.entryProblems registry stored.start.channels.contains) = []) ↔
      stored.EntriesFit registry := by
  rw [problems_start_eq_nil_iff, List.flatMap_eq_nil_iff, Prod.forall]
  simp only [mem_nodes_iff]
  constructor
  · intro right
    obtain ⟨channelsNamed, entriesRight⟩ := right
    have entryRight (name : String) (entry : StoredNode)
        (isEntry : stored.node? name = some entry) :
        (Text.isBlank name = false ∧ name ≠ "nil") ∧ 1 ≤ entry.multiplicity ∧
          ∀ pin channel, stored.Binds ⟨name, pin⟩ channel →
            (∃ found, HasPin registry stored ⟨name, pin⟩ found) ∧
              ∃ declared, stored.channel? channel = some declared := by
      obtain ⟨part, isMade⟩ := made name entry isEntry
      exact (entryProblems_eq_nil_iff isEntry isMade).mp (entriesRight name entry isEntry)
    have connected (endpoint : Endpoint) (channel : String)
        (binds : stored.Binds endpoint channel) :
        (∃ found, HasPin registry stored endpoint found) ∧
          ∃ declared, stored.channel? channel = some declared := by
      obtain ⟨entry, isEntry⟩ := binds.exists_entry
      exact (entryRight _ entry isEntry).2.2 endpoint.pin channel binds
    exact ⟨fun name entry isEntry => (entryRight name entry isEntry).1, channelsNamed,
      fun name entry isEntry => (entryRight name entry isEntry).2.1,
      fun endpoint channel binds => (connected endpoint channel binds).1,
      fun endpoint channel binds => (connected endpoint channel binds).2⟩
  · intro fit
    refine ⟨fit.channelsNamed, ?_⟩
    intro name entry isEntry
    obtain ⟨part, isMade⟩ := made name entry isEntry
    exact (entryProblems_eq_nil_iff isEntry isMade).mpr
      ⟨fit.nodesNamed name entry isEntry, fit.instances name entry isEntry,
        fun pin channel binds =>
          ⟨fit.pinsKnown ⟨name, pin⟩ channel binds, fit.channelsDeclared ⟨name, pin⟩ channel binds⟩⟩

section Assembled

variable {assembly : Assembly}
  (assembled : Assembly.Assembled registry (Table.ofList stored.nodes).entries stored.start
    assembly)

include assembled

/-- The nodes of the assembly are those of the entries, with the parts that these describe. -/
theorem node?_graph_iff
    {name : String} {node : Node} :
    (stored.graph assembly).node? name = some node ↔
      ∃ entry part, stored.node? name = some entry ∧
        registry.construct entry.partType entry.part = .ok part ∧
        node = entry.node stored.start.channels.contains name part := by
  constructor
  · intro present
    have inAssembly : assembly.nodes.get? name = some node := present
    by_cases listed : name ∈ (Table.ofList stored.nodes).entries.map Prod.fst
    · obtain ⟨⟨_, entry⟩, member, rfl⟩ := List.mem_map.mp listed
      obtain ⟨part, isMade, described⟩ := assembled.node member
      rw [inAssembly] at described
      exact ⟨entry, part, mem_nodes_iff.mp member, isMade, Option.some.inj described⟩
    · rw [assembled.other listed] at inAssembly
      exact absurd inAssembly (by simp [start])
  · intro described
    obtain ⟨entry, part, isEntry, isMade, rfl⟩ := described
    obtain ⟨otherPart, otherMade, found⟩ := assembled.node (mem_nodes_iff.mpr isEntry)
    rw [isMade] at otherMade
    rw [Except.ok.inj otherMade]
    exact found

/-- A pin of the assembly is bound to the channel that its entry names. -/
theorem binding?_graph_iff
    (fit : stored.EntriesFit registry) {endpoint : Endpoint} {channel : String} :
    (stored.graph assembly).binding? endpoint = some channel ↔ stored.Binds endpoint channel := by
  rw [Graph.binding?, Option.bind_eq_some_iff]
  constructor
  · intro bound
    obtain ⟨node, present, nodeBound⟩ := bound
    obtain ⟨entry, part, isEntry, isMade, rfl⟩ := (node?_graph_iff assembled).mp present
    rw [Node.binding?, StoredNode.get?_node] at nodeBound
    split at nodeBound
    · exact (binding?_iff_of_entry isEntry isMade fit).mp nodeBound
    · exact absurd nodeBound (by simp)
  · intro binds
    obtain ⟨entry, isEntry⟩ := binds.exists_entry
    obtain ⟨part, isMade, found⟩ := assembled.node (mem_nodes_iff.mpr isEntry)
    have known := (exists_hasPin_iff_of_entry isEntry isMade).mp (fit.pinsKnown _ _ binds)
    refine ⟨_, found, ?_⟩
    rw [Node.binding?, StoredNode.get?_node, if_pos known]
    exact (binding?_iff_of_entry isEntry isMade fit).mpr binds

/-- The ends of a channel of the assembly are the pins whose entries name it. -/
theorem lists_graph_iff
    (fit : stored.EntriesFit registry) {name : String} {endpoint : Endpoint} :
    (stored.graph assembly).lists name endpoint = true ↔ stored.Binds endpoint name := by
  have isAssembled : (stored.graph assembly).lists name endpoint = true ↔ _ :=
    assembled.lists_iff name endpoint
  rw [isAssembled, lists_start]
  constructor
  · intro either
    rcases either with before | ⟨entry, part, member, isMade, named⟩
    · exact absurd before Bool.false_ne_true
    · exact (binding?_iff_of_entry (mem_nodes_iff.mp member) isMade fit).mp named
  · intro binds
    obtain ⟨entry, isEntry⟩ := binds.exists_entry
    obtain ⟨part, isMade, _⟩ := assembled.node (mem_nodes_iff.mpr isEntry)
    exact Or.inr ⟨entry, part, mem_nodes_iff.mpr isEntry, isMade,
      (binding?_iff_of_entry isEntry isMade fit).mpr binds⟩

/-- What is put together of entries that fit is the graph that they describe. -/
theorem describes_graph
    (fit : stored.EntriesFit registry) :
    stored.Describes registry (stored.graph assembly) where
  properties := ⟨rfl, rfl, rfl⟩
  nodes name := by
    rw [Bool.eq_iff_iff, Option.isSome_iff_exists, Option.isSome_iff_exists]
    constructor
    · intro present
      obtain ⟨node, present⟩ := present
      obtain ⟨entry, _, isEntry, _⟩ := (node?_graph_iff assembled).mp present
      exact ⟨entry, isEntry⟩
    · intro present
      obtain ⟨entry, isEntry⟩ := present
      obtain ⟨part, _, found⟩ := assembled.node (mem_nodes_iff.mpr isEntry)
      exact ⟨_, found⟩
  node name entry node isEntry present := by
    obtain ⟨found, part, isFound, isMade, rfl⟩ := (node?_graph_iff assembled).mp present
    have sameEntry : entry = found := Option.some.inj (isEntry.symm.trans isFound)
    rw [sameEntry]
    exact ⟨rfl, rfl, rfl, rfl, rfl, rfl, isMade⟩
  connected name node present pin := by
    obtain ⟨entry, part, _, _, rfl⟩ := (node?_graph_iff assembled).mp present
    rw [Table.contains, StoredNode.get?_node]
    show _ ↔ pin ∈ part.pins.map Pin.name
    split <;> simp [*]
  bound_iff endpoint channel := binding?_graph_iff assembled fit
  channels name := by
    have sameChannel := assembled.bareChannel name
    rw [bareChannel?_start] at sameChannel
    have samePresence := congrArg Option.isSome sameChannel
    rw [Graph.bareChannel?_isSome, Option.isSome_map] at samePresence
    exact samePresence
  channel name entry channel isEntry present := by
    have sameChannel := assembled.bareChannel name
    rw [bareChannel?_start, isEntry, Option.map_some] at sameChannel
    have isBare : (stored.graph assembly).bareChannel? name = some channel.bare :=
      Graph.bareChannel?_eq_some present
    have same : channel.bare = entry.channel name := Option.some.inj (isBare.symm.trans sameChannel)
    exact ⟨congrArg Channel.name same, congrArg Channel.type same, congrArg Channel.capacity same,
      congrArg Channel.anonymous same⟩
  ends_iff name channel present endpoint := by
    have listed : (stored.graph assembly).lists name endpoint = channel.ends.contains endpoint :=
      Graph.lists_of_channel? present endpoint
    rw [KeySet.mem_toList_iff, ← listed, lists_graph_iff assembled fit]

/-- Nothing is wrong with what is put together exactly when the document is well formed. -/
theorem problems_eq_nil_iff
    (made : ∀ name entry, stored.node? name = some entry →
      ∃ part, registry.construct entry.partType entry.part = .ok part) :
    assembly.problems ++ (stored.graph assembly).problems = [] ↔ stored.WellFormed registry := by
  rw [List.append_eq_nil_iff, assembled.problems, List.append_eq_nil_iff, entriesFit_iff made,
    Graph.problems_eq_nil_iff]
  constructor
  · intro both
    obtain ⟨fit, consistent⟩ := both
    exact ((describes_graph assembled fit).consistent_iff fit).mp consistent
  · intro wellFormed
    have fit := wellFormed.toEntriesFit
    exact ⟨fit, ((describes_graph assembled fit).consistent_iff fit).mpr wellFormed⟩

end Assembled

/-! ## The verdict on a document -/

/-- A text that is a document, each of whose nodes describes a part that the registry makes, is
read as a graph exactly when the document is well formed. The graph is then the one that the
document describes. Otherwise the text is refused as inconsistent, with something found. -/
theorem read_iff_wellFormed
    (registry : Registry) {bytes : ByteArray} {stored : StoredGraph}
    (parsed : StoredGraph.ofDocument (Document.ofBytes bytes) = .ok stored)
    (made : ∀ name entry, stored.node? name = some entry →
      ∃ part, registry.construct entry.partType entry.part = .ok part) :
    ((∃ graph, Graph.read registry bytes = .ok graph) ↔ stored.WellFormed registry) ∧
      (∀ graph, Graph.read registry bytes = .ok graph ↔
        stored.WellFormed registry ∧ stored.Describes registry graph) ∧
      (¬ stored.WellFormed registry → ∃ problems, problems ≠ [] ∧
        Graph.read registry bytes = .error (.inconsistent stored.name problems)) := by
  have partsMade : ∀ entry ∈ (Table.ofList stored.nodes).entries, ∃ part,
      registry.construct entry.2.partType entry.2.part = .ok part :=
    fun entry member => made entry.1 entry.2 (mem_nodes_iff.mp member)
  obtain ⟨assembly, granted⟩ := Assembly.exists_addNodes partsMade stored.start
  have assembled := Assembly.assembled_of_addNodes (Table.keys_nodup _) granted
  have verdict := problems_eq_nil_iff assembled made
  have isRead : Graph.read registry bytes = Graph.ofStored registry stored := by
    rw [Graph.read, parsed]
  rw [isRead, Graph.ofStored_of_addNodes granted]
  cases found : assembly.problems ++ (stored.graph assembly).problems with
  | nil =>
      have wellFormed := verdict.mp found
      have describes := describes_graph assembled wellFormed.toEntriesFit
      refine ⟨⟨fun _ => wellFormed, fun _ => ⟨_, rfl⟩⟩, ?_, fun not => absurd wellFormed not⟩
      intro graph
      constructor
      · intro same
        exact ⟨wellFormed, Except.ok.inj same ▸ describes⟩
      · intro both
        exact congrArg Except.ok (describes.unique wellFormed both.2)
  | cons problem rest =>
      have notWellFormed : ¬ stored.WellFormed registry := by
        intro wellFormed
        rw [verdict.mpr wellFormed] at found
        exact List.cons_ne_nil _ _ found.symm
      refine ⟨⟨?_, fun wellFormed => absurd wellFormed notWellFormed⟩, ?_, ?_⟩
      · intro someGraph
        obtain ⟨graph, impossible⟩ := someGraph
        cases impossible
      · intro graph
        constructor
        · intro impossible
          cases impossible
        · intro both
          exact absurd both.1 notWellFormed
      · intro _
        exact ⟨problem :: rest, List.cons_ne_nil _ _, rfl⟩

/-- A node entry with a part, in which some connections stand. -/
def entryOf (part : Part) (connections : List (String × String)) : StoredNode :=
  { partType := part.kind.key, part := part.config, enabled := true, waits := true,
    multiplicity := 1, x := 0, y := 0, connections }

/-- A sink with a word left for a pin that it does not have, a broadcast of which only one pin is
mentioned, and a channel to which nothing is bound. -/
def looseEnds : StoredGraph :=
  { name := "loose", packagePath := "", isCommand := false
    nodes := [("drain", entryOf (.sink ⟨"int"⟩) [("input", "wire"), ("old", "nil")]),
      ("tee", entryOf (.broadcast ⟨"int", 2⟩) [("output0", "wire")])]
    channels := [("spare", ⟨"string", 0, false⟩), ("wire", ⟨"int", 0, false⟩)] }

theorem read_iff_wellFormed_looseEnds :
    StoredGraph.ofDocument (Document.ofBytes (looseEnds.value.pretty ++ "\n").toUTF8) =
        .ok looseEnds ∧
      (∀ name entry, looseEnds.node? name = some entry →
        ∃ part, Registry.builtin.construct entry.partType entry.part = .ok part) ∧
      looseEnds.WellFormed Registry.builtin ∧
      ∃ graph, Graph.read Registry.builtin (looseEnds.value.pretty ++ "\n").toUTF8 = .ok graph ∧
        looseEnds.Describes Registry.builtin graph := by
  have isNode : ∀ entry ∈ looseEnds.nodes, ∃ part connections,
      entry.2 = entryOf part connections ∧
        Registry.builtin.construct part.kind.key part.config = .ok part := by
    intro entry member
    rcases List.mem_cons.mp member with isSink | isSecond
    · exact ⟨_, _, congrArg Prod.snd isSink, rfl⟩
    · exact ⟨_, _, congrArg Prod.snd (List.mem_singleton.mp isSecond), rfl⟩
  have kept : ∀ entry ∈ looseEnds.nodes, entry.2.part.Kept := by
    intro entry member
    obtain ⟨part, connections, same, _⟩ := isNode entry member
    rw [same]
    exact part.config_kept
  have partsFit : ∀ entry ∈ looseEnds.nodes, entry.2.part.Fits (121 + 3) := by
    intro entry member
    obtain ⟨part, connections, same, _⟩ := isNode entry member
    rw [same]
    exact part.config_fits 121
  have parsed : StoredGraph.ofDocument
      (Document.ofBytes (looseEnds.value.pretty ++ "\n").toUTF8) = .ok looseEnds :=
    ofDocument_pretty kept partsFit
  have made : ∀ name entry, looseEnds.node? name = some entry →
      ∃ part, Registry.builtin.construct entry.partType entry.part = .ok part := by
    intro name entry isEntry
    rw [node?, Table.get?_ofList] at isEntry
    have member := List.mem_reverse.mp (Table.mem_of_lookup isEntry)
    obtain ⟨part, connections, same, isMade⟩ := isNode (name, entry) member
    have sameEntry : entry = entryOf part connections := same
    rw [sameEntry]
    exact ⟨part, isMade⟩
  have granted : (Graph.ofStored Registry.builtin looseEnds).isOk = true := by decide
  obtain ⟨graph, put⟩ : ∃ graph, Graph.ofStored Registry.builtin looseEnds = .ok graph := by
    cases result : Graph.ofStored Registry.builtin looseEnds with
    | error error => rw [result] at granted; exact absurd granted Bool.false_ne_true
    | ok graph => exact ⟨graph, rfl⟩
  have read : Graph.read Registry.builtin (looseEnds.value.pretty ++ "\n").toUTF8 = .ok graph := by
    rw [Graph.read, parsed]
    exact put
  have verdict := (read_iff_wellFormed Registry.builtin parsed made).2.1 graph
  obtain ⟨wellFormed, describes⟩ := verdict.mp read
  exact ⟨parsed, made, wellFormed, graph, read, describes⟩

end StoredGraph

end Pipework
