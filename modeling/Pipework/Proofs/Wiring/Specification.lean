import Pipework.Proofs.Wiring.Closing

/-!
# What the wiring of a graph is

`Graph.Wires` describes a wiring one channel and one pin at a time, from the graph alone: which
channels are live, who their writers are and in which order, and what each pin is given. It asks
nothing about how arguments are gathered. A consistent graph has one wiring of this description,
and `Graph.wiring` computes it (`Graph.wires_iff`).
-/

namespace Pipework

namespace Graph

/-! ## The description -/

/-- An end of a channel that is a pin of an enabled node with a direction. -/
def ActiveEnd (graph : Graph) (channel : Channel) (direction : Direction)
    (endpoint : Endpoint) : Prop :=
  channel.ends.contains endpoint = true ∧
    ∃ node pin, graph.node? endpoint.node = some node ∧ node.enabled = true ∧
      node.part.pin? endpoint.pin = some pin ∧ pin.direction = direction

/-- A channel with an output and an input on enabled nodes. -/
def Live (graph : Graph) (channel : Channel) : Prop :=
  ∀ direction, ∃ endpoint, graph.ActiveEnd channel direction endpoint

/-- All enabled writers of a channel, in the order of nodes and pins. -/
def OrderedWriters (graph : Graph) (channel : Channel) (writers : List Endpoint) : Prop :=
  writers.Pairwise (· < ·) ∧
    ∀ endpoint, endpoint ∈ writers ↔ graph.ActiveEnd channel .output endpoint

/-- The variable that a channel gives to one of its ends. -/
inductive Gives (graph : Graph) (channel : Channel) (endpoint : Endpoint) : String → Prop
  | reader (reads : graph.ActiveEnd channel .input endpoint) :
      Gives graph channel endpoint (Go.channelIdent channel.name)
  | onlyWriter (alone : graph.OrderedWriters channel [endpoint]) :
      Gives graph channel endpoint (Go.channelIdent channel.name)
  | oneOfSeveral {writers : List Endpoint} {index : Nat}
      (ordered : graph.OrderedWriters channel writers) (several : 2 ≤ writers.length)
      (atIndex : writers[index]? = some endpoint) :
      Gives graph channel endpoint (Go.writerIdent channel.name index)

/-- A pin is bound to a channel, and the channel is live. -/
def BoundToLive (graph : Graph) (endpoint : Endpoint) (channel : Channel) : Prop :=
  graph.binding? endpoint = some channel.name ∧ graph.channel? channel.name = some channel ∧
    graph.Live channel

/-- A wiring lists the live channels and the enabled nodes of a graph, and gives each pin what
the channel to which it is bound gives it, if that channel is live. -/
structure Wires (graph : Graph) (wiring : Wiring) : Prop where
  channelsOrdered :
    wiring.channels.Pairwise fun first second => first.name < second.name
  channel_iff : ∀ wired, wired ∈ wiring.channels ↔
    ∃ channel writers, graph.channel? channel.name = some channel ∧ graph.Live channel ∧
      graph.OrderedWriters channel writers ∧
        wired = ⟨channel.name, channel.type, channel.capacity,
          if writers.length = 1 then []
          else (List.range writers.length).map (Go.writerIdent channel.name)⟩
  nodesOrdered :
    wiring.nodes.Pairwise fun first second => first.node.name < second.node.name
  node_iff : ∀ node, node ∈ wiring.nodes.map WiredNode.node ↔
    graph.node? node.name = some node ∧ node.enabled = true
  params : ∀ wired ∈ wiring.nodes, wired.params.map Param.pin = wired.node.part.pins
  given_isSome_iff : ∀ wired ∈ wiring.nodes, ∀ param ∈ wired.params,
    param.given?.isSome = true ↔
      ∃ channel, graph.BoundToLive ⟨wired.node.name, param.pin.name⟩ channel
  given_iff : ∀ wired ∈ wiring.nodes, ∀ param ∈ wired.params, ∀ ident,
    param.given? = some ident ↔
      ∃ channel, graph.BoundToLive ⟨wired.node.name, param.pin.name⟩ channel ∧
        graph.Gives channel ⟨wired.node.name, param.pin.name⟩ ident
  bindings_iff : ∀ wired ∈ wiring.nodes, ∀ name,
    wired.bindings.contains name = true ↔
      ∃ param ∈ wired.params, param.pin.name = name ∧ param.given?.isSome = true
  closes : ∀ wired ∈ wiring.nodes,
    wired.closes =
      (wired.node.part.pins.filter fun pin =>
        decide (pin.direction = .output) && wired.bindings.contains pin.name).map Pin.name

/-! ## Live channels and their writers -/

section Views

variable {graph : Graph} {channel : Channel}

theorem mem_activeEnds_iff_activeEnd
    {direction : Direction} {endpoint : Endpoint} :
    endpoint ∈ graph.activeEnds channel direction ↔
      graph.ActiveEnd channel direction endpoint := by
  rw [activeEnds, List.mem_filter, KeySet.mem_toList_iff, ActiveEnd, isEnabled, pin?]
  cases graph.node? endpoint.node <;> simp [Option.any_eq_true]

theorem live_iff :
    graph.Live channel ↔ graph.isLive channel = true := by
  rw [Live, isLive_iff_forall]
  exact forall_congr' fun _ => exists_congr fun _ => mem_activeEnds_iff_activeEnd.symm

theorem activeEnds_pairwise
    (graph : Graph) (channel : Channel) (direction : Direction) :
    (graph.activeEnds channel direction).Pairwise (· < ·) :=
  (Table.keys_pairwise channel.ends).filter _

/-- There is one list of the writers of a channel. -/
theorem orderedWriters_iff
    {writers : List Endpoint} :
    graph.OrderedWriters channel writers ↔ writers = graph.writers channel := by
  constructor
  · intro ordered
    refine Table.eq_of_increasing ordered.1 (activeEnds_pairwise graph channel .output) ?_
    intro endpoint
    exact (ordered.2 endpoint).trans mem_activeEnds_iff_activeEnd.symm
  · intro same
    subst same
    exact ⟨activeEnds_pairwise graph channel .output,
      fun endpoint => mem_activeEnds_iff_activeEnd⟩

theorem mem_writerVariables_iff
    {name ident : String} {endpoint : Endpoint} {writers : List Endpoint}
    (several : 2 ≤ writers.length) :
    (endpoint, ident) ∈ writerVariables name writers ↔
      ∃ index, writers[index]? = some endpoint ∧ ident = Go.writerIdent name index := by
  rcases writers with _ | ⟨first, _ | ⟨second, rest⟩⟩
  · simp at several
  · simp at several
  · simp only [writerVariables, List.mem_map, Prod.exists, List.mem_zipIdx_iff_getElem?,
      Prod.mk.injEq]
    constructor
    · intro found
      obtain ⟨other, index, atIndex, rfl, rfl⟩ := found
      exact ⟨index, atIndex, rfl⟩
    · intro found
      obtain ⟨index, atIndex, rfl⟩ := found
      exact ⟨endpoint, index, atIndex, rfl, rfl⟩

/-- What a live channel gives to its ends is what `Graph.channelArguments` lists. -/
theorem gives_iff
    (live : graph.isLive channel = true) {endpoint : Endpoint} {ident : String} :
    graph.Gives channel endpoint ident ↔
      (endpoint ∈ graph.readers channel ∧ ident = Go.channelIdent channel.name) ∨
        (endpoint, ident) ∈ writerVariables channel.name (graph.writers channel) := by
  constructor
  · intro gives
    cases gives with
    | reader reads => exact Or.inl ⟨mem_activeEnds_iff_activeEnd.mpr reads, rfl⟩
    | onlyWriter alone =>
        rw [← orderedWriters_iff.mp alone]
        exact Or.inr (List.mem_singleton_self _)
    | oneOfSeveral ordered several atIndex =>
        rw [← orderedWriters_iff.mp ordered, mem_writerVariables_iff several]
        exact Or.inr ⟨_, atIndex, rfl⟩
  · intro listed
    rcases listed with ⟨reads, rfl⟩ | writes
    · exact .reader (mem_activeEnds_iff_activeEnd.mp reads)
    · rcases one_or_several (writers_ne_nil live) with ⟨only, alone⟩ | several
      · rw [alone] at writes
        obtain ⟨rfl, rfl⟩ := Prod.mk.inj (List.mem_singleton.mp writes)
        exact .onlyWriter (orderedWriters_iff.mpr alone.symm)
      · obtain ⟨index, atIndex, rfl⟩ := (mem_writerVariables_iff several).mp writes
        exact .oneOfSeveral (orderedWriters_iff.mpr rfl) several atIndex

theorem privateVariables_eq_ite
    (name : String) {writers : List Endpoint} (nonempty : writers ≠ []) :
    privateVariables name writers =
      if writers.length = 1 then [] else (List.range writers.length).map (Go.writerIdent name) := by
  rcases one_or_several nonempty with ⟨only, rfl⟩ | several
  · rfl
  · rw [if_neg (by omega), privateVariables_eq name several]
    rfl

theorem boundToLive_iff
    (mirrored : graph.Mirrored) {endpoint : Endpoint} :
    graph.BoundToLive endpoint channel ↔
      channel ∈ graph.liveChannels ∧ channel.ends.contains endpoint = true := by
  rw [BoundToLive, mirrored.bound_iff, mem_liveChannels_iff mirrored, live_iff]
  constructor
  · intro bound
    obtain ⟨listed, present, live⟩ := bound
    rw [lists_of_channel? present] at listed
    exact ⟨⟨present, live⟩, listed⟩
  · intro both
    obtain ⟨⟨present, live⟩, listed⟩ := both
    rw [← lists_of_channel? present] at listed
    exact ⟨listed, present, live⟩

end Views

/-! ## What pins are given -/

section Given

variable {graph : Graph}

theorem ends_contains_of_gives
    {channel : Channel} {endpoint : Endpoint} {ident : String}
    (gives : graph.Gives channel endpoint ident) :
    channel.ends.contains endpoint = true := by
  cases gives with
  | reader reads => exact reads.1
  | onlyWriter alone => exact ((alone.2 endpoint).mp (List.mem_singleton_self _)).1
  | oneOfSeveral ordered _ atIndex =>
      exact ((ordered.2 endpoint).mp (List.mem_of_getElem? atIndex)).1

theorem get?_arguments_iff_gives
    (mirrored : graph.Mirrored) {endpoint : Endpoint} {ident : String} :
    graph.arguments.get? endpoint = some ident ↔
      ∃ channel, graph.BoundToLive endpoint channel ∧ graph.Gives channel endpoint ident := by
  rw [get?_arguments_iff mirrored]
  refine exists_congr fun channel => ?_
  rw [boundToLive_iff mirrored]
  constructor
  · intro both
    obtain ⟨live, given⟩ := both
    have gives := (gives_iff ((mem_liveChannels_iff mirrored).mp live).2).mpr given
    exact ⟨⟨live, ends_contains_of_gives gives⟩, gives⟩
  · intro both
    obtain ⟨⟨live, _⟩, gives⟩ := both
    exact ⟨live, (gives_iff ((mem_liveChannels_iff mirrored).mp live).2).mp gives⟩

/-- A live channel gives a variable to each of its ends on enabled nodes. -/
theorem exists_gives
    {channel : Channel} (live : graph.isLive channel = true) {direction : Direction}
    {endpoint : Endpoint} (active : graph.ActiveEnd channel direction endpoint) :
    ∃ ident, graph.Gives channel endpoint ident := by
  cases direction with
  | input => exact ⟨_, .reader active⟩
  | output =>
      have writes : endpoint ∈ graph.writers channel := mem_activeEnds_iff_activeEnd.mpr active
      rw [← writerVariables_fst channel.name (graph.writers channel)] at writes
      obtain ⟨⟨_, ident⟩, listed, rfl⟩ := List.mem_map.mp writes
      exact ⟨ident, (gives_iff live).mpr (Or.inr listed)⟩

theorem get?_arguments_isSome_iff
    (mirrored : graph.Mirrored) {node : Node} (enabled : node ∈ graph.enabledNodes) {pin : Pin}
    (member : pin ∈ node.part.pins) :
    (graph.arguments.get? ⟨node.name, pin.name⟩).isSome = true ↔
      ∃ channel, graph.BoundToLive ⟨node.name, pin.name⟩ channel := by
  rw [Option.isSome_iff_exists]
  constructor
  · intro found
    obtain ⟨ident, given⟩ := found
    obtain ⟨channel, bound, _⟩ := (get?_arguments_iff_gives mirrored).mp given
    exact ⟨channel, bound⟩
  · intro found
    obtain ⟨channel, bound⟩ := found
    obtain ⟨present, isEnabled⟩ := (mem_enabledNodes_iff mirrored).mp enabled
    obtain ⟨live, listed⟩ := (boundToLive_iff mirrored).mp bound
    obtain ⟨first, isFirst⟩ := Option.isSome_iff_exists.mp
      (Part.pin?_isSome_iff.mpr (List.mem_map_of_mem member))
    have active : graph.ActiveEnd channel first.direction ⟨node.name, pin.name⟩ :=
      ⟨listed, node, first, present, isEnabled, isFirst, rfl⟩
    obtain ⟨ident, gives⟩ := exists_gives ((mem_liveChannels_iff mirrored).mp live).2 active
    exact ⟨ident, (get?_arguments_iff_gives mirrored).mpr ⟨channel, bound, gives⟩⟩

end Given

/-! ## Bindings and closed pins of a wired node -/

section WiredNode

theorem bindings_contains_iff
    (wired : WiredNode) (name : String) :
    wired.bindings.contains name = true ↔
      ∃ param ∈ wired.params, param.pin.name = name ∧ param.given?.isSome = true := by
  rw [WiredNode.bindings, KeySet.contains_ofList, decide_eq_true_eq, List.mem_map]
  refine exists_congr fun param => ?_
  rw [List.mem_filter, Param.isBound, and_assoc, and_comm (a := param.given?.isSome = true)]

/-- A pin of a node is among its bindings when the arguments have it. -/
theorem bindings_contains_wired
    (node : Node) (arguments : Table Endpoint String) {pin : Pin}
    (member : pin ∈ node.part.pins) :
    (node.wired arguments).bindings.contains pin.name =
      (arguments.get? ⟨node.name, pin.name⟩).isSome := by
  rw [Bool.eq_iff_iff, bindings_contains_iff]
  constructor
  · intro found
    obtain ⟨param, inParams, sameName, given⟩ := found
    obtain ⟨other, _, rfl⟩ := List.mem_map.mp inParams
    rw [← sameName]
    exact given
  · intro given
    exact ⟨_, List.mem_map_of_mem member, rfl, given⟩

end WiredNode

/-! ## The wiring of a consistent graph -/

section Wires

variable {graph : Graph}

theorem liveChannels_ordered
    (mirrored : graph.Mirrored) :
    graph.liveChannels.Pairwise fun first second => first.name < second.name := by
  have ordered := graph.channels.keys_pairwise
  rw [← Table.map_values_eq_keys mirrored.channelNamed, List.pairwise_map] at ordered
  exact ordered.filter _

theorem enabledNodes_ordered
    (mirrored : graph.Mirrored) :
    graph.enabledNodes.Pairwise fun first second => first.name < second.name := by
  have ordered := graph.nodes.keys_pairwise
  rw [← Table.map_values_eq_keys mirrored.nodeNamed, List.pairwise_map] at ordered
  exact ordered.filter _

theorem wiring_wires
    (mirrored : graph.Mirrored) :
    graph.Wires graph.wiring where
  channelsOrdered := List.pairwise_map.mpr (liveChannels_ordered mirrored)
  channel_iff wired := by
    rw [mem_wiring_channels_iff]
    refine exists_congr fun channel => ?_
    rw [mem_liveChannels_iff mirrored, and_assoc, exists_and_left, exists_and_left, live_iff]
    refine and_congr_right fun _ => and_congr_right fun live => ?_
    simp only [orderedWriters_iff, exists_eq_left]
    rw [wiredChannel, privateVariables_eq_ite channel.name (writers_ne_nil live)]
    exact eq_comm
  nodesOrdered := List.pairwise_map.mpr (enabledNodes_ordered mirrored)
  node_iff node := by
    rw [← mem_enabledNodes_iff mirrored, wiring, List.map_map]
    exact iff_of_eq (congrArg (node ∈ ·) (List.map_id _))
  params wired inNodes := by
    obtain ⟨node, _, rfl⟩ := List.mem_map.mp inNodes
    rw [Node.wired, List.map_map]
    exact List.map_id _
  given_isSome_iff wired inNodes param inParams := by
    obtain ⟨node, enabled, rfl⟩ := List.mem_map.mp inNodes
    obtain ⟨pin, member, rfl⟩ := List.mem_map.mp inParams
    exact get?_arguments_isSome_iff mirrored enabled member
  given_iff wired inNodes param inParams ident := by
    obtain ⟨node, _, rfl⟩ := List.mem_map.mp inNodes
    obtain ⟨pin, _, rfl⟩ := List.mem_map.mp inParams
    exact get?_arguments_iff_gives mirrored
  bindings_iff wired _ := bindings_contains_iff wired
  closes wired inNodes := by
    obtain ⟨node, _, rfl⟩ := List.mem_map.mp inNodes
    rw [closes_wired]
    refine congrArg (List.map Pin.name) (List.filter_congr ?_)
    intro pin member
    rw [bindings_contains_wired node graph.arguments member]

/-- What a node of a wiring is given follows from the graph. -/
theorem Wires.wired_eq
    (mirrored : graph.Mirrored) {wiring : Wiring} (wires : graph.Wires wiring)
    {wired : WiredNode} (inNodes : wired ∈ wiring.nodes) :
    wired.node.wired graph.arguments = wired := by
  have given_eq (param : Param) (inParams : param ∈ wired.params) :
      graph.arguments.get? ⟨wired.node.name, param.pin.name⟩ = param.given? := by
    apply Option.ext
    intro ident
    rw [get?_arguments_iff_gives mirrored, wires.given_iff wired inNodes param inParams]
  have params_eq : (wired.node.wired graph.arguments).params = wired.params := by
    rw [Node.wired, ← wires.params wired inNodes, List.map_map]
    conv_rhs => rw [← List.map_id wired.params]
    refine List.map_congr_left ?_
    intro param inParams
    rw [Function.comp_apply, given_eq param inParams]
    rfl
  obtain ⟨node, params⟩ := wired
  exact congrArg (WiredNode.mk node) params_eq

/-- The wiring of a consistent graph is the one that fits the description: its live channels and
its enabled nodes, each in the order of names, with a variable for the pins that are bound to a
live channel and for no other. -/
theorem wires_iff
    {graph : Graph} (unproblematic : graph.problems = []) (wiring : Wiring) :
    graph.Wires wiring ↔ wiring = graph.wiring := by
  have mirrored := (problems_eq_nil_iff.mp unproblematic).toMirrored
  have computed := wiring_wires mirrored
  constructor
  · intro wires
    have sameChannels : wiring.channels = graph.wiring.channels := by
      refine Table.eq_of_increasing wires.channelsOrdered computed.channelsOrdered ?_
      intro wired
      rw [wires.channel_iff, computed.channel_iff]
    have sameNodes : wiring.nodes.map WiredNode.node = graph.enabledNodes := by
      refine Table.eq_of_increasing (List.pairwise_map.mpr wires.nodesOrdered)
        (enabledNodes_ordered mirrored) ?_
      intro node
      rw [wires.node_iff, mem_enabledNodes_iff mirrored]
    have sameWired : wiring.nodes = graph.wiring.nodes := by
      have unfolded : graph.wiring.nodes =
          (wiring.nodes.map WiredNode.node).map fun node => node.wired graph.arguments := by
        rw [sameNodes, Graph.wiring]
      rw [unfolded, List.map_map]
      conv_lhs => rw [← List.map_id wiring.nodes]
      refine List.map_congr_left ?_
      intro wired inNodes
      exact (wires.wired_eq mirrored inNodes).symm
    obtain ⟨channels, nodes⟩ := wiring
    exact congrArg₂ Wiring.mk sameChannels sameWired
  · intro same
    subst same
    exact computed

/-- The two writers of the fan-in are given a private variable each, in the order of their
nodes, and the sink is given the variable of the channel. -/
theorem wires_iff_fanIn :
    fanIn.problems = [] ∧
      fanIn.Wires fanIn.wiring ∧
      fanIn.wiring.channels =
        [⟨"shared", "interface\x7b\x7d", 0, ["chan_shared_w0", "chan_shared_w1"]⟩] ∧
      fanIn.wiring.nodes.map (fun wired =>
          (wired.node.name, wired.params.map Param.given?, wired.closes)) =
        [("drain", [some "chan_shared"], []),
          ("left", [none, some "chan_shared_w0", none], ["output0"]),
          ("right", [none, some "chan_shared_w1", none], ["output0"])] := by
  have unproblematic := problems_eq_nil_iff.mpr fanIn_built.consistent
  exact ⟨unproblematic, (wires_iff unproblematic fanIn.wiring).mpr rfl, by decide, by decide⟩

end Wires

end Graph

end Pipework
