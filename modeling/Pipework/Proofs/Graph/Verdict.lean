import Pipework.Proofs.Graph.Document
import Pipework.Proofs.Part.Pins

/-!
# What the check of a graph accepts

A graph is well formed when its nodes and channels stand under their names, each node has a
connection for every pin, both sides of every binding say the same, and a channel that has an end
carries values between different nodes (`Graph.WellFormed`). This is said here of the tables
themselves, and no part of the check is used to say it. The check finds nothing exactly in the
graphs that are well formed, however broken a graph may be (`Graph.problems_eq_nil_iff_wellFormed`).
-/

namespace Pipework

namespace Graph

/-! ## Well-formed graphs -/

/-- The node of an endpoint is there, and the pin is one of its part and has the name. -/
def HasPin (graph : Graph) (endpoint : Endpoint) (pin : Pin) : Prop :=
  ∃ node, graph.node? endpoint.node = some node ∧ pin ∈ node.part.pins ∧ pin.name = endpoint.pin

/-- The node of an endpoint says that its pin is bound to the channel. -/
def SaysBound (graph : Graph) (endpoint : Endpoint) (channel : String) : Prop :=
  ∃ node, graph.node? endpoint.node = some node ∧
    node.connections.get? endpoint.pin = some (some channel)

/-- A channel is there and says that the endpoint is one of its ends. -/
def SaysEnd (graph : Graph) (channel : String) (endpoint : Endpoint) : Prop :=
  ∃ found, graph.channel? channel = some found ∧ endpoint ∈ found.ends.toList

/-- A channel carries values: it has two ends or more, on different nodes, each a pin of its type,
and values pass in and out. -/
structure Carries (graph : Graph) (channel : Channel) : Prop where
  several : 2 ≤ channel.ends.toList.length
  nodesApart : (channel.ends.toList.map Endpoint.node).Nodup
  typed : ∀ endpoint ∈ channel.ends.toList,
    ∃ pin, graph.HasPin endpoint pin ∧ pin.type = channel.type
  bothWays : ∀ direction, ∃ endpoint ∈ channel.ends.toList,
    ∃ pin, graph.HasPin endpoint pin ∧ pin.direction = direction

/-- What a graph has to be, in terms of its tables. -/
structure WellFormed (graph : Graph) : Prop where
  nodesInPlace : ∀ key node, graph.node? key = some node → node.name = key
  channelsInPlace : ∀ key channel, graph.channel? key = some channel → channel.name = key
  connectionsMatch : ∀ key node, graph.node? key = some node →
    ∀ name, name ∈ node.connections.keys ↔ ∃ pin ∈ node.part.pins, pin.name = name
  sidesAgree : ∀ endpoint channel,
    graph.SaysBound endpoint channel ↔ graph.SaysEnd channel endpoint
  channelsCarry : ∀ key channel, graph.channel? key = some channel →
    channel.ends.toList ≠ [] → graph.Carries channel

/-! ## Tables and views -/

section Views

variable {graph : Graph}

theorem saysBound_iff
    {endpoint : Endpoint} {channel : String} :
    graph.SaysBound endpoint channel ↔ graph.binding? endpoint = some channel := by
  rw [SaysBound, binding?, Option.bind_eq_some_iff]
  refine exists_congr fun node => and_congr_right fun _ => ?_
  rw [Node.binding?, Option.join_eq_some_iff]

theorem saysEnd_iff
    {channel : String} {endpoint : Endpoint} :
    graph.SaysEnd channel endpoint ↔ graph.lists channel endpoint = true := by
  rw [SaysEnd, lists_iff]
  simp only [KeySet.mem_toList_iff]

theorem mem_ends_iff
    {key : String} {channel : Channel} (present : graph.channel? key = some channel)
    (endpoint : Endpoint) :
    endpoint ∈ channel.ends.toList ↔ graph.lists key endpoint = true := by
  rw [lists_of_channel? present, KeySet.mem_toList_iff]

theorem WellFormed.carries_of_lists
    (wellFormed : graph.WellFormed) {key : String} {channel : Channel} {endpoint : Endpoint}
    (present : graph.channel? key = some channel) (listed : graph.lists key endpoint = true) :
    graph.Carries channel := by
  have member := (mem_ends_iff present endpoint).mpr listed
  exact wellFormed.channelsCarry key channel present (List.ne_nil_of_mem member)

variable
  (pinsNodup : ∀ key node, graph.node? key = some node → (node.part.pins.map Pin.name).Nodup)

include pinsNodup

/-- Where the pins of a node have different names, the pin at an endpoint is the one that the
part has by this name. -/
theorem hasPin_iff
    {endpoint : Endpoint} {pin : Pin} :
    graph.HasPin endpoint pin ↔ graph.pin? endpoint = some pin := by
  rw [HasPin, pin?, Option.bind_eq_some_iff]
  refine exists_congr fun node => and_congr_right fun present => ?_
  rw [Part.pin?, findPin_eq_some_iff (pinsNodup _ _ present)]

/-! ## The verdict -/

theorem Consistent.carries
    (consistent : graph.Consistent) {key : String} {channel : Channel}
    (present : graph.channel? key = some channel) (ended : channel.ends.toList ≠ []) :
    graph.Carries channel := by
  obtain ⟨first, isEnd⟩ := List.exists_mem_of_ne_nil _ ended
  have viable := consistent.viable ((mem_ends_iff present first).mp isEnd)
  have both := hasEnd_of_isViable present viable
  have several : 2 ≤ channel.ends.toList.length := by
    have size := two_le_size_of_hasEnd present both
    rwa [Table.size, ← List.length_map (f := Prod.fst)] at size
  refine ⟨several, ?_, ?_, ?_⟩
  · rw [List.nodup_map_iff_inj_on (keys_nodup_of_ends channel)]
    intro left leftEnd right rightEnd sameNode
    exact consistent.oneOnNode ((mem_ends_iff present left).mp leftEnd)
      ((mem_ends_iff present right).mp rightEnd) sameNode
  · intro endpoint member
    obtain ⟨pin, atEnd, sameType⟩ :=
      consistent.sameType present ((mem_ends_iff present endpoint).mp member)
    exact ⟨pin, (hasPin_iff pinsNodup).mpr atEnd, sameType⟩
  · intro direction
    obtain ⟨endpoint, listed, pin, atEnd, isDirection⟩ := both direction
    exact ⟨endpoint, (mem_ends_iff present endpoint).mpr listed, pin,
      (hasPin_iff pinsNodup).mpr atEnd, isDirection⟩

theorem Consistent.wellFormed
    (consistent : graph.Consistent) :
    graph.WellFormed where
  nodesInPlace _ _ present := consistent.nodeNamed present
  channelsInPlace _ _ present := consistent.channelNamed present
  connectionsMatch _ _ present name := by
    rw [Table.mem_keys_iff, consistent.connected present, List.mem_map]
  sidesAgree endpoint channel := by
    rw [saysBound_iff, saysEnd_iff]
    exact consistent.bound_iff endpoint channel
  channelsCarry _ _ present ended := consistent.carries pinsNodup present ended

theorem WellFormed.consistent
    (wellFormed : graph.WellFormed) :
    graph.Consistent where
  nodeNamed present := wellFormed.nodesInPlace _ _ present
  channelNamed present := wellFormed.channelsInPlace _ _ present
  connected present pin := by
    rw [← Table.mem_keys_iff, wellFormed.connectionsMatch _ _ present, List.mem_map]
  bound_iff endpoint channel := by
    rw [← saysBound_iff, ← saysEnd_iff]
    exact wellFormed.sidesAgree endpoint channel
  oneOnNode {channel first second} inFirst inSecond sameNode := by
    obtain ⟨found, present, _⟩ := lists_iff.mp inFirst
    have carries := wellFormed.carries_of_lists present inFirst
    exact List.inj_on_of_nodup_map carries.nodesApart ((mem_ends_iff present first).mpr inFirst)
      ((mem_ends_iff present second).mpr inSecond) sameNode
  sameType {key channel endpoint} present listed := by
    have carries := wellFormed.carries_of_lists present listed
    obtain ⟨pin, hasPin, sameType⟩ :=
      carries.typed endpoint ((mem_ends_iff present endpoint).mpr listed)
    exact ⟨pin, (hasPin_iff pinsNodup).mp hasPin, sameType⟩
  viable {key endpoint} listed := by
    obtain ⟨found, present, _⟩ := lists_iff.mp listed
    have carries := wellFormed.carries_of_lists present listed
    refine isViable_iff.mpr fun _ direction => ?_
    obtain ⟨other, member, pin, hasPin, isDirection⟩ := carries.bothWays direction
    exact ⟨other, (mem_ends_iff present other).mp member, pin, (hasPin_iff pinsNodup).mp hasPin,
      isDirection⟩

end Views

/-- Where the pins of every node have different names, the check finds nothing exactly in the
graphs that are well formed: whatever is wrong with a graph, something is found, and nothing is
found in a graph with which nothing is wrong. -/
theorem problems_eq_nil_iff_wellFormed
    {graph : Graph}
    (pinsNodup : ∀ key node, graph.node? key = some node →
      (node.part.pins.map Pin.name).Nodup) :
    graph.problems = [] ↔ graph.WellFormed := by
  rw [problems_eq_nil_iff]
  exact ⟨Consistent.wellFormed pinsNodup, WellFormed.consistent pinsNodup⟩

/-- The broadcast and the sink, where the sink has forgotten that its pin is bound. -/
def brokenSides : Graph := twoNodes.bind ⟨"drain", "input"⟩ none

/-- The channel still lists the pin of the sink, so the graph is not well formed, and the check
says where. -/
theorem problems_eq_nil_iff_wellFormed_brokenSides :
    (∀ key node, brokenSides.node? key = some node → (node.part.pins.map Pin.name).Nodup) ∧
      brokenSides.problems = [.endNotBound "wire" ⟨"drain", "input"⟩] ∧
      ¬ brokenSides.WellFormed := by
  have built : Built Registry.builtin twoNodes :=
    run_induction (Built.empty Registry.builtin "pages" "example.org/pages" false)
      (fun current granted => current.of_apply granted) _
  have pinsNodup : ∀ key node, brokenSides.node? key = some node →
      (node.part.pins.map Pin.name).Nodup := by
    intro key node present
    have bare : twoNodes.bareNode? key = some node.bare := by
      rw [← bareNode?_bind twoNodes ⟨"drain", "input"⟩ none key]
      exact bareNode?_eq_some present
    obtain ⟨_, _, made⟩ := (built.legal.node bare).made
    exact Registry.pins_nodup_of_construct made
  have found : brokenSides.problems = [.endNotBound "wire" ⟨"drain", "input"⟩] := by decide
  refine ⟨pinsNodup, found, fun wellFormed => ?_⟩
  rw [(problems_eq_nil_iff_wellFormed pinsNodup).mpr wellFormed] at found
  exact List.cons_ne_nil _ _ found.symm

end Graph

end Pipework
