import Pipework.Proofs.Graph.Change

/-!
# The two sides of a graph

A node says to which channel each of its pins is bound, and a channel says which endpoints it
has as ends. `Graph.Mirrored` says that the two sides agree, whatever the channels look like:
a channel may have one end, or none, or ends of one direction only. The main statement is that
no request breaks this, whether it is granted or refused.
-/

namespace Pipework

namespace Graph

/-- The two sides of a graph agree. Nothing is asked of the number or the directions of the
ends of a channel. -/
structure Mirrored (graph : Graph) : Prop where
  nodeNamed : ∀ {name : String} {node : Node}, graph.node? name = some node → node.name = name
  channelNamed : ∀ {name : String} {channel : Channel},
    graph.channel? name = some channel → channel.name = name
  /-- The connections of a node have an entry for each pin of its part and no other. -/
  connected : ∀ {name : String} {node : Node}, graph.node? name = some node →
    ∀ pin, node.connections.contains pin = true ↔ pin ∈ node.part.pins.map Pin.name
  bound_iff : ∀ (endpoint : Endpoint) (channel : String),
    graph.binding? endpoint = some channel ↔ graph.lists channel endpoint = true
  oneOnNode : ∀ {channel : String} {first second : Endpoint},
    graph.lists channel first = true → graph.lists channel second = true →
      first.node = second.node → first = second
  sameType : ∀ {name : String} {channel : Channel} {endpoint : Endpoint},
    graph.channel? name = some channel → graph.lists name endpoint = true →
      ∃ pin, graph.pin? endpoint = some pin ∧ pin.type = channel.type

/-! ## In terms of views -/

theorem connected_iff
    {graph : Graph} :
    (∀ {name : String} {node : Node}, graph.node? name = some node →
      ∀ pin, node.connections.contains pin = true ↔ pin ∈ node.part.pins.map Pin.name) ↔
      ∀ endpoint, (graph.connection? endpoint).isSome = (graph.pin? endpoint).isSome := by
  constructor
  · intro connected endpoint
    rw [connection?, pin?]
    cases present : graph.node? endpoint.node with
    | none => rfl
    | some node =>
        rw [Bool.eq_iff_iff]
        exact (connected present endpoint.pin).trans Part.pin?_isSome_iff.symm
  · intro agree name node present pin
    have atPin := agree ⟨name, pin⟩
    rw [connection?, pin?, present] at atPin
    rw [← Part.pin?_isSome_iff, ← Bool.eq_iff_iff]
    exact atPin

theorem bareNode?_eq_some
    {graph : Graph} {name : String} {node : Node}
    (present : graph.node? name = some node) :
    graph.bareNode? name = some node.bare := by
  rw [bareNode?, present, Option.map_some]

theorem bareChannel?_eq_some
    {graph : Graph} {name : String} {channel : Channel}
    (present : graph.channel? name = some channel) :
    graph.bareChannel? name = some channel.bare := by
  rw [bareChannel?, present, Option.map_some]

/-- A graph is mirrored when its views say so. -/
theorem Mirrored.of_views
    {graph : Graph}
    (nodeNamed : ∀ {name : String} {node : Node},
      graph.bareNode? name = some node → node.name = name)
    (channelNamed : ∀ {name : String} {channel : Channel},
      graph.bareChannel? name = some channel → channel.name = name)
    (connected : ∀ endpoint,
      (graph.connection? endpoint).isSome = (graph.pin? endpoint).isSome)
    (bound_iff : ∀ (endpoint : Endpoint) (channel : String),
      graph.binding? endpoint = some channel ↔ graph.lists channel endpoint = true)
    (oneOnNode : ∀ {channel : String} {first second : Endpoint},
      graph.lists channel first = true → graph.lists channel second = true →
        first.node = second.node → first = second)
    (sameType : ∀ {name : String} {channel : Channel} {endpoint : Endpoint},
      graph.bareChannel? name = some channel → graph.lists name endpoint = true →
        ∃ pin, graph.pin? endpoint = some pin ∧ pin.type = channel.type) :
    graph.Mirrored where
  nodeNamed present := by
    have named := nodeNamed (bareNode?_eq_some present)
    exact named
  channelNamed present := by
    have named := channelNamed (bareChannel?_eq_some present)
    exact named
  connected := connected_iff.mpr connected
  bound_iff := bound_iff
  oneOnNode := oneOnNode
  sameType present listed := by
    have typed := sameType (bareChannel?_eq_some present) listed
    exact typed

namespace Mirrored

variable {graph : Graph}

theorem bareNode_named
    (mirrored : graph.Mirrored) {name : String} {node : Node}
    (present : graph.bareNode? name = some node) :
    node.name = name := by
  obtain ⟨found, foundPresent, rfl⟩ := Option.map_eq_some_iff.mp present
  have named := mirrored.nodeNamed foundPresent
  exact named

theorem bareChannel_named
    (mirrored : graph.Mirrored) {name : String} {channel : Channel}
    (present : graph.bareChannel? name = some channel) :
    channel.name = name := by
  obtain ⟨found, foundPresent, rfl⟩ := Option.map_eq_some_iff.mp present
  have named := mirrored.channelNamed foundPresent
  exact named

/-- A node has no connection for a pin that its part does not have. -/
theorem get?_connections_of_unknown
    (mirrored : graph.Mirrored) {name pin : String} {node : Node}
    (present : graph.node? name = some node) (unknown : pin ∉ node.part.pins.map Pin.name) :
    node.connections.get? pin = none := by
  have missing : node.connections.contains pin = false := by
    rw [Bool.eq_false_iff]
    exact fun connected => unknown ((mirrored.connected present pin).mp connected)
  exact Table.contains_eq_false_iff.mp missing

theorem connection?_isSome
    (mirrored : graph.Mirrored) (endpoint : Endpoint) :
    (graph.connection? endpoint).isSome = (graph.pin? endpoint).isSome :=
  connected_iff.mp mirrored.connected endpoint

theorem end_sameType
    (mirrored : graph.Mirrored) {name : String} {channel : Channel} {endpoint : Endpoint}
    (present : graph.bareChannel? name = some channel)
    (listed : graph.lists name endpoint = true) :
    ∃ pin, graph.pin? endpoint = some pin ∧ pin.type = channel.type := by
  obtain ⟨found, foundPresent, rfl⟩ := Option.map_eq_some_iff.mp present
  have typed := mirrored.sameType foundPresent listed
  exact typed

/-- An end of a channel is a pin that is there. -/
theorem pin?_isSome_of_lists
    (mirrored : graph.Mirrored) {channel : String} {endpoint : Endpoint}
    (listed : graph.lists channel endpoint = true) :
    (graph.pin? endpoint).isSome = true := by
  obtain ⟨found, present, _⟩ := lists_iff.mp listed
  obtain ⟨pin, pinPresent, _⟩ := mirrored.sameType present listed
  rw [pinPresent, Option.isSome_some]

/-- No end of a channel is on a node that is not there. -/
theorem node_ne_of_lists
    (mirrored : graph.Mirrored) {name channel : String} {endpoint : Endpoint}
    (missing : graph.node? name = none) (listed : graph.lists channel endpoint = true) :
    endpoint.node ≠ name := by
  intro same
  have present := bareNode?_isSome_of_pin? (mirrored.pin?_isSome_of_lists listed)
  rw [same, bareNode?_isSome, missing] at present
  exact Bool.noConfusion present

/-- No end of a channel is on a node of which no pin is bound. -/
theorem node_ne_of_unbound
    (mirrored : graph.Mirrored) {name channel : String} {endpoint : Endpoint}
    (unbound : ∀ pin, graph.binding? ⟨name, pin⟩ = none)
    (listed : graph.lists channel endpoint = true) :
    endpoint.node ≠ name := by
  intro same
  subst same
  have bound := (mirrored.bound_iff endpoint channel).mpr listed
  exact nomatch bound.symm.trans (unbound endpoint.pin)

theorem connection?_isSome_of_lists
    (mirrored : graph.Mirrored) {channel : String} {endpoint : Endpoint}
    (listed : graph.lists channel endpoint = true) :
    (graph.connection? endpoint).isSome = true := by
  rw [mirrored.connection?_isSome, mirrored.pin?_isSome_of_lists listed]

/-- An endpoint is an end of one channel at most. -/
theorem lists_unique
    (mirrored : graph.Mirrored) {first second : String} {endpoint : Endpoint}
    (inFirst : graph.lists first endpoint = true)
    (inSecond : graph.lists second endpoint = true) :
    first = second := by
  have boundFirst := (mirrored.bound_iff endpoint first).mpr inFirst
  have boundSecond := (mirrored.bound_iff endpoint second).mpr inSecond
  rw [boundFirst] at boundSecond
  exact Option.some.inj boundSecond

/-- An endpoint that is not bound is an end of no channel. -/
theorem lists_eq_false_of_unbound
    (mirrored : graph.Mirrored) {endpoint : Endpoint}
    (unbound : graph.binding? endpoint = none) (channel : String) :
    graph.lists channel endpoint = false := by
  rw [Bool.eq_false_iff]
  intro listed
  rw [(mirrored.bound_iff endpoint channel).mpr listed] at unbound
  simp at unbound

end Mirrored

/-- Two graphs whose sides agree are equal when they show the same nodes and channels with the
same ends: the ends say how pins are bound, and the pins say which connections there are. -/
theorem ext_views
    {left right : Graph} (leftMirrored : left.Mirrored) (rightMirrored : right.Mirrored)
    (sameBare : left.bare = right.bare)
    (sameNodes : ∀ name, left.bareNode? name = right.bareNode? name)
    (sameChannels : ∀ name, left.bareChannel? name = right.bareChannel? name)
    (sameEnds : ∀ channel endpoint, left.lists channel endpoint = right.lists channel endpoint) :
    left = right := by
  have sameConnection (endpoint : Endpoint) :
      left.connection? endpoint = right.connection? endpoint := by
    have sameBinding : left.binding? endpoint = right.binding? endpoint := by
      apply Option.ext
      intro channel
      rw [leftMirrored.bound_iff, rightMirrored.bound_iff, sameEnds]
    have sameEntry : (left.connection? endpoint).isSome = (right.connection? endpoint).isSome := by
      rw [leftMirrored.connection?_isSome, rightMirrored.connection?_isSome, pin?_eq, pin?_eq,
        sameNodes]
    rw [binding?_eq, binding?_eq] at sameBinding
    cases inLeft : left.connection? endpoint <;> cases inRight : right.connection? endpoint <;>
      simp_all
  exact ext_records sameBare (fun name => node?_congr (sameNodes name) fun _ => sameConnection _)
    fun name => channel?_congr (sameChannels name) (sameEnds name)

theorem binding?_of_mem_boundPins
    {graph : Graph} {name : String} {node : Node} (present : graph.node? name = some node) :
    ∀ entry ∈ node.boundPins, graph.binding? ⟨name, entry.1⟩ = some entry.2 := by
  intro entry member
  rw [binding?, present, Option.bind_some]
  exact Node.mem_boundPins_iff.mp member

/-! ## Removing -/

namespace Mirrored

variable {graph : Graph}

theorem removeChannel
    (mirrored : graph.Mirrored) (channel : String) :
    (graph.removeChannel channel).Mirrored := by
  have listed_iff (other : String) (endpoint : Endpoint) :
      (graph.removeChannel channel).lists other endpoint = true ↔
        other ≠ channel ∧ graph.lists other endpoint = true := by
    rw [lists_removeChannel, Bool.and_eq_true, decide_eq_true_eq]
  refine of_views ?_ ?_ ?_ ?_ ?_ ?_
  · intro name node present
    rw [bareNode?_removeChannel] at present
    exact mirrored.bareNode_named present
  · intro name found present
    rw [bareChannel?_removeChannel] at present
    split at present
    · simp at present
    · exact mirrored.bareChannel_named present
  · intro endpoint
    rw [pin?_removeChannel, connection?_removeChannel, ← mirrored.connection?_isSome]
    split
    · rename_i listed
      have connected := mirrored.connection?_isSome_of_lists listed
      have nodePresent : (graph.bareNode? endpoint.node).isSome = true := by
        have pinPresent := mirrored.pin?_isSome_of_lists listed
        rw [pin?_eq] at pinPresent
        exact Option.isSome_of_isSome_bind pinPresent
      rw [Option.isSome_map, nodePresent, connected]
    · rfl
  · intro endpoint other
    rw [binding?_removeChannel, listed_iff]
    split
    · rename_i listed
      constructor
      · intro bound
        simp at bound
      · intro both
        obtain ⟨elsewhere, inOther⟩ := both
        exact absurd (mirrored.lists_unique inOther listed) elsewhere
    · rename_i unlisted
      rw [mirrored.bound_iff]
      refine ⟨fun inOther => ⟨?_, inOther⟩, And.right⟩
      intro same
      exact unlisted (same ▸ inOther)
  · intro other first second inFirst inSecond
    exact mirrored.oneOnNode ((listed_iff other first).mp inFirst).2
      ((listed_iff other second).mp inSecond).2
  · intro name found endpoint present listed
    obtain ⟨elsewhere, listed⟩ := (listed_iff name endpoint).mp listed
    rw [bareChannel?_removeChannel, if_neg elsewhere] at present
    rw [pin?_removeChannel]
    exact mirrored.end_sameType present listed

/-- Detaching an end keeps the sides alike, also when the channel goes with it. -/
theorem detach
    (mirrored : graph.Mirrored) {endpoint : Endpoint} {channel : String}
    (listed : graph.lists channel endpoint = true) :
    (graph.detach endpoint channel).Mirrored := by
  refine of_views ?_ ?_ ?_ ?_ ?_ ?_
  · intro name node present
    rw [bareNode?_detach] at present
    exact mirrored.bareNode_named present
  · intro name found present
    rw [bareChannel?_detach] at present
    split at present
    · simp at present
    · exact mirrored.bareChannel_named present
  · intro place
    rw [pin?_detach, ← mirrored.connection?_isSome]
    exact connection?_isSome_detach graph endpoint channel
      (mirrored.connection?_isSome_of_lists listed)
      (fun other => mirrored.connection?_isSome_of_lists) place
  · intro place other
    rw [binding?_detach_iff, lists_detach_iff, mirrored.bound_iff]
    refine and_congr_right fun placeListed => and_congr ?_ (or_congr_right ?_)
    · refine not_congr ⟨fun same => ⟨?_, same⟩, And.right⟩
      exact mirrored.lists_unique (same ▸ placeListed) listed
    · rw [Bool.eq_false_iff]
      refine not_congr ⟨fun inChannel => ?_, fun same => same ▸ placeListed⟩
      exact mirrored.lists_unique placeListed inChannel
  · intro other first second inFirst inSecond
    exact mirrored.oneOnNode ((lists_detach_iff graph endpoint channel).mp inFirst).1
      ((lists_detach_iff graph endpoint channel).mp inSecond).1
  · intro name found place present placeListed
    rw [bareChannel?_detach] at present
    split at present
    · simp at present
    · rw [pin?_detach]
      exact mirrored.end_sameType present
        ((lists_detach_iff graph endpoint channel).mp placeListed).1

/-- No two pins of a node share a channel, so detaching one leaves the others bound. -/
theorem binding?_detach_sibling
    (mirrored : graph.Mirrored) {name pin other channel found : String}
    (listed : graph.lists channel ⟨name, pin⟩ = true) (different : other ≠ pin)
    (bound : graph.binding? ⟨name, other⟩ = some found) :
    (graph.detach ⟨name, pin⟩ channel).binding? ⟨name, other⟩ = some found := by
  have otherPin : (⟨name, other⟩ : Endpoint) ≠ ⟨name, pin⟩ := by
    intro same
    injection same with _ samePin
    exact different samePin
  have otherChannel : graph.lists channel ⟨name, other⟩ = false := by
    rw [Bool.eq_false_iff]
    intro otherListed
    exact otherPin (mirrored.oneOnNode otherListed listed rfl)
  exact (binding?_detach_iff graph _ _).mpr ⟨bound, otherPin, Or.inr otherChannel⟩

theorem binding?_detach_rest
    (mirrored : graph.Mirrored) {name pin channel : String} {rest : List (String × String)}
    (listed : graph.lists channel ⟨name, pin⟩ = true) (fresh : pin ∉ rest.map Prod.fst)
    (bindings : ∀ entry ∈ rest, graph.binding? ⟨name, entry.1⟩ = some entry.2) :
    ∀ entry ∈ rest, (graph.detach ⟨name, pin⟩ channel).binding? ⟨name, entry.1⟩ =
      some entry.2 := by
  intro entry member
  have otherPin : entry.1 ≠ pin := by
    intro samePin
    exact fresh (List.mem_map.mpr ⟨entry, member, samePin⟩)
  exact mirrored.binding?_detach_sibling listed otherPin (bindings entry member)

/-- Detaching pins of one node in turn. No two of them share a channel, so the binding of a
later pin is still there when its turn comes. -/
theorem foldl_detach
    (mirrored : graph.Mirrored) (name : String) (bound : List (String × String))
    (pinsNodup : (bound.map Prod.fst).Nodup)
    (bindings : ∀ entry ∈ bound, graph.binding? ⟨name, entry.1⟩ = some entry.2) :
    let loose := bound.foldl
      (fun current entry => current.detach ⟨name, entry.1⟩ entry.2) graph
    loose.Mirrored ∧ ∀ entry ∈ bound, loose.binding? ⟨name, entry.1⟩ = none := by
  induction bound generalizing graph with
  | nil => exact ⟨mirrored, by simp⟩
  | cons first rest inductionHypothesis =>
      obtain ⟨pin, channel⟩ := first
      obtain ⟨pinFresh, restNodup⟩ := List.nodup_cons.mp pinsNodup
      have firstListed : graph.lists channel ⟨name, pin⟩ = true :=
        (mirrored.bound_iff _ _).mp (bindings (pin, channel) List.mem_cons_self)
      let next := graph.detach ⟨name, pin⟩ channel
      -- The rest is still bound in the next graph: the channel that may go has no other end here.
      have nextMirrored : next.Mirrored := mirrored.detach firstListed
      have restBound : ∀ entry ∈ rest, next.binding? ⟨name, entry.1⟩ = some entry.2 :=
        mirrored.binding?_detach_rest firstListed pinFresh (List.forall_mem_cons.mp bindings).2
      obtain ⟨looseMirrored, looseUnbound⟩ :=
        inductionHypothesis nextMirrored restNodup restBound
      have looseShrinks := Shrinks.foldl_detach next name rest
      refine ⟨looseMirrored, ?_⟩
      intro entry member
      rcases List.mem_cons.mp member with rfl | inRest
      · -- The first pin was set free at once, and later steps bind nothing.
        rw [Option.eq_none_iff_forall_ne_some]
        intro found stillBound
        have inNext := looseShrinks.binding stillBound
        exact ((binding?_detach_iff graph _ _).mp inNext).2.1 rfl
      · exact looseUnbound entry inRest

/-- Once the bound pins of a node are detached, none of its pins is bound. -/
theorem detach_boundPins
    (mirrored : graph.Mirrored) {name : String} {node : Node}
    (present : graph.node? name = some node) :
    let loose := node.boundPins.foldl
      (fun current entry => current.detach ⟨name, entry.1⟩ entry.2) graph
    loose.Mirrored ∧ ∀ pin, loose.binding? ⟨name, pin⟩ = none := by
  intro loose
  obtain ⟨looseMirrored, unbound⟩ := mirrored.foldl_detach name node.boundPins
    node.boundPins_pins_nodup (binding?_of_mem_boundPins present)
  refine ⟨looseMirrored, ?_⟩
  intro pin
  -- A pin that is bound at the end was bound at the start, and so it was one of those detached.
  rw [Option.eq_none_iff_forall_ne_some]
  intro channel stillBound
  have wasBound := (Shrinks.foldl_detach graph name node.boundPins).binding stillBound
  rw [binding?, present, Option.bind_some] at wasBound
  have gone := unbound (pin, channel) (Node.mem_boundPins_iff.mpr wasBound)
  rw [stillBound] at gone
  simp at gone

/-- A node of which no pin is bound can be dropped. -/
theorem dropNode
    (mirrored : graph.Mirrored) {name : String}
    (unbound : ∀ pin, graph.binding? ⟨name, pin⟩ = none) :
    (graph.dropNode name).Mirrored := by
  have elsewhere {channel : String} {endpoint : Endpoint}
      (listed : graph.lists channel endpoint = true) : endpoint.node ≠ name :=
    mirrored.node_ne_of_unbound unbound listed
  refine of_views ?_ ?_ ?_ ?_ ?_ ?_
  · intro other node present
    rw [bareNode?, node?_dropNode] at present
    split at present
    · simp at present
    · exact mirrored.bareNode_named present
  · exact mirrored.bareChannel_named
  · intro endpoint
    rw [connection?_dropNode, pin?_dropNode]
    split
    · rfl
    · exact mirrored.connection?_isSome endpoint
  · intro endpoint channel
    rw [binding?_dropNode, lists_dropNode, ← mirrored.bound_iff]
    split
    · rename_i same
      subst same
      rw [unbound endpoint.pin]
    · rfl
  · exact mirrored.oneOnNode
  · intro other channel endpoint present listed
    rw [pin?_dropNode, if_neg (elsewhere listed)]
    exact mirrored.end_sameType present listed

end Mirrored

end Graph

end Pipework
