import Pipework.Proofs.Graph.InPlace
import Pipework.Proofs.Graph.Rename

/-!
# What a request keeps

A request changes a graph in place. When it is granted it leaves the graph that `Graph.apply`
gives, and when it is refused it leaves the graph as it was. The main statement is that the two
sides of a graph still agree after any request, whatever its channels look like
(`Graph.mirrored_step`).
-/

namespace Pipework

namespace Graph

/-- The graph that a request leaves, granted or refused, when it is made in place. -/
def step (registry : Registry) (graph : Graph) (request : Request) : Graph :=
  ((InPlace.apply registry request).on graph).2

section Outcomes

variable {registry : Registry} {graph next : Graph} {request : Request}

theorem step_of_granted
    (granted : graph.apply registry request = .ok next) :
    graph.step registry request = next := by
  rw [step, InPlace.apply_on, granted]
  rfl

theorem step_of_refused
    {error : Error} (refused : graph.apply registry request = .error error) :
    graph.step registry request = graph := by
  rw [step, InPlace.apply_on, refused]
  rfl

end Outcomes

namespace Mirrored

variable {graph : Graph}

/-! ## Changes of nodes -/

theorem empty
    (name packagePath : String) (isCommand : Bool) :
    (Graph.empty name packagePath isCommand).Mirrored where
  nodeNamed present := by simp [node?, Graph.empty] at present
  channelNamed present := by simp [channel?, Graph.empty] at present
  connected present := by simp [node?, Graph.empty] at present
  bound_iff endpoint channel := by
    simp [Graph.binding?, node?, lists, channel?, Graph.empty]
  oneOnNode listed := by simp [lists, channel?, Graph.empty] at listed
  sameType present := by simp [channel?, Graph.empty] at present

/-- A node with a free name can be added with no pin bound. -/
theorem putNode
    (mirrored : graph.Mirrored) (node : Node)
    (free : graph.node? node.name = none)
    (unbound : node.connections = Node.unbound node.part) :
    (graph.putNode node.name node).Mirrored := by
  have elsewhere {channel : String} {endpoint : Endpoint}
      (listed : graph.lists channel endpoint = true) : endpoint.node ≠ node.name :=
    mirrored.node_ne_of_lists free listed
  refine of_views ?_ ?_ ?_ ?_ ?_ ?_
  · intro name found present
    rw [bareNode?, node?_putNode] at present
    split at present
    · rename_i same
      rw [same, ← Option.some.inj present]
      rfl
    · exact mirrored.bareNode_named present
  · exact mirrored.bareChannel_named
  · intro endpoint
    rw [connection?_putNode, pin?_putNode]
    split
    · rw [Bool.eq_iff_iff, Part.pin?_isSome_iff, unbound, Node.get?_unbound]
      split <;> simp [*]
    · exact mirrored.connection?_isSome endpoint
  · intro endpoint channel
    rw [binding?_putNode, lists_putNode]
    split
    · rename_i same
      have notListed : graph.lists channel endpoint = false := by
        rw [Bool.eq_false_iff]
        exact fun listed => elsewhere listed same
      rw [notListed, Node.binding?, unbound, Node.get?_unbound]
      split <;> simp
    · exact mirrored.bound_iff endpoint channel
  · exact mirrored.oneOnNode
  · intro name channel endpoint present listed
    rw [pin?_putNode, if_neg (elsewhere listed)]
    exact mirrored.end_sameType present listed

/-- A channel with a free name can be added without ends. -/
theorem putChannel
    (mirrored : graph.Mirrored) (channel : Channel)
    (free : graph.channel? channel.name = none)
    (endless : channel.ends = Table.empty) :
    (graph.putChannel channel.name channel).Mirrored := by
  have listed_iff (name : String) (endpoint : Endpoint) :
      (graph.putChannel channel.name channel).lists name endpoint =
        graph.lists name endpoint := by
    rw [lists_putChannel]
    split
    · rename_i same
      rw [same, endless, lists, free]
      rfl
    · rfl
  refine of_views mirrored.bareNode_named ?_ mirrored.connection?_isSome ?_ ?_ ?_
  · intro name found present
    rw [bareChannel?_putChannel] at present
    split at present
    · rename_i same
      rw [same, ← Option.some.inj present]
      rfl
    · exact mirrored.bareChannel_named present
  · intro endpoint name
    rw [listed_iff]
    exact mirrored.bound_iff endpoint name
  · intro name first second inFirst inSecond
    rw [listed_iff] at inFirst inSecond
    exact mirrored.oneOnNode inFirst inSecond
  · intro name found endpoint present listed
    rw [listed_iff] at listed
    have elsewhere : name ≠ channel.name := by
      intro same
      subst same
      rw [lists, free] at listed
      exact Bool.noConfusion listed
    rw [bareChannel?_putChannel, if_neg elsewhere] at present
    exact mirrored.end_sameType present listed

theorem place
    (mirrored : graph.Mirrored) (request : SetPosition) :
    (graph.place request).Mirrored := by
  refine of_views ?_ mirrored.bareChannel_named ?_ ?_ mirrored.oneOnNode ?_
  · intro name node present
    have named := node?_place_bind graph request
      (fun node => some node.name) (fun _ => rfl) name
    rw [bareNode?] at present
    obtain ⟨found, foundPresent, rfl⟩ := Option.map_eq_some_iff.mp present
    rw [foundPresent, Option.bind_some, eq_comm, Option.bind_eq_some_iff] at named
    obtain ⟨old, oldPresent, sameName⟩ := named
    rw [← mirrored.nodeNamed oldPresent]
    exact (Option.some.inj sameName).symm
  · intro endpoint
    rw [connection?_place, pin?_place]
    exact mirrored.connection?_isSome endpoint
  · intro endpoint channel
    rw [binding?_place]
    exact mirrored.bound_iff endpoint channel
  · intro name channel endpoint present listed
    rw [pin?_place]
    exact mirrored.end_sameType present listed

/-- A node can be replaced when its new name is free and none of its bound pins is lost. -/
theorem replaceNode
    (mirrored : graph.Mirrored) {request : SetNodeProperties} {node : Node} {part : Part}
    (present : graph.node? request.node = some node)
    (free : request.name = request.node ∨ graph.node? request.name = none)
    (kept : lostPins node part = []) :
    (graph.replaceNode request (request.outcome node part)).Mirrored := by
  have listed_iff := lists_replaceNode mirrored present free kept
  refine of_views ?_ ?_ ?_ ?_ ?_ ?_
  · intro name found foundPresent
    rw [bareNode?, node?_replaceNode] at foundPresent
    split at foundPresent
    · rename_i same
      rw [← Option.some.inj foundPresent, same]
      by_cases renamed : request.name ≠ request.node
      · simp [Node.bare, SetNodeProperties.outcome, renamed]
      · have sameName : request.name = request.node := Decidable.not_not.mp renamed
        simp [Node.bare, SetNodeProperties.outcome, sameName, mirrored.nodeNamed present]
    · split at foundPresent
      · simp at foundPresent
      · exact mirrored.bareNode_named foundPresent
  · intro name channel channelPresent
    rw [bareChannel?_replaceNode] at channelPresent
    exact mirrored.bareChannel_named channelPresent
  · intro endpoint
    rw [connection?_replaceNode, pin?_replaceNode]
    split
    · show ((keptConnections node part).get? endpoint.pin).isSome =
        (part.pin? endpoint.pin).isSome
      rw [Bool.eq_iff_iff, Part.pin?_isSome_iff, get?_keptConnections]
      split <;> simp [*]
    · split
      · rfl
      · exact mirrored.connection?_isSome endpoint
  · intro endpoint channel
    rw [binding?_replaceNode present kept, listed_iff, Option.bind_eq_some_iff]
    simp only [mirrored.bound_iff]
  · intro channel first second inFirst inSecond sameNode
    obtain ⟨firstOrigin, isFirst, firstListed⟩ := (listed_iff channel first).mp inFirst
    obtain ⟨secondOrigin, isSecond, secondListed⟩ := (listed_iff channel second).mp inSecond
    have sameOriginNode : firstOrigin.node = secondOrigin.node :=
      origin?_node_congr isFirst isSecond sameNode
    have sameOrigin := mirrored.oneOnNode firstListed secondListed sameOriginNode
    exact origin?_injective isFirst (sameOrigin ▸ isSecond) sameNode
  · intro name channel endpoint channelPresent listed
    obtain ⟨origin, isOrigin, originListed⟩ := (listed_iff name endpoint).mp listed
    rw [bareChannel?_replaceNode] at channelPresent
    obtain ⟨pin, pinPresent, sameType⟩ := mirrored.end_sameType channelPresent originListed
    obtain ⟨newPin, newPinPresent, typeKept, _⟩ :=
      pin?_replaceNode_of_origin mirrored present kept isOrigin originListed pinPresent
    exact ⟨newPin, newPinPresent, typeKept.symm.trans sameType⟩

/-! ## Changes of channels -/

/-- Two pins that are not bound are bound to the channel that is added between them, as the
channel says. -/
theorem bound_iff_addChannel
    (mirrored : graph.Mirrored) {request : CreateChannel}
    (firstPresent : (graph.pin? request.first).isSome = true)
    (secondPresent : (graph.pin? request.second).isSome = true)
    (firstUnbound : graph.binding? request.first = none)
    (secondUnbound : graph.binding? request.second = none)
    (free : graph.channel? request.name = none)
    (endpoint : Endpoint) (channel : String) :
    (graph.addChannel request).binding? endpoint = some channel ↔
      (graph.addChannel request).lists channel endpoint = true := by
  have notListed : graph.lists request.name endpoint = false := by
    rw [lists, free, Option.any_none]
  rw [binding?_addChannel firstPresent secondPresent, lists_addChannel_iff]
  by_cases atEnd : endpoint = request.first ∨ endpoint = request.second
  · have unbound : graph.binding? endpoint = none := by
      rcases atEnd with same | same
      · rw [same, firstUnbound]
      · rw [same, secondUnbound]
    have elsewhere := mirrored.lists_eq_false_of_unbound unbound channel
    rw [if_pos atEnd, Option.some.injEq, elsewhere]
    simp [atEnd, eq_comm]
  · rw [if_neg atEnd, mirrored.bound_iff]
    split
    · rename_i same
      rw [same, notListed]
      simp [atEnd]
    · rfl

/-- A channel with a free name can be added between two pins of different nodes that are not
bound and have its type. -/
theorem addChannel
    (mirrored : graph.Mirrored) {request : CreateChannel} {firstPin secondPin : Pin}
    (first : graph.pin? request.first = some firstPin)
    (second : graph.pin? request.second = some secondPin)
    (firstUnbound : graph.binding? request.first = none)
    (secondUnbound : graph.binding? request.second = none)
    (free : graph.channel? request.name = none)
    (different : request.first.node ≠ request.second.node)
    (firstType : firstPin.type = request.type) (secondType : secondPin.type = request.type) :
    (graph.addChannel request).Mirrored := by
  have firstPresent : (graph.pin? request.first).isSome = true :=
    Option.isSome_of_eq_some first
  have secondPresent : (graph.pin? request.second).isSome = true :=
    Option.isSome_of_eq_some second
  refine of_views ?_ ?_ ?_ ?_ ?_ ?_
  · intro name node present
    rw [bareNode?_addChannel] at present
    exact mirrored.bareNode_named present
  · intro name channel present
    rw [bareChannel?_addChannel] at present
    split at present
    · rename_i same
      rw [same, ← Option.some.inj present]
      rfl
    · exact mirrored.bareChannel_named present
  · intro endpoint
    rw [pin?_addChannel, ← mirrored.connection?_isSome, Graph.addChannel,
      connection?_putChannel, connection?_isSome_bind, connection?_isSome_bind]
    · rw [mirrored.connection?_isSome, firstPresent]
    · rw [connection?_isSome_bind _ _ _ _ (by rw [mirrored.connection?_isSome, firstPresent]),
        mirrored.connection?_isSome, secondPresent]
  · exact mirrored.bound_iff_addChannel firstPresent secondPresent firstUnbound secondUnbound free
  · intro channel one other inOne inOther sameNode
    rw [lists_addChannel_iff] at inOne inOther
    split at inOne
    · rename_i same
      rw [if_pos same] at inOther
      rcases inOne with rfl | rfl <;> rcases inOther with rfl | rfl
      · rfl
      · exact absurd sameNode different
      · exact absurd sameNode.symm different
      · rfl
    · rename_i elsewhere
      rw [if_neg elsewhere] at inOther
      exact mirrored.oneOnNode inOne inOther sameNode
  · intro name channel endpoint present listed
    rw [bareChannel?_addChannel] at present
    rw [lists_addChannel_iff] at listed
    rw [pin?_addChannel]
    split at present
    · rename_i same
      rw [if_pos same] at listed
      rw [← Option.some.inj present]
      rcases listed with rfl | rfl
      · exact ⟨firstPin, first, firstType⟩
      · exact ⟨secondPin, second, secondType⟩
    · rename_i elsewhere
      rw [if_neg elsewhere] at listed
      exact mirrored.end_sameType present listed

/-- A pin that is not bound can be attached to a channel of its type that has no end on its
node. -/
theorem attach
    (mirrored : graph.Mirrored) {endpoint : Endpoint} {channel : String} {pin : Pin}
    {found : Channel}
    (pinPresent : graph.pin? endpoint = some pin)
    (present : graph.channel? channel = some found)
    (unbound : graph.binding? endpoint = none)
    (alone : ∀ other, found.ends.contains other = true → other.node ≠ endpoint.node)
    (sameType : pin.type = found.type) :
    (graph.attach endpoint channel).Mirrored := by
  have pinIsSome : (graph.pin? endpoint).isSome = true := Option.isSome_of_eq_some pinPresent
  have channelIsSome : (graph.channel? channel).isSome = true :=
    Option.isSome_of_eq_some present
  have apart {other : Endpoint} (listed : graph.lists channel other = true) :
      other.node ≠ endpoint.node := by
    rw [lists_of_channel? present] at listed
    exact alone other listed
  refine of_views ?_ ?_ ?_ ?_ ?_ ?_
  · intro name node nodePresent
    rw [bareNode?_attach] at nodePresent
    exact mirrored.bareNode_named nodePresent
  · intro name other otherPresent
    rw [bareChannel?_attach] at otherPresent
    exact mirrored.bareChannel_named otherPresent
  · intro other
    rw [pin?_attach, ← mirrored.connection?_isSome, Graph.attach, connection?_changeEnds,
      connection?_isSome_bind]
    rw [mirrored.connection?_isSome, pinIsSome]
  · intro other name
    rw [binding?_attach pinIsSome, lists_attach_iff channelIsSome]
    split
    · rename_i same
      subst same
      rw [Option.some.injEq, mirrored.lists_eq_false_of_unbound unbound name]
      simp [eq_comm]
    · rename_i elsewhere
      rw [mirrored.bound_iff]
      simp [elsewhere]
  · intro name first second inFirst inSecond sameNode
    rw [lists_attach_iff channelIsSome] at inFirst inSecond
    rcases inFirst with ⟨rfl, rfl⟩ | inFirst
    · rcases inSecond with ⟨_, rfl⟩ | inSecond
      · rfl
      · exact absurd sameNode.symm (apart inSecond)
    · rcases inSecond with ⟨rfl, rfl⟩ | inSecond
      · exact absurd sameNode (apart inFirst)
      · exact mirrored.oneOnNode inFirst inSecond sameNode
  · intro name other place otherPresent listed
    rw [bareChannel?_attach] at otherPresent
    rw [pin?_attach]
    rcases (lists_attach_iff channelIsSome _ _ _).mp listed with ⟨rfl, rfl⟩ | listed
    · rw [bareChannel?_eq_some present] at otherPresent
      rw [← Option.some.inj otherPresent]
      exact ⟨pin, pinPresent, sameType⟩
    · exact mirrored.end_sameType otherPresent listed

/-! ## All changes -/

theorem disconnectPin
    (mirrored : graph.Mirrored) {endpoint : Endpoint} {next : Graph}
    (granted : graph.disconnectPin endpoint = .ok next) :
    next.Mirrored := by
  obtain ⟨_, rfl⟩ := disconnectPin_eq_ok_iff.mp granted
  cases bound : graph.binding? endpoint with
  | none => exact mirrored
  | some channel => exact mirrored.detach ((mirrored.bound_iff endpoint channel).mp bound)

/-- A node is dropped from a graph in which its pins are detached. -/
theorem deleteNode_loose
    (mirrored : graph.Mirrored) {name : String} {next : Graph}
    (granted : graph.deleteNode name = .ok next) :
    ∃ loose : Graph, loose.Mirrored ∧ Shrinks graph loose ∧
      (∀ pin, loose.binding? ⟨name, pin⟩ = none) ∧ next = loose.dropNode name := by
  obtain ⟨node, present, rfl⟩ := deleteNode_eq_ok_iff.mp granted
  obtain ⟨looseMirrored, unbound⟩ := mirrored.detach_boundPins present
  exact ⟨_, looseMirrored, Shrinks.foldl_detach graph name node.boundPins, unbound, rfl⟩

/-- A granted request keeps the two sides alike. -/
theorem of_apply
    (mirrored : graph.Mirrored) {registry : Registry} {request : Request} {next : Graph}
    (granted : graph.apply registry request = .ok next) :
    next.Mirrored := by
  cases request with
  | createNode request =>
      obtain ⟨_, free, _, part, _, rfl⟩ := createNode_eq_ok_iff.mp granted
      exact mirrored.putNode (request.node part) free rfl
  | createChannel request =>
      obtain ⟨firstPin, first, secondPin, second, firstUnbound, secondUnbound, _, free,
        different, firstType, secondType, _, rfl⟩ := createChannel_eq_ok_iff.mp granted
      exact mirrored.addChannel first second firstUnbound secondUnbound free different
        firstType secondType
  | connectPin request =>
      obtain ⟨pin, pinPresent, found, present, unbound, alone, sameType, rfl⟩ :=
        connectPin_eq_ok_iff.mp granted
      exact mirrored.attach pinPresent present unbound alone sameType
  | disconnectPin endpoint => exact mirrored.disconnectPin granted
  | deleteNode name =>
      obtain ⟨loose, looseMirrored, _, unbound, rfl⟩ := mirrored.deleteNode_loose granted
      exact looseMirrored.dropNode unbound
  | deleteChannel channel =>
      obtain ⟨_, rfl⟩ := deleteChannel_eq_ok_iff.mp granted
      exact mirrored.removeChannel channel
  | setNodeProperties request =>
      obtain ⟨node, present, _, free, _, part, _, kept, rfl⟩ :=
        setNodeProperties_eq_ok_iff.mp granted
      exact mirrored.replaceNode present free kept
  | setGraphProperties request =>
      rw [← Except.ok.inj granted]
      exact ⟨mirrored.nodeNamed, mirrored.channelNamed, mirrored.connected, mirrored.bound_iff,
        mirrored.oneOnNode, mirrored.sameType⟩
  | setPosition request =>
      obtain ⟨_, rfl⟩ := setPosition_eq_ok_iff.mp granted
      exact mirrored.place request
  | save =>
      rw [← Except.ok.inj granted]
      exact mirrored

end Mirrored

/-- What every granted request keeps, every request keeps. -/
theorem step_induction
    {motive : Graph → Prop} {registry : Registry} {graph : Graph}
    (before : motive graph) (request : Request)
    (granted : ∀ {next}, graph.apply registry request = .ok next → motive next) :
    motive (graph.step registry request) := by
  cases outcome : graph.apply registry request with
  | ok next =>
      rw [step_of_granted outcome]
      exact granted outcome
  | error error =>
      rw [step_of_refused outcome]
      exact before

/-- The two sides of a graph agree after any request, granted or refused, whatever its channels
look like. -/
theorem mirrored_step
    (registry : Registry) (graph : Graph) (request : Request)
    (mirrored : graph.Mirrored) :
    (graph.step registry request).Mirrored := by
  refine step_induction mirrored request ?_
  intro next granted
  exact mirrored.of_apply granted

/-- A node whose only pin is the only end of a channel. -/
def oneEnded : Graph :=
  let drain : CreateNode := ⟨"drain", "Sink", .null, true, true, 1, 0, 0⟩
  let stray : Channel := ⟨"stray", "int", 0, false, Table.empty⟩
  (((empty "g" "p" false).putNode "drain" (drain.node (.sink ⟨"int"⟩))).putChannel "stray"
    stray).attach ⟨"drain", "input"⟩ "stray"

/-- When the node of a one-ended channel is deleted, the channel goes with it, and the two
sides of what is left agree. -/
theorem mirrored_step_oneEnded :
    oneEnded.Mirrored ∧ oneEnded.lists "stray" ⟨"drain", "input"⟩ = true ∧
      (oneEnded.step Registry.builtin (.deleteNode "drain")).Mirrored ∧
      oneEnded.step Registry.builtin (.deleteNode "drain") = empty "g" "p" false := by
  have start : oneEnded.Mirrored := by
    have withNode := (Mirrored.empty "g" "p" false).putNode
      (CreateNode.node ⟨"drain", "Sink", .null, true, true, 1, 0, 0⟩ (.sink ⟨"int"⟩)) rfl rfl
    have withChannel := withNode.putChannel ⟨"stray", "int", 0, false, Table.empty⟩ rfl rfl
    refine withChannel.attach rfl rfl rfl ?_ rfl
    intro other listed
    exact Bool.noConfusion listed
  exact ⟨start, by decide,
    mirrored_step Registry.builtin oneEnded (.deleteNode "drain") start, by decide⟩

end Graph

end Pipework
