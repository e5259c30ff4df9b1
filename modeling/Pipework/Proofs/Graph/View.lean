import Pipework.Graph.Edit
import Pipework.Proofs.Table

/-!
# Views of a graph

Changes of a graph are small steps on two tables of records. What a graph is shows in four
questions: what a node is apart from its connections (`Graph.bareNode?`), what an endpoint is
connected to (`Graph.connection?`), what a channel is apart from its ends
(`Graph.bareChannel?`), and which ends it lists (`Graph.lists`). This module answers them after
each step, so that no later proof opens a table.
-/

namespace Pipework

/-! ## Parts and connections -/

/-- A node without its connections. -/
def Node.bare (node : Node) : Node := { node with connections := Table.empty }

/-- A channel without its ends. -/
def Channel.bare (channel : Channel) : Channel := { channel with ends := Table.empty }

/-- Nodes that differ at most in their connections, and do not, are equal. -/
theorem Node.eq_of_bare
    {left right : Node} (sameBare : left.bare = right.bare)
    (sameConnections : left.connections = right.connections) :
    left = right := by
  cases left
  cases right
  simp only [Node.bare, Node.mk.injEq, and_true] at sameBare sameConnections ⊢
  simp only [sameBare, sameConnections, and_self]

/-- Channels that differ at most in their ends, and do not, are equal. -/
theorem Channel.eq_of_bare
    {left right : Channel} (sameBare : left.bare = right.bare)
    (sameEnds : left.ends = right.ends) :
    left = right := by
  cases left
  cases right
  simp only [Channel.bare, Channel.mk.injEq, and_true] at sameBare sameEnds ⊢
  simp only [sameBare, sameEnds, and_self]

theorem Node.mem_boundPins_iff
    {node : Node} {pin channel : String} :
    (pin, channel) ∈ node.boundPins ↔ node.binding? pin = some channel := by
  rw [Node.boundPins, List.mem_filterMap, Node.binding?, Option.join_eq_some_iff]
  constructor
  · intro found
    obtain ⟨⟨name, connection⟩, member, shown⟩ := found
    obtain ⟨found, rfl, same⟩ := Option.map_eq_some_iff.mp shown
    injection same with samePin sameChannel
    subst samePin sameChannel
    exact Table.mem_entries_iff.mp member
  · intro found
    exact ⟨(pin, some channel), Table.mem_entries_iff.mpr found, rfl⟩

theorem Node.boundPins_pins_nodup
    (node : Node) :
    (node.boundPins.map Prod.fst).Nodup := by
  refine List.Nodup.sublist ?_ node.connections.keys_nodup
  rw [Node.boundPins, Table.keys]
  induction node.connections.entries with
  | nil => exact List.Sublist.refl []
  | cons head rest inductionHypothesis =>
      obtain ⟨pin, connection⟩ := head
      cases connection with
      | none => exact List.Sublist.cons _ inductionHypothesis
      | some channel => exact List.Sublist.cons_cons _ inductionHypothesis

/-- A part has a pin with a name exactly when a pin of the list is called so. -/
theorem Part.pin?_isSome_iff
    {part : Part} {name : String} :
    (part.pin? name).isSome = true ↔ name ∈ part.pins.map Pin.name := by
  rw [Part.pin?, findPin, List.find?_isSome, List.mem_map]
  simp only [decide_eq_true_eq]

theorem Node.get?_unbound
    (part : Part) (name : String) :
    (Node.unbound part).get? name =
      if name ∈ part.pins.map Pin.name then some none else none :=
  Table.get?_ofList_map part.pins Pin.name (fun _ => none) name

namespace Graph

/-! ## The four questions -/

/-- A graph without its nodes and channels. -/
def bare (graph : Graph) : Graph := { graph with nodes := Table.empty, channels := Table.empty }

theorem bare_eq_iff
    {left right : Graph} :
    left.bare = right.bare ↔
      left.name = right.name ∧ left.packagePath = right.packagePath ∧
        left.isCommand = right.isCommand := by
  simp only [bare, Graph.mk.injEq, and_true]

/-- Graphs with the same properties in which the same records are found are equal. -/
theorem ext_records
    {left right : Graph} (sameBare : left.bare = right.bare)
    (sameNodes : ∀ name, left.node? name = right.node? name)
    (sameChannels : ∀ name, left.channel? name = right.channel? name) :
    left = right := by
  have nodesEqual : left.nodes = right.nodes := Table.ext_get? sameNodes
  have channelsEqual : left.channels = right.channels := Table.ext_get? sameChannels
  cases left
  cases right
  simp_all [bare]

/-- The node with a name, without its connections. -/
def bareNode? (graph : Graph) (name : String) : Option Node := (graph.node? name).map Node.bare

/-- The connection of an endpoint, if its node has the pin: the channel, or nothing when the pin
is not bound. -/
def connection? (graph : Graph) (endpoint : Endpoint) : Option (Option String) :=
  (graph.node? endpoint.node).bind fun node => node.connections.get? endpoint.pin

/-- The channel with a name, without its ends. -/
def bareChannel? (graph : Graph) (name : String) : Option Channel :=
  (graph.channel? name).map Channel.bare

/-- Whether a channel is there and has the endpoint among its ends. -/
def lists (graph : Graph) (channel : String) (endpoint : Endpoint) : Bool :=
  (graph.channel? channel).any fun found => found.ends.contains endpoint

theorem binding?_eq
    (graph : Graph) (endpoint : Endpoint) :
    graph.binding? endpoint = (graph.connection? endpoint).join := by
  rw [binding?, connection?]
  cases graph.node? endpoint.node <;> rfl

theorem pin?_eq
    (graph : Graph) (endpoint : Endpoint) :
    graph.pin? endpoint =
      (graph.bareNode? endpoint.node).bind fun node => node.part.pin? endpoint.pin := by
  rw [pin?, bareNode?]
  cases graph.node? endpoint.node <;> rfl

theorem bareNode?_isSome_of_pin?
    {graph : Graph} {endpoint : Endpoint}
    (present : (graph.pin? endpoint).isSome = true) :
    (graph.bareNode? endpoint.node).isSome = true := by
  rw [pin?_eq] at present
  exact Option.isSome_of_isSome_bind present

theorem bareNode?_isSome
    (graph : Graph) (name : String) :
    (graph.bareNode? name).isSome = (graph.node? name).isSome := by
  rw [bareNode?, Option.isSome_map]

theorem bareChannel?_isSome
    (graph : Graph) (name : String) :
    (graph.bareChannel? name).isSome = (graph.channel? name).isSome := by
  rw [bareChannel?, Option.isSome_map]

theorem lists_iff
    {graph : Graph} {channel : String} {endpoint : Endpoint} :
    graph.lists channel endpoint = true ↔
      ∃ found, graph.channel? channel = some found ∧ found.ends.contains endpoint = true := by
  rw [lists, Option.any_eq_true_iff_get]
  constructor
  · intro both
    obtain ⟨present, inside⟩ := both
    exact ⟨_, Option.eq_some_of_isSome present, inside⟩
  · intro listed
    obtain ⟨found, present, inside⟩ := listed
    refine ⟨by rw [present]; rfl, ?_⟩
    simpa [present] using inside

theorem lists_of_channel?
    {graph : Graph} {channel : String} {found : Channel}
    (present : graph.channel? channel = some found) (endpoint : Endpoint) :
    graph.lists channel endpoint = found.ends.contains endpoint := by
  rw [lists, present, Option.any_some]

/-- Channels are the same when they look alike without their ends and list the same ends. -/
theorem channel?_congr
    {left right : Graph} {name : String}
    (sameChannel : left.bareChannel? name = right.bareChannel? name)
    (sameEnds : ∀ endpoint, left.lists name endpoint = right.lists name endpoint) :
    left.channel? name = right.channel? name := by
  rw [bareChannel?, bareChannel?] at sameChannel
  simp only [lists] at sameEnds
  cases inLeft : left.channel? name with
  | none =>
      rw [inLeft, Option.map_none, eq_comm, Option.map_eq_none_iff] at sameChannel
      rw [sameChannel]
  | some found =>
      rw [inLeft, Option.map_some, eq_comm, Option.map_eq_some_iff] at sameChannel
      obtain ⟨other, inRight, sameBare⟩ := sameChannel
      simp only [inLeft, inRight, Option.any_some] at sameEnds
      rw [inRight]
      exact congrArg some (Channel.eq_of_bare sameBare.symm (KeySet.ext_contains sameEnds))

/-- Nodes are the same when they look alike without their connections and are connected alike. -/
theorem node?_congr
    {left right : Graph} {name : String}
    (sameNode : left.bareNode? name = right.bareNode? name)
    (sameConnections : ∀ pin, left.connection? ⟨name, pin⟩ = right.connection? ⟨name, pin⟩) :
    left.node? name = right.node? name := by
  rw [bareNode?, bareNode?] at sameNode
  simp only [connection?] at sameConnections
  cases inLeft : left.node? name with
  | none =>
      rw [inLeft, Option.map_none, eq_comm, Option.map_eq_none_iff] at sameNode
      rw [sameNode]
  | some node =>
      rw [inLeft, Option.map_some, eq_comm, Option.map_eq_some_iff] at sameNode
      obtain ⟨other, inRight, sameBare⟩ := sameNode
      simp only [inLeft, inRight, Option.bind_some] at sameConnections
      rw [inRight]
      exact congrArg some (Node.eq_of_bare sameBare.symm (Table.ext_get? sameConnections))

/-! ## Binding -/

section Bind

variable (graph : Graph) (endpoint other : Endpoint) (connection : Option String)

theorem node?_bind
    (name : String) :
    (graph.bind endpoint connection).node? name =
      if name = endpoint.node then
        (graph.node? endpoint.node).map fun node =>
          { node with connections := node.connections.insert endpoint.pin connection }
      else graph.node? name :=
  Table.get?_modify graph.nodes endpoint.node name _

@[simp] theorem bareNode?_bind
    (name : String) :
    (graph.bind endpoint connection).bareNode? name = graph.bareNode? name := by
  rw [bareNode?, bareNode?, node?_bind]
  split
  · rename_i same
    rw [same, Option.map_map]
    rfl
  · rfl

@[simp] theorem pin?_bind :
    (graph.bind endpoint connection).pin? other = graph.pin? other := by
  rw [pin?_eq, pin?_eq, bareNode?_bind]

@[simp] theorem bareChannel?_bind
    (channel : String) :
    (graph.bind endpoint connection).bareChannel? channel = graph.bareChannel? channel := rfl

@[simp] theorem lists_bind
    (channel : String) :
    (graph.bind endpoint connection).lists channel other = graph.lists channel other := rfl

theorem connection?_bind :
    (graph.bind endpoint connection).connection? other =
      if other = endpoint then (graph.bareNode? endpoint.node).map fun _ => connection
      else graph.connection? other := by
  obtain ⟨node, pin⟩ := endpoint
  obtain ⟨otherNode, otherPin⟩ := other
  rw [connection?, connection?, bareNode?, node?_bind]
  by_cases sameNode : otherNode = node
  · subst sameNode
    cases graph.node? otherNode with
    | none => simp
    | some found => by_cases samePin : otherPin = pin <;> simp [samePin]
  · simp [sameNode]

/-- To bind a pin that is there binds it and leaves all others. -/
theorem binding?_bind_of_pin?
    (present : (graph.pin? endpoint).isSome = true) :
    (graph.bind endpoint connection).binding? other =
      if other = endpoint then connection else graph.binding? other := by
  rw [binding?_eq, binding?_eq, connection?_bind]
  split
  · obtain ⟨node, nodePresent⟩ :=
      Option.isSome_iff_exists.mp (bareNode?_isSome_of_pin? present)
    rw [nodePresent]
    rfl
  · rfl

/-- To bind a pin that is there leaves the entries of all connections where they are. -/
theorem connection?_isSome_bind
    (present : (graph.connection? endpoint).isSome = true) :
    ((graph.bind endpoint connection).connection? other).isSome =
      (graph.connection? other).isSome := by
  rw [connection?_bind]
  split
  · rename_i same
    rw [same, present, Option.isSome_map, bareNode?_isSome]
    rw [connection?] at present
    exact Option.isSome_of_isSome_bind present
  · rfl

/-- To unbind a pin makes it unbound and leaves all others. -/
theorem binding?_unbind :
    (graph.bind endpoint none).binding? other =
      if other = endpoint then none else graph.binding? other := by
  rw [binding?_eq, binding?_eq, connection?_bind]
  split
  · cases graph.bareNode? endpoint.node <;> rfl
  · rfl

end Bind

/-! ## Ends -/

section Ends

variable (graph : Graph) (channel : String) (change : KeySet Endpoint → KeySet Endpoint)

@[simp] theorem bareNode?_changeEnds
    (name : String) :
    (graph.changeEnds channel change).bareNode? name = graph.bareNode? name := rfl

@[simp] theorem connection?_changeEnds
    (endpoint : Endpoint) :
    (graph.changeEnds channel change).connection? endpoint = graph.connection? endpoint := rfl

@[simp] theorem binding?_changeEnds
    (endpoint : Endpoint) :
    (graph.changeEnds channel change).binding? endpoint = graph.binding? endpoint := rfl

@[simp] theorem pin?_changeEnds
    (endpoint : Endpoint) :
    (graph.changeEnds channel change).pin? endpoint = graph.pin? endpoint := rfl

theorem channel?_changeEnds
    (other : String) :
    (graph.changeEnds channel change).channel? other =
      if other = channel then
        (graph.channel? channel).map fun found => { found with ends := change found.ends }
      else graph.channel? other :=
  Table.get?_modify graph.channels channel other _

@[simp] theorem bareChannel?_changeEnds
    (other : String) :
    (graph.changeEnds channel change).bareChannel? other = graph.bareChannel? other := by
  rw [bareChannel?, bareChannel?, channel?_changeEnds]
  split
  · rename_i same
    rw [same, Option.map_map]
    rfl
  · rfl

theorem lists_changeEnds
    (other : String) (endpoint : Endpoint) :
    (graph.changeEnds channel change).lists other endpoint =
      if other = channel then
        (graph.channel? channel).any fun found => (change found.ends).contains endpoint
      else graph.lists other endpoint := by
  rw [lists, lists, channel?_changeEnds]
  split
  · rw [Option.any_map]
  · rfl

end Ends

/-! ## Taking a channel away -/

section Remove

variable (graph : Graph)

theorem bareNode?_foldl_unbind
    (ends : List Endpoint) (name : String) :
    (ends.foldl (fun current endpoint => current.bind endpoint none) graph).bareNode? name =
      graph.bareNode? name := by
  induction ends generalizing graph with
  | nil => rfl
  | cons first rest inductionHypothesis =>
      rw [List.foldl_cons, inductionHypothesis, bareNode?_bind]

theorem channel?_foldl_unbind
    (ends : List Endpoint) (channel : String) :
    (ends.foldl (fun current endpoint => current.bind endpoint none) graph).channel? channel =
      graph.channel? channel := by
  induction ends generalizing graph with
  | nil => rfl
  | cons first rest inductionHypothesis =>
      rw [List.foldl_cons, inductionHypothesis]
      rfl

theorem connection?_foldl_unbind
    (ends : List Endpoint) (endpoint : Endpoint) :
    (ends.foldl (fun current endpoint => current.bind endpoint none) graph).connection? endpoint =
      if endpoint ∈ ends then (graph.bareNode? endpoint.node).map fun _ => none
      else graph.connection? endpoint := by
  induction ends generalizing graph with
  | nil => simp
  | cons first rest inductionHypothesis =>
      rw [List.foldl_cons, inductionHypothesis, bareNode?_bind, connection?_bind]
      by_cases atFirst : endpoint = first
      · simp [atFirst]
      · simp [atFirst]

theorem bare_foldl_unbind
    (ends : List Endpoint) :
    (ends.foldl (fun current endpoint => current.bind endpoint none) graph).bare = graph.bare := by
  induction ends generalizing graph with
  | nil => rfl
  | cons first rest inductionHypothesis =>
      rw [List.foldl_cons, inductionHypothesis]
      rfl

@[simp] theorem bare_removeChannel
    (channel : String) :
    (graph.removeChannel channel).bare = graph.bare := by
  rw [removeChannel]
  split
  · rfl
  · rw [bare_foldl_unbind]
    rfl

@[simp] theorem bareNode?_removeChannel
    (channel name : String) :
    (graph.removeChannel channel).bareNode? name = graph.bareNode? name := by
  rw [removeChannel]
  split
  · rfl
  · rw [bareNode?_foldl_unbind]
    rfl

@[simp] theorem pin?_removeChannel
    (channel : String) (endpoint : Endpoint) :
    (graph.removeChannel channel).pin? endpoint = graph.pin? endpoint := by
  rw [pin?_eq, pin?_eq, bareNode?_removeChannel]

theorem channel?_removeChannel
    (channel other : String) :
    (graph.removeChannel channel).channel? other =
      if other = channel then none else graph.channel? other := by
  rw [removeChannel]
  split
  · rename_i missing
    split
    · rename_i same
      rw [same, missing]
    · rfl
  · rw [channel?_foldl_unbind]
    exact Table.get?_erase graph.channels channel other

theorem bareChannel?_removeChannel
    (channel other : String) :
    (graph.removeChannel channel).bareChannel? other =
      if other = channel then none else graph.bareChannel? other := by
  rw [bareChannel?, bareChannel?, channel?_removeChannel]
  split <;> rfl

theorem connection?_removeChannel
    (channel : String) (endpoint : Endpoint) :
    (graph.removeChannel channel).connection? endpoint =
      if graph.lists channel endpoint = true then
        (graph.bareNode? endpoint.node).map fun _ => none
      else graph.connection? endpoint := by
  rw [removeChannel]
  split
  · rename_i missing
    rw [lists, missing]
    rfl
  · rename_i found present
    rw [connection?_foldl_unbind, lists_of_channel? present]
    simp only [KeySet.mem_toList_iff]
    rfl

theorem binding?_removeChannel
    (channel : String) (endpoint : Endpoint) :
    (graph.removeChannel channel).binding? endpoint =
      if graph.lists channel endpoint = true then none else graph.binding? endpoint := by
  rw [binding?_eq, binding?_eq, connection?_removeChannel]
  split
  · cases graph.bareNode? endpoint.node <;> rfl
  · rfl

theorem lists_removeChannel
    (channel other : String) (endpoint : Endpoint) :
    (graph.removeChannel channel).lists other endpoint =
      (decide (other ≠ channel) && graph.lists other endpoint) := by
  rw [lists, lists, channel?_removeChannel]
  by_cases same : other = channel <;> simp [same]

end Remove

/-! ## Putting and dropping records -/

section Put

variable (graph : Graph) (name : String) (node : Node) (channel : Channel)

theorem node?_putNode
    (other : String) :
    (graph.putNode name node).node? other =
      if other = name then some node else graph.node? other :=
  Table.get?_insert graph.nodes name other node

theorem connection?_putNode
    (endpoint : Endpoint) :
    (graph.putNode name node).connection? endpoint =
      if endpoint.node = name then node.connections.get? endpoint.pin
      else graph.connection? endpoint := by
  rw [connection?, connection?, node?_putNode]
  split <;> rfl

theorem binding?_putNode
    (endpoint : Endpoint) :
    (graph.putNode name node).binding? endpoint =
      if endpoint.node = name then node.binding? endpoint.pin else graph.binding? endpoint := by
  rw [binding?, binding?, node?_putNode]
  split <;> rfl

theorem pin?_putNode
    (endpoint : Endpoint) :
    (graph.putNode name node).pin? endpoint =
      if endpoint.node = name then node.part.pin? endpoint.pin else graph.pin? endpoint := by
  rw [pin?, pin?, node?_putNode]
  split <;> rfl

@[simp] theorem bareChannel?_putNode
    (other : String) :
    (graph.putNode name node).bareChannel? other = graph.bareChannel? other := rfl

@[simp] theorem lists_putNode
    (other : String) (endpoint : Endpoint) :
    (graph.putNode name node).lists other endpoint = graph.lists other endpoint := rfl

theorem node?_dropNode
    (other : String) :
    (graph.dropNode name).node? other = if other = name then none else graph.node? other :=
  Table.get?_erase graph.nodes name other

theorem connection?_dropNode
    (endpoint : Endpoint) :
    (graph.dropNode name).connection? endpoint =
      if endpoint.node = name then none else graph.connection? endpoint := by
  rw [connection?, connection?, node?_dropNode]
  split <;> rfl

theorem binding?_dropNode
    (endpoint : Endpoint) :
    (graph.dropNode name).binding? endpoint =
      if endpoint.node = name then none else graph.binding? endpoint := by
  rw [binding?, binding?, node?_dropNode]
  split <;> rfl

theorem pin?_dropNode
    (endpoint : Endpoint) :
    (graph.dropNode name).pin? endpoint =
      if endpoint.node = name then none else graph.pin? endpoint := by
  rw [pin?, pin?, node?_dropNode]
  split <;> rfl

@[simp] theorem bareChannel?_dropNode
    (other : String) :
    (graph.dropNode name).bareChannel? other = graph.bareChannel? other := rfl

@[simp] theorem lists_dropNode
    (other : String) (endpoint : Endpoint) :
    (graph.dropNode name).lists other endpoint = graph.lists other endpoint := rfl

@[simp] theorem bareNode?_putChannel
    (other : String) :
    (graph.putChannel name channel).bareNode? other = graph.bareNode? other := rfl

@[simp] theorem connection?_putChannel
    (endpoint : Endpoint) :
    (graph.putChannel name channel).connection? endpoint = graph.connection? endpoint := rfl

theorem bareChannel?_putChannel
    (other : String) :
    (graph.putChannel name channel).bareChannel? other =
      if other = name then some channel.bare else graph.bareChannel? other := by
  rw [bareChannel?, bareChannel?]
  show Option.map _ (Table.get? (Table.insert graph.channels name channel) other) = _
  rw [Table.get?_insert]
  split <;> rfl

theorem lists_putChannel
    (other : String) (endpoint : Endpoint) :
    (graph.putChannel name channel).lists other endpoint =
      if other = name then channel.ends.contains endpoint else graph.lists other endpoint := by
  rw [lists, lists]
  show Option.any _ (Table.get? (Table.insert graph.channels name channel) other) = _
  rw [Table.get?_insert]
  split <;> rfl

end Put

end Graph

end Pipework
