import Pipework.Graph.Stored
import Pipework.Proofs.Part.Config
import Pipework.Proofs.Graph.View

/-!
# Putting a document together

A document is put together node by node, and each node connection by connection, while the ends
of channels and the problems grow. This module says in one go what has come of all of it: which
node stands under a name (`StoredNode.node`), which ends a channel has, and which problems were
found (`StoredNode.problems`). All of them hang only on the document and on which channels it
declares, so nothing depends on the order of the nodes.
-/

namespace Pipework

/-! ## One connection -/

section Connection

variable (known declared : String → Bool)

/-- Whether a connection of a document binds its pin: it names a pin that is known and a channel
that is declared. -/
def connects (connection : String × String) : Bool :=
  connection.2 ≠ unboundWord && known connection.1 && declared connection.2

/-- What is wrong with a connection of the node under a name. -/
def connectionProblems (name : String) (connection : String × String) : List Problem :=
  if connection.2 = unboundWord then []
  else if !known connection.1 then [.unknownPin name connection.1 connection.2]
  else if !declared connection.2 then [.unknownChannel ⟨name, connection.1⟩ connection.2]
  else []

variable {known declared : String → Bool}

/-- A connection is right when it binds its pin or leaves it unbound. -/
theorem connectionProblems_eq_nil_iff
    (name : String) {connection : String × String} :
    connectionProblems known declared name connection = [] ↔
      connection.2 = unboundWord ∨ connects known declared connection = true := by
  rw [connectionProblems, connects]
  by_cases unbound : connection.2 = unboundWord
  · simp [unbound]
  · cases known connection.1 <;> cases declared connection.2 <;> simp [unbound]

end Connection

namespace Assembly

/-- The nodes and channels of an assembly as a graph. -/
def graph (assembly : Assembly) : Graph := ⟨"", "", false, assembly.nodes, assembly.channels⟩

/-- The assembly with one more end on a channel. -/
def list (assembly : Assembly) (channel : String) (endpoint : Endpoint) : Assembly :=
  { assembly with
    channels := assembly.channels.modify channel fun found =>
      { found with ends := found.ends.add endpoint } }

theorem graph_list
    (assembly : Assembly) (channel : String) (endpoint : Endpoint) :
    (assembly.list channel endpoint).graph =
      assembly.graph.changeEnds channel fun ends => ends.add endpoint := rfl

theorem connect_of_connects
    {name : String} {node : Node} {assembly : Assembly} {connection : String × String}
    (binds : connects node.connections.contains assembly.channels.contains connection = true) :
    connect name (node, assembly) connection =
      ({ node with connections := node.connections.insert connection.1 (some connection.2) },
        assembly.list connection.2 ⟨name, connection.1⟩) := by
  obtain ⟨pin, channel⟩ := connection
  simp only [connects, Bool.and_eq_true, decide_eq_true_eq] at binds
  obtain ⟨⟨notUnbound, isKnown⟩, isDeclared⟩ := binds
  obtain ⟨found, present⟩ := Table.contains_iff.mp isDeclared
  rw [connect, if_neg notUnbound]
  simp only [isKnown, Bool.not_true, Bool.false_eq_true, if_false, present, list, Table.modify]

theorem connect_of_not_connects
    {name : String} {node : Node} {assembly : Assembly} {connection : String × String}
    (unbinding :
      connects node.connections.contains assembly.channels.contains connection = false) :
    connect name (node, assembly) connection =
      (node, assembly.report
        (connectionProblems node.connections.contains assembly.channels.contains name
          connection)) := by
  obtain ⟨pin, channel⟩ := connection
  rw [connect, connectionProblems]
  by_cases unbound : channel = unboundWord
  · simp [unbound, report]
  · cases isKnown : node.connections.contains pin with
    | false => simp [unbound, report]
    | true =>
        have missing : assembly.channels.contains channel = false := by
          simpa [connects, unbound, isKnown] using unbinding
        simp [unbound, missing, Table.contains_eq_false_iff.mp missing]

/-! ## All connections of a node -/

/-- What some connections make of a node and of the channels. -/
structure Connected (name : String) (connections : List (String × String)) (node : Node)
    (before : Assembly) (after : Node × Assembly) : Prop where
  bare : after.1.bare = node.bare
  connection : ∀ pin, after.1.connections.get? pin =
    match (Table.lookup pin connections).filter fun channel =>
        connects node.connections.contains before.channels.contains (pin, channel) with
    | some channel => some (some channel)
    | none => node.connections.get? pin
  sameNodes : after.2.nodes = before.nodes
  bareChannel : ∀ channel, after.2.graph.bareChannel? channel = before.graph.bareChannel? channel
  lists_iff : ∀ channel endpoint, after.2.graph.lists channel endpoint = true ↔
    before.graph.lists channel endpoint = true ∨ endpoint.node = name ∧
      (endpoint.pin, channel) ∈ connections ∧
      connects node.connections.contains before.channels.contains (endpoint.pin, channel) = true
  problems : after.2.problems = before.problems ++ connections.flatMap
    (connectionProblems node.connections.contains before.channels.contains name)

theorem contains_channels
    {before after : Assembly}
    (same : ∀ channel, after.graph.bareChannel? channel = before.graph.bareChannel? channel) :
    after.channels.contains = before.channels.contains := by
  funext channel
  have present (assembly : Assembly) : assembly.channels.contains channel =
      (assembly.graph.bareChannel? channel).isSome :=
    (Graph.bareChannel?_isSome assembly.graph channel).symm
  rw [present, present, same]

/-- One connection does what `Connected` says of a list with it alone. -/
theorem Connected.single
    (name : String) (connection : String × String) (node : Node) (assembly : Assembly) :
    Connected name [connection] node assembly (connect name (node, assembly) connection) := by
  obtain ⟨pin, channel⟩ := connection
  cases binds : connects node.connections.contains assembly.channels.contains (pin, channel) with
  | true =>
      rw [connect_of_connects binds]
      have unproblematic := (connectionProblems_eq_nil_iff name).mpr (Or.inr binds)
      have isDeclared : (assembly.graph.channel? channel).isSome = true := by
        simp only [connects, Bool.and_eq_true] at binds
        exact binds.2
      refine ⟨rfl, ?_, rfl, ?_, ?_, ?_⟩
      · intro other
        rw [Table.get?_insert, Table.lookup]
        by_cases same : other = pin
        · simp [same, binds, Option.filter]
        · simp [same, Table.lookup]
      · intro other
        rw [graph_list, Graph.bareChannel?_changeEnds]
      · intro other endpoint
        rw [graph_list, Graph.lists_changeEnds]
        by_cases same : other = channel
        · subst same
          obtain ⟨found, present⟩ := Option.isSome_iff_exists.mp isDeclared
          rw [if_pos rfl, present, Graph.lists_of_channel? present]
          obtain ⟨place, placePin⟩ := endpoint
          by_cases atEnd : placePin = pin
          · simp [atEnd, binds, or_comm]
          · simp [atEnd]
        · simp [same]
      · rw [List.flatMap_singleton, unproblematic, List.append_nil]
        rfl
  | false =>
      rw [connect_of_not_connects binds]
      refine ⟨rfl, ?_, rfl, fun _ => rfl, ?_, ?_⟩
      · intro other
        by_cases same : other = pin
        · simp [same, binds, Table.lookup, Option.filter]
        · simp [same, Table.lookup]
      · intro other endpoint
        refine ⟨Or.inl, ?_⟩
        intro either
        rcases either with listed | ⟨_, member, connected⟩
        · exact listed
        · rw [List.mem_singleton.mp member, binds] at connected
          exact Bool.noConfusion connected
      · rw [List.flatMap_singleton]
        rfl

/-- Connecting pins gives no node a pin that it did not have. -/
theorem Connected.contains_connections
    {name : String} {connections : List (String × String)} {node : Node} {before : Assembly}
    {after : Node × Assembly} (connected : Connected name connections node before after) :
    after.1.connections.contains = node.connections.contains := by
  funext pin
  rw [Table.contains, connected.connection]
  cases found : (Table.lookup pin connections).filter fun channel =>
      connects node.connections.contains before.channels.contains (pin, channel) with
  | none => rfl
  | some channel =>
      have binds := (Option.filter_eq_some_iff.mp found).2
      simp only [connects, Bool.and_eq_true] at binds
      rw [binds.1.2]
      rfl

theorem Connected.cons
    {name : String} {head : String × String} {tail : List (String × String)} {node : Node}
    {before : Assembly} {middle after : Node × Assembly}
    (fresh : head.1 ∉ tail.map Prod.fst)
    (first : Connected name [head] node before middle)
    (others : Connected name tail middle.1 middle.2 after) :
    Connected name (head :: tail) node before after := by
  -- The tail finds the same pins and the same channels as the head did.
  have sameKnown := first.contains_connections
  have sameDeclared := contains_channels first.bareChannel
  obtain ⟨bare, connection, sameNodes, bareChannel, lists_iff, problems⟩ := others
  rw [sameKnown, sameDeclared] at connection lists_iff problems
  refine ⟨bare.trans first.bare, ?_, sameNodes.trans first.sameNodes, ?_, ?_, ?_⟩
  · intro pin
    rw [connection, first.connection, Table.lookup, Table.lookup, Table.lookup]
    by_cases atHead : pin = head.1
    · -- The tail does not name this pin again, so what the head did to it stays.
      have notInTail : Table.lookup pin tail = none := by
        cases found : Table.lookup pin tail with
        | none => rfl
        | some channel =>
            have member := Table.mem_of_lookup found
            exact absurd (List.mem_map.mpr ⟨_, member, atHead⟩) fresh
      rw [notInTail, if_pos atHead]
      rfl
    · simp only [if_neg atHead, Option.filter_none]
  · intro channel
    rw [bareChannel, first.bareChannel]
  · intro channel endpoint
    rw [lists_iff, first.lists_iff, List.mem_singleton, List.mem_cons, or_assoc, ← and_or_left,
      ← or_and_right]
  · rw [problems, first.problems, List.append_assoc, List.flatMap_singleton, List.flatMap_cons]

theorem connected_foldl
    (name : String) {connections : List (String × String)}
    (pinsNodup : (connections.map Prod.fst).Nodup) (node : Node) (before : Assembly) :
    Connected name connections node before
      (connections.foldl (connect name) (node, before)) := by
  induction connections generalizing node before with
  | nil =>
      refine ⟨rfl, fun _ => rfl, rfl, fun _ => rfl, ?_, (List.append_nil _).symm⟩
      intro channel endpoint
      simp
  | cons head tail inductionHypothesis =>
      obtain ⟨fresh, tailNodup⟩ := List.nodup_cons.mp pinsNodup
      have first := Connected.single name head node before
      exact first.cons fresh (inductionHypothesis tailNodup _ _)

end Assembly

/-! ## Nodes of a document -/

theorem nameProblems_eq_nil_iff
    {name : String} (problem : NameFault → Problem) :
    (nameFault name).toList.map problem = [] ↔ nameFault name = none := by
  cases nameFault name <;> simp

namespace StoredNode

/-- The channel to which a document binds a pin of a node with some part. -/
def binding? (stored : StoredNode) (declared : String → Bool) (part : Part) (pin : String) :
    Option String :=
  ((Table.ofList stored.connections).get? pin).filter fun channel =>
    connects (fun name => name ∈ part.pins.map Pin.name) declared (pin, channel)

/-- The node that a document describes. -/
def node (stored : StoredNode) (declared : String → Bool) (name : String) (part : Part) : Node :=
  { name, enabled := stored.enabled, multiplicity := stored.multiplicity,
    waits := stored.waits, x := stored.x, y := stored.y, part,
    connections := Table.ofList
      (part.pins.map fun pin => (pin.name, stored.binding? declared part pin.name)) }

/-- What is wrong with a node of a document. -/
def problems (stored : StoredNode) (declared : String → Bool) (name : String) (part : Part) :
    List Problem :=
  (nameFault name).toList.map (Problem.nodeKey name) ++
    ((if stored.multiplicity = 0 then [.noInstances name] else []) ++
      (Table.ofList stored.connections).entries.flatMap
        (connectionProblems (fun pin => pin ∈ part.pins.map Pin.name) declared name))

theorem get?_node
    (stored : StoredNode) (declared : String → Bool) (name : String) (part : Part)
    (pin : String) :
    (stored.node declared name part).connections.get? pin =
      if pin ∈ part.pins.map Pin.name then some (stored.binding? declared part pin) else none :=
  Table.get?_ofList_map part.pins Pin.name (stored.binding? declared part) pin

/-- A node of a document is right when its name may stand, it has an instance, and each of its
connections binds a pin or leaves it unbound. -/
theorem problems_eq_nil_iff
    {stored : StoredNode} {declared : String → Bool} {name : String} {part : Part} :
    stored.problems declared name part = [] ↔
      nameFault name = none ∧ stored.multiplicity ≠ 0 ∧
        ∀ pin channel, (Table.ofList stored.connections).get? pin = some channel →
          channel = unboundWord ∨
            connects (fun other => other ∈ part.pins.map Pin.name) declared (pin, channel) =
              true := by
  rw [problems, List.append_eq_nil_iff, List.append_eq_nil_iff, List.flatMap_eq_nil_iff]
  refine and_congr ?_ (and_congr ?_ ?_)
  · exact nameProblems_eq_nil_iff (Problem.nodeKey name)
  · split <;> simp [*]
  · rw [Prod.forall]
    simp only [connectionProblems_eq_nil_iff, Table.mem_entries_iff]

end StoredNode

theorem Node.contains_unbound
    (part : Part) :
    (Node.unbound part).contains = fun pin => decide (pin ∈ part.pins.map Pin.name) := by
  funext pin
  rw [Table.contains, Node.get?_unbound]
  split <;> simp [*]

namespace Assembly

/-- What a node of a document, with the part that it describes, makes of an assembly. -/
structure Added (name : String) (stored : StoredNode) (part : Part) (before after : Assembly) :
    Prop where
  nodes : after.nodes =
    before.nodes.insert name (stored.node before.channels.contains name part)
  bareChannel : ∀ channel, after.graph.bareChannel? channel = before.graph.bareChannel? channel
  lists_iff : ∀ channel endpoint, after.graph.lists channel endpoint = true ↔
    before.graph.lists channel endpoint = true ∨ endpoint.node = name ∧
      stored.binding? before.channels.contains part endpoint.pin = some channel
  problems : after.problems =
    before.problems ++ stored.problems before.channels.contains name part

/-- The state in which the connections of a node are made one after the other: the node with no
pin bound, and the assembly with what was wrong with its name and its multiplicity. -/
def start (assembly : Assembly) (name : String) (stored : StoredNode) (part : Part) :
    Node × Assembly :=
  ({ name, enabled := stored.enabled, multiplicity := stored.multiplicity,
      waits := stored.waits, x := stored.x, y := stored.y, part,
      connections := Node.unbound part },
    (assembly.report ((nameFault name).toList.map (Problem.nodeKey name))).report
      (if stored.multiplicity = 0 then [.noInstances name] else []))

/-- The assembly with a node of a document and the part that it describes. -/
def add (assembly : Assembly) (name : String) (stored : StoredNode) (part : Part) : Assembly :=
  let connected := (Table.ofList stored.connections).entries.foldl (connect name)
    (assembly.start name stored part)
  { connected.2 with nodes := connected.2.nodes.insert name connected.1 }

theorem addNode_eq_ok_iff
    {registry : Registry} {before after : Assembly} {name : String} {stored : StoredNode} :
    before.addNode registry name stored = .ok after ↔
      ∃ part, registry.construct stored.partType stored.part = .ok part ∧
        after = before.add name stored part := by
  rw [addNode]
  cases registry.construct stored.partType stored.part with
  | error error => simp
  | ok part =>
      simp only [Except.ok.injEq, exists_eq_left']
      exact eq_comm

theorem Added.of_connected
    {before : Assembly} {name : String} {stored : StoredNode} {part : Part}
    {after : Node × Assembly}
    (connected : Connected name (Table.ofList stored.connections).entries
      (before.start name stored part).1 (before.start name stored part).2 after) :
    Added name stored part before
      { after.2 with nodes := after.2.nodes.insert name after.1 } := by
  have sameKnown : (before.start name stored part).1.connections.contains =
      fun pin => decide (pin ∈ part.pins.map Pin.name) := Node.contains_unbound part
  obtain ⟨bare, connection, sameNodes, bareChannel, lists_iff, problems⟩ := connected
  rw [sameKnown] at connection lists_iff problems
  have sameConnections (pin : String) : after.1.connections.get? pin =
      (stored.node before.channels.contains name part).connections.get? pin := by
    rw [connection, StoredNode.get?_node]
    show (match stored.binding? before.channels.contains part pin with
      | some channel => some (some channel)
      | none => (Node.unbound part).get? pin) = _
    cases found : stored.binding? before.channels.contains part pin with
    | none => exact Node.get?_unbound part pin
    | some channel =>
        have binds := (Option.filter_eq_some_iff.mp found).2
        simp only [connects, Bool.and_eq_true, decide_eq_true_eq] at binds
        rw [if_pos binds.1.2]
  have sameNode : after.1 = stored.node before.channels.contains name part :=
    Node.eq_of_bare bare (Table.ext_get? sameConnections)
  constructor
  · show after.2.nodes.insert name after.1 = _
    rw [sameNode, sameNodes]
    rfl
  · exact bareChannel
  · intro channel endpoint
    refine (lists_iff channel endpoint).trans (or_congr_right (and_congr_right fun _ => ?_))
    rw [StoredNode.binding?, Option.filter_eq_some_iff, ← Table.mem_entries_iff]
    rfl
  · refine problems.trans ?_
    rw [StoredNode.problems, ← List.append_assoc, ← List.append_assoc]
    rfl

theorem added_add
    (before : Assembly) (name : String) (stored : StoredNode) (part : Part) :
    Added name stored part before (before.add name stored part) :=
  Added.of_connected
    (connected_foldl name (Table.ofList stored.connections).keys_nodup _ _)

/-! ## All nodes of a document -/

/-- What is wrong with an entry of a document, when its part can be made. -/
def entryProblems (registry : Registry) (declared : String → Bool)
    (entry : String × StoredNode) : List Problem :=
  match registry.construct entry.2.partType entry.2.part with
  | .ok part => entry.2.problems declared entry.1 part
  | .error _ => []

/-- What some nodes of a document make of an assembly. -/
structure Assembled (registry : Registry) (nodes : List (String × StoredNode))
    (before after : Assembly) : Prop where
  node : ∀ {name : String} {stored : StoredNode}, (name, stored) ∈ nodes →
    ∃ part, registry.construct stored.partType stored.part = .ok part ∧
      after.nodes.get? name = some (stored.node before.channels.contains name part)
  other : ∀ {name : String}, name ∉ nodes.map Prod.fst →
    after.nodes.get? name = before.nodes.get? name
  bareChannel : ∀ channel, after.graph.bareChannel? channel = before.graph.bareChannel? channel
  lists_iff : ∀ channel endpoint, after.graph.lists channel endpoint = true ↔
    before.graph.lists channel endpoint = true ∨
      ∃ stored part, (endpoint.node, stored) ∈ nodes ∧
        registry.construct stored.partType stored.part = .ok part ∧
        stored.binding? before.channels.contains part endpoint.pin = some channel
  problems : after.problems =
    before.problems ++ nodes.flatMap (entryProblems registry before.channels.contains)

theorem Assembled.cons
    {registry : Registry} {name : String} {stored : StoredNode} {part : Part}
    {rest : List (String × StoredNode)} {before middle after : Assembly}
    (fresh : name ∉ rest.map Prod.fst)
    (made : registry.construct stored.partType stored.part = .ok part)
    (first : Added name stored part before middle)
    (others : Assembled registry rest middle after) :
    Assembled registry ((name, stored) :: rest) before after := by
  have sameDeclared := contains_channels first.bareChannel
  obtain ⟨node, other, bareChannel, lists_iff, problems⟩ := others
  rw [sameDeclared] at node lists_iff problems
  constructor
  · intro otherName otherStored member
    rcases List.mem_cons.mp member with same | inRest
    · injection same with sameName sameStored
      subst sameName sameStored
      refine ⟨part, made, ?_⟩
      rw [other fresh, first.nodes, Table.get?_insert, if_pos rfl]
    · exact node inRest
  · intro otherName absent
    rw [List.map_cons, List.mem_cons, not_or] at absent
    rw [other absent.2, first.nodes, Table.get?_insert, if_neg absent.1]
  · intro channel
    rw [bareChannel, first.bareChannel]
  · intro channel endpoint
    rw [lists_iff, first.lists_iff, or_assoc]
    refine or_congr_right ?_
    constructor
    · intro either
      rcases either with ⟨atName, binds⟩ | ⟨otherStored, otherPart, inRest, otherMade, binds⟩
      · exact ⟨stored, part, atName ▸ List.mem_cons_self, made, binds⟩
      · exact ⟨otherStored, otherPart, List.mem_cons_of_mem _ inRest, otherMade, binds⟩
    · intro bound
      obtain ⟨otherStored, otherPart, member, otherMade, binds⟩ := bound
      rcases List.mem_cons.mp member with same | inRest
      · injection same with sameName sameStored
        subst sameStored
        rw [made] at otherMade
        injection otherMade with samePart
        exact Or.inl ⟨sameName, samePart ▸ binds⟩
      · exact Or.inr ⟨otherStored, otherPart, inRest, otherMade, binds⟩
  · rw [problems, first.problems, List.append_assoc, List.flatMap_cons, entryProblems, made]

theorem assembled_of_addNodes
    {registry : Registry} {nodes : List (String × StoredNode)} {before after : Assembly}
    (namesNodup : (nodes.map Prod.fst).Nodup)
    (granted : before.addNodes registry nodes = .ok after) :
    Assembled registry nodes before after := by
  induction nodes generalizing before with
  | nil =>
      rw [addNodes] at granted
      injection granted with same
      subst same
      refine ⟨fun member => absurd member List.not_mem_nil, fun _ => rfl, fun _ => rfl, ?_,
        (List.append_nil _).symm⟩
      intro channel endpoint
      simp
  | cons head rest inductionHypothesis =>
      obtain ⟨name, stored⟩ := head
      obtain ⟨fresh, restNodup⟩ := List.nodup_cons.mp namesNodup
      rw [addNodes] at granted
      split at granted
      · simp at granted
      · rename_i middle added
        obtain ⟨part, made, rfl⟩ := addNode_eq_ok_iff.mp added
        exact Assembled.cons fresh made (added_add before name stored part)
          (inductionHypothesis restNodup granted)

/-- Nodes can be added when their parts can be made. -/
theorem exists_addNodes
    {registry : Registry} {nodes : List (String × StoredNode)}
    (made : ∀ entry ∈ nodes, ∃ part,
      registry.construct entry.2.partType entry.2.part = .ok part) (before : Assembly) :
    ∃ after, before.addNodes registry nodes = .ok after := by
  induction nodes generalizing before with
  | nil => exact ⟨before, rfl⟩
  | cons head rest inductionHypothesis =>
      obtain ⟨name, stored⟩ := head
      obtain ⟨⟨part, partMade⟩, restMade⟩ := List.forall_mem_cons.mp made
      have added : before.addNode registry name stored = .ok (before.add name stored part) :=
        addNode_eq_ok_iff.mpr ⟨part, partMade, rfl⟩
      obtain ⟨after, granted⟩ := inductionHypothesis restMade (before.add name stored part)
      refine ⟨after, ?_⟩
      rw [addNodes, added]
      exact granted

end Assembly

end Pipework
