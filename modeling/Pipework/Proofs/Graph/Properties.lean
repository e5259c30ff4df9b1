import Pipework.Proofs.Graph.Document

/-!
# Other properties for a node

To give a node other properties is to replace a record, to read its connections over by the pins
of another part, and to rename ends of several channels. `Graph.withNode` tells the outcome in one
piece, and `Graph.setNodeProperties_granted_iff` says when and from what it comes about.
-/

namespace Pipework

/-- Where an endpoint is when a node has got another name. -/
def Endpoint.follow (endpoint : Endpoint) (old new : String) : Endpoint :=
  if endpoint.node = old then ⟨new, endpoint.pin⟩ else endpoint

/-- A node with the properties that a request asks for and another part. A pin that the node had
before keeps its channel, if it has one, and any other pin is unbound. -/
def SetNodeProperties.changed (request : SetNodeProperties) (node : Node) (part : Part) : Node :=
  { name := request.name, enabled := request.enabled, multiplicity := request.multiplicity,
    waits := request.waits, x := request.x, y := request.y, part,
    connections := Table.ofList (part.pins.map fun pin =>
      (pin.name, if (node.part.pin? pin.name).isSome then node.binding? pin.name else none)) }

/-- Asks for the properties that a node has already, and perhaps for another name. -/
def Node.renaming (node : Node) (old new : String) : SetNodeProperties :=
  { node := old, name := new, enabled := node.enabled, waits := node.waits,
    multiplicity := node.multiplicity, partType := node.part.kind.key, part := node.part.config,
    x := node.x, y := node.y }

namespace Graph

/-- The graph in which a node stands in place of the one with a name, and whatever was an end of
a channel under this name is one under its own. -/
def withNode (graph : Graph) (old : String) (node : Node) : Graph :=
  { graph with
    nodes := (graph.nodes.erase old).insert node.name node
    channels := graph.channels.mapEntries fun _ channel =>
      { channel with
        ends := KeySet.ofList
          (channel.ends.toList.map fun endpoint => endpoint.follow old node.name) } }

/-! ## Ends that follow -/

section Follow

variable {old new : String} {endpoint origin : Endpoint}

theorem follow_eq_self
    (name : String) (endpoint : Endpoint) :
    endpoint.follow name name = endpoint := by
  rw [Endpoint.follow]
  split
  · rename_i atName
    rw [← atName]
  · rfl

theorem follow_follow
    (fresh : endpoint.node ≠ new) :
    (endpoint.follow old new).follow new old = endpoint := by
  by_cases atOld : endpoint.node = old
  · rw [Endpoint.follow, Endpoint.follow, if_pos atOld, if_pos rfl, ← atOld]
  · rw [Endpoint.follow, Endpoint.follow, if_neg atOld, if_neg fresh]

/-- An endpoint follows its node to where it has its origin, unless it was there before. -/
theorem origin?_eq_some_iff
    (fresh : new = old ∨ origin.node ≠ new) :
    origin? old new endpoint = some origin ↔ origin.follow old new = endpoint := by
  rw [origin?, Endpoint.follow]
  constructor
  · intro isOrigin
    split at isOrigin
    · rename_i atNew
      rw [← Option.some.inj isOrigin, if_pos rfl, ← atNew]
    · split at isOrigin
      · simp at isOrigin
      · rename_i notOld
        rw [← Option.some.inj isOrigin, if_neg notOld]
  · intro followed
    by_cases atOld : origin.node = old
    · rw [if_pos atOld] at followed
      rw [← followed, if_pos rfl, ← atOld]
    · rw [if_neg atOld] at followed
      have notNew : origin.node ≠ new := by
        rcases fresh with same | notNew
        · rw [same]
          exact atOld
        · exact notNew
      rw [← followed, if_neg notNew, if_neg atOld]

end Follow

/-! ## What the graph is afterwards -/

section WithNode

variable (graph : Graph) (old : String) (node : Node)

theorem node?_withNode
    (name : String) :
    (graph.withNode old node).node? name =
      if name = node.name then some node else if name = old then none else graph.node? name := by
  rw [node?, withNode, Table.get?_insert, Table.get?_erase]
  rfl

theorem bareChannel?_withNode
    (name : String) :
    (graph.withNode old node).bareChannel? name = graph.bareChannel? name := by
  rw [bareChannel?, channel?, withNode, Table.get?_mapEntries, Option.map_map]
  rfl

theorem lists_withNode_iff
    (name : String) (endpoint : Endpoint) :
    (graph.withNode old node).lists name endpoint = true ↔
      ∃ origin, graph.lists name origin = true ∧ origin.follow old node.name = endpoint := by
  rw [lists, channel?, withNode, Table.get?_mapEntries]
  simp only [lists, channel?]
  cases graph.channels.get? name with
  | none => simp
  | some channel => simp [KeySet.mem_toList_iff]

end WithNode

section Renaming

variable {registry : Registry} {graph next : Graph} {node : Node} {part : Part}

theorem bare_renameEnds
    (bound : List (String × String)) (old new : String) (graph : Graph) :
    (graph.renameEnds bound old new).bare = graph.bare := by
  induction bound generalizing graph with
  | nil => rfl
  | cons first rest inductionHypothesis =>
      rw [renameEnds, List.foldl_cons]
      exact inductionHypothesis _

theorem bare_replaceNode
    (request : SetNodeProperties) :
    (graph.replaceNode request node).bare = graph.bare := by
  by_cases renamed : request.name ≠ request.node
  · rw [replaceNode, if_pos renamed]
    exact bare_renameEnds _ _ _ graph
  · rw [replaceNode, if_neg renamed]
    rfl

/-- In a graph whose sides agree only pins that a node has are bound. -/
theorem Mirrored.pin?_isSome_of_binding?
    (mirrored : graph.Mirrored) {name pin channel : String}
    (present : graph.node? name = some node) (bound : node.binding? pin = some channel) :
    (node.part.pin? pin).isSome = true := by
  rw [Part.pin?_isSome_iff]
  by_contra unknown
  rw [Node.binding?, mirrored.get?_connections_of_unknown present unknown] at bound
  simp at bound

theorem changed_eq_outcome
    (mirrored : graph.Mirrored) {request : SetNodeProperties}
    (present : graph.node? request.node = some node) :
    request.changed node part = request.outcome node part := by
  have sameName : request.name =
      if request.name ≠ request.node then request.name else node.name := by
    split
    · rfl
    · rename_i same
      rw [mirrored.nodeNamed present]
      exact Decidable.not_not.mp same
  have sameBinding (pin : String) :
      (if (node.part.pin? pin).isSome then node.binding? pin else none) = node.binding? pin := by
    split
    · rfl
    · rename_i unknown
      rw [eq_comm, Option.eq_none_iff_forall_ne_some]
      intro channel bound
      exact unknown (mirrored.pin?_isSome_of_binding? present bound)
  rw [SetNodeProperties.changed, SetNodeProperties.outcome, keptConnections, ← sameName]
  simp only [sameBinding]

theorem replaceNode_eq_withNode
    (mirrored : graph.Mirrored) {request : SetNodeProperties}
    (present : graph.node? request.node = some node)
    (free : request.name = request.node ∨ graph.node? request.name = none)
    (kept : lostPins node part = []) :
    graph.replaceNode request (request.outcome node part) =
      graph.withNode request.node (request.changed node part) := by
  rw [changed_eq_outcome mirrored present]
  have named : (request.outcome node part).name = request.name :=
    congrArg Node.name (changed_eq_outcome mirrored present).symm
  refine ext_records (bare_replaceNode request) (fun name => ?_) fun name => channel?_congr ?_ ?_
  · rw [node?_replaceNode, node?_withNode, named]
  · rw [bareChannel?_replaceNode, bareChannel?_withNode]
  · intro endpoint
    rw [Bool.eq_iff_iff, lists_replaceNode mirrored present free kept, lists_withNode_iff, named]
    refine exists_congr fun origin => ?_
    rw [and_comm]
    refine and_congr_right fun listed => origin?_eq_some_iff ?_
    exact free.imp_right fun isFree => mirrored.node_ne_of_lists isFree listed

/-! ## When a request is granted -/

theorem apply_setNodeProperties_eq_ok_iff
    (mirrored : graph.Mirrored) {request : SetNodeProperties} :
    graph.apply registry (.setNodeProperties request) = .ok next ↔
      ∃ node part, graph.node? request.node = some node ∧ nameFault request.name = none ∧
        (request.name = request.node ∨ graph.node? request.name = none) ∧
        request.multiplicity ≠ 0 ∧
        registry.construct request.partType request.part = .ok part ∧
        lostPins node part = [] ∧
        next = graph.withNode request.node (request.changed node part) := by
  rw [apply, setNodeProperties_eq_ok_iff]
  constructor
  · rintro ⟨node, present, named, free, instances, part, made, kept, rfl⟩
    exact ⟨node, part, present, named, free, instances, made, kept,
      replaceNode_eq_withNode mirrored present free kept⟩
  · rintro ⟨node, part, present, named, free, instances, made, kept, rfl⟩
    exact ⟨node, present, named, free, instances, part, made, kept,
      (replaceNode_eq_withNode mirrored present free kept).symm⟩

theorem lostPins_self
    (mirrored : graph.Mirrored) {name : String} (present : graph.node? name = some node) :
    lostPins node node.part = [] := by
  rw [lostPins_eq_nil_iff]
  intro pin channel bound
  obtain ⟨found, isPin⟩ :=
    Option.isSome_iff_exists.mp (mirrored.pin?_isSome_of_binding? present bound)
  exact ⟨found, found, isPin, isPin, rfl, rfl⟩

/-- The part of a node gives it the connections that it has. -/
theorem keptConnections_self
    (mirrored : graph.Mirrored) {name : String} (present : graph.node? name = some node) :
    keptConnections node node.part = node.connections := by
  refine Table.ext_get? fun pin => ?_
  rw [get?_keptConnections]
  split
  · rename_i known
    have connected := (mirrored.connected present pin).mpr known
    obtain ⟨channel?, found⟩ := Option.isSome_iff_exists.mp connected
    rw [Node.binding?, found, Option.join_some]
  · rename_i unknown
    exact (mirrored.get?_connections_of_unknown present unknown).symm

theorem changed_renaming
    (mirrored : graph.Mirrored) {old : String} (present : graph.node? old = some node)
    (new : String) :
    (node.renaming old new).changed node node.part = { node with name := new } := by
  have isOutcome : (node.renaming old new).changed node node.part =
      (node.renaming old new).outcome node node.part :=
    changed_eq_outcome mirrored present
  have sameConnections :
      ((node.renaming old new).changed node node.part).connections = node.connections := by
    rw [isOutcome]
    exact keptConnections_self mirrored present
  exact Node.eq_of_bare rfl sameConnections

/-- A node keeps its properties under another name, whenever it might have them at all. -/
theorem apply_renaming_eq_ok_iff
    (mirrored : graph.Mirrored) {old : String} (present : graph.node? old = some node)
    (new : String) :
    graph.apply registry (.setNodeProperties (node.renaming old new)) = .ok next ↔
      LegalNode registry new node ∧ (new = old ∨ graph.node? new = none) ∧
        next = graph.withNode old { node with name := new } := by
  rw [apply_setNodeProperties_eq_ok_iff mirrored, ← changed_renaming mirrored present]
  constructor
  · rintro ⟨found, part, isFound, named, free, instances, made, _, rfl⟩
    obtain rfl : node = found := Option.some.inj (present.symm.trans isFound)
    obtain ⟨isMade, rfl⟩ := Registry.construct_key_config_eq_ok_iff.mp made
    exact ⟨⟨named, instances, isMade⟩, free, rfl⟩
  · rintro ⟨⟨named, instances, isMade⟩, free, rfl⟩
    exact ⟨node, node.part, present, named, free, instances,
      Registry.construct_key_config_eq_ok_iff.mpr ⟨isMade, rfl⟩, lostPins_self mirrored present,
      rfl⟩

end Renaming

/-! ## There and back -/

section Back

variable {graph : Graph} {node : Node}

theorem withNode_self
    (present : graph.node? node.name = some node) :
    graph.withNode node.name node = graph := by
  refine ext_records rfl (fun name => ?_) fun name => channel?_congr ?_ fun endpoint => ?_
  · rw [node?_withNode]
    split
    · rename_i same
      rw [same, present]
    · rfl
  · rw [bareChannel?_withNode]
  · rw [Bool.eq_iff_iff, lists_withNode_iff]
    simp only [follow_eq_self, exists_eq_right]

/-- A node that was put under a fresh name is put back under its own. -/
theorem withNode_withNode
    (mirrored : graph.Mirrored) (present : graph.node? node.name = some node) {other : String}
    (fresh : graph.node? other = none) :
    (graph.withNode node.name { node with name := other }).withNode other node = graph := by
  refine ext_records rfl (fun name => ?_) fun name => channel?_congr ?_ fun endpoint => ?_
  · rw [node?_withNode, node?_withNode]
    by_cases atNode : name = node.name
    · rw [if_pos atNode, atNode, present]
    · by_cases atOther : name = other
      · rw [if_neg atNode, if_pos atOther, atOther, fresh]
      · simp only [atNode, atOther, if_false]
  · rw [bareChannel?_withNode, bareChannel?_withNode]
  · rw [Bool.eq_iff_iff, lists_withNode_iff]
    simp only [lists_withNode_iff]
    constructor
    · rintro ⟨_, ⟨origin, listed, rfl⟩, rfl⟩
      rw [follow_follow (mirrored.node_ne_of_lists fresh listed)]
      exact listed
    · intro listed
      exact ⟨_, ⟨endpoint, listed, rfl⟩,
        follow_follow (mirrored.node_ne_of_lists fresh listed)⟩

end Back

/-- In a consistent graph a request for other properties of a node is granted exactly when the node
is there, the new name is fit for a node and its own or not in use, an instance or more is asked
for, the part can be made, and it has all the bound pins of the node with the same types and
directions. The graph is then the old one with this node changed and its name replaced everywhere,
and with nothing else changed. So a request for what the node has already changes nothing, and a
node that was given a fresh name can be given its own again, which restores the graph. -/
theorem setNodeProperties_granted_iff
    (registry : Registry) {graph : Graph} (unproblematic : graph.problems = []) :
    (∀ request next, graph.apply registry (.setNodeProperties request) = .ok next ↔
      ∃ node part, graph.node? request.node = some node ∧ nameFault request.name = none ∧
        (request.name = request.node ∨ graph.node? request.name = none) ∧
        1 ≤ request.multiplicity ∧
        registry.construct request.partType request.part = .ok part ∧
        (∀ pin channel, node.binding? pin = some channel →
          ∃ old new, node.part.pin? pin = some old ∧ part.pin? pin = some new ∧
            old.type = new.type ∧ old.direction = new.direction) ∧
        next = graph.withNode request.node (request.changed node part)) ∧
    ∀ {name : String} {node : Node}, graph.node? name = some node →
      (∀ next, graph.apply registry (.setNodeProperties (node.renaming name name)) = .ok next ↔
        LegalNode registry name node ∧ next = graph) ∧
      ∀ {other : String} {middle : Graph}, graph.node? other = none →
        graph.apply registry (.setNodeProperties (node.renaming name other)) = .ok middle →
        ∀ last, middle.apply registry (.setNodeProperties (node.renaming other name)) = .ok last ↔
          nameFault name = none ∧ last = graph := by
  have mirrored := (problems_eq_nil_iff.mp unproblematic).toMirrored
  refine ⟨fun request next => ?_, fun {name node} present => ?_⟩
  · rw [apply_setNodeProperties_eq_ok_iff mirrored]
    simp only [lostPins_eq_nil_iff, one_le_iff_ne_zero]
  · obtain rfl : node.name = name := mirrored.nodeNamed present
    refine ⟨fun next => ?_, fun {other middle} fresh granted last => ?_⟩
    · rw [apply_renaming_eq_ok_iff mirrored present, withNode_self present]
      simp
    · have middleMirrored := mirrored.of_apply granted
      obtain ⟨⟨_, instances, isMade⟩, _, rfl⟩ :=
        (apply_renaming_eq_ok_iff mirrored present other).mp granted
      have renamed : (graph.withNode node.name { node with name := other }).node? other =
          some { node with name := other } := by
        rw [node?_withNode, if_pos rfl]
      have different : node.name ≠ other := by
        intro same
        rw [← same, present] at fresh
        simp at fresh
      have free : (graph.withNode node.name { node with name := other }).node? node.name =
          none := by
        rw [node?_withNode, if_neg different, if_pos rfl]
      have back : (graph.withNode node.name { node with name := other }).apply registry
          (.setNodeProperties (node.renaming other node.name)) = .ok last ↔ _ :=
        apply_renaming_eq_ok_iff middleMirrored renamed node.name
      rw [withNode_withNode mirrored present fresh] at back
      refine back.trans ?_
      constructor
      · rintro ⟨fits, _, rfl⟩
        exact ⟨fits.named, rfl⟩
      · rintro ⟨named, rfl⟩
        exact ⟨⟨named, instances, isMade⟩, Or.inr free, rfl⟩

/-- The drain of a channel is given another name and then its own again. -/
theorem setNodeProperties_granted_iff_twoNodes :
    twoNodes.problems = [] ∧ twoNodes.lists "wire" ⟨"drain", "input"⟩ = true ∧
      twoNodes.node? "outlet" = none ∧
      ∃ node middle, twoNodes.node? "drain" = some node ∧
        twoNodes.apply Registry.builtin (.setNodeProperties (node.renaming "drain" "outlet")) =
          .ok middle ∧
        middle.apply Registry.builtin (.setNodeProperties (node.renaming "outlet" "drain")) =
          .ok twoNodes := by
  have built : Built Registry.builtin twoNodes := Built.run ..
  have unproblematic := problems_eq_nil_iff.mpr built.consistent
  have fresh : twoNodes.node? "outlet" = none := by decide
  obtain ⟨node, present⟩ : ∃ node, twoNodes.node? "drain" = some node :=
    Option.isSome_iff_exists.mp (by decide)
  have fits := built.legal.node (bareNode?_eq_some present)
  have granted : twoNodes.apply Registry.builtin
      (.setNodeProperties (node.renaming "drain" "outlet")) = .ok _ :=
    (apply_renaming_eq_ok_iff built.toMirrored present "outlet").mpr
      ⟨⟨by decide, fits.instances, fits.made⟩, Or.inr fresh, rfl⟩
  have back := (setNodeProperties_granted_iff Registry.builtin unproblematic).2 present
  exact ⟨unproblematic, by decide, fresh, node, _, present, granted,
    (back.2 fresh granted twoNodes).mpr ⟨fits.named, rfl⟩⟩

end Graph

end Pipework
