import Pipework.Proofs.Graph.Document
import Pipework.Proofs.Graph.Removal

/-!
# Graphs built by requests

A graph that was read can be built again by requests: its nodes are created, each channel is
created between an input and an output of its ends, and the other ends are attached
(`Graph.buildingRequests`). Each of these requests is granted, since a document and a request are
held to the same rules. Only a channel without ends is beyond them
(`Graph.buildable_iff_ended`).
-/

namespace Pipework

/-! ## Requests that build -/

/-- Asks for a node like another one, with no pin bound. -/
def Node.creation (node : Node) : CreateNode :=
  { name := node.name, partType := node.part.kind.key, part := node.part.config,
    enabled := node.enabled, waits := node.waits, multiplicity := node.multiplicity, x := node.x,
    y := node.y }

/-- Asks for a channel like another one, between two of its ends. -/
def Channel.creation (channel : Channel) (first second : Endpoint) : CreateChannel :=
  { name := channel.name, type := channel.type, capacity := channel.capacity,
    anonymous := channel.anonymous, first, second }

namespace Graph

/-- The requests for a channel: it is created between its first input and its first output, and
its other ends are attached. -/
def channelRequests (graph : Graph) (channel : Channel) : List Request :=
  let ends := channel.ends.toList
  match ends.find? (fun endpoint => graph.hasDirection .input [endpoint]),
      ends.find? (fun endpoint => graph.hasDirection .output [endpoint]) with
  | some receiver, some sender =>
      .createChannel (channel.creation receiver sender) ::
        (ends.filter fun endpoint => endpoint ≠ receiver ∧ endpoint ≠ sender).map fun endpoint =>
          .connectPin ⟨endpoint, channel.name⟩
  | _, _ => []

/-- The requests that build a graph. -/
def buildingRequests (graph : Graph) : List Request :=
  (graph.nodes.values.map fun node => .createNode node.creation) ++
    graph.channels.values.flatMap graph.channelRequests

/-- The graph after some requests in turn, if all of them are granted. -/
def applyInTurn (registry : Registry) (graph : Graph) (requests : List Request) :
    Except Error Graph :=
  requests.foldlM (apply registry) graph

theorem applyInTurn_cons_of_granted
    {registry : Registry} {graph next : Graph} {request : Request}
    (granted : graph.apply registry request = .ok next) (rest : List Request) :
    graph.applyInTurn registry (request :: rest) = next.applyInTurn registry rest := by
  rw [applyInTurn, List.foldlM_cons, granted]
  rfl

theorem applyInTurn_append_of_granted
    {registry : Registry} {graph next : Graph} {front : List Request}
    (granted : graph.applyInTurn registry front = .ok next) (back : List Request) :
    graph.applyInTurn registry (front ++ back) = next.applyInTurn registry back := by
  rw [applyInTurn] at granted
  rw [applyInTurn, List.foldlM_append, granted]
  rfl

theorem run_of_applyInTurn
    {registry : Registry} {graph next : Graph} {requests : List Request}
    (granted : graph.applyInTurn registry requests = .ok next) :
    graph.run registry requests = next := by
  induction requests generalizing graph with
  | nil => exact Except.ok.inj granted
  | cons request rest inductionHypothesis =>
      rw [applyInTurn, List.foldlM_cons, bind_eq_ok_iff] at granted
      obtain ⟨after, firstGranted, restGranted⟩ := granted
      rw [run_cons, step_of_granted firstGranted]
      exact inductionHypothesis restGranted

/-- Two ends of a channel between which it can be created: the one is an input and the other an
output. -/
structure Opening (target : Graph) (name : String) (channel : Channel)
    (receiver sender : Endpoint) : Prop where
  present : target.channel? name = some channel
  receiverListed : target.lists name receiver = true
  senderListed : target.lists name sender = true
  receives : ∃ input, target.pin? receiver = some input ∧ input.direction = .input
  sends : ∃ output, target.pin? sender = some output ∧ output.direction = .output

/-! ## Graphs on the way -/

/-- What is looked up only under some names is found as before, if it is nowhere else. -/
theorem ite_mem_of_all
    {α : Type} {found : Option α} {names : List String} {name : String}
    (all : found.isSome = true → name ∈ names) :
    (if name ∈ names then found else none) = found := by
  by_cases inNames : name ∈ names
  · rw [if_pos inNames]
  · rw [if_neg inNames]
    exact (Option.not_isSome_iff_eq_none.mp fun present => inNames (all present)).symm

/-- On the way to a graph some of its nodes are there, and its channels with some of their ends;
a channel is there as soon as it has an end. -/
structure Towards (target current : Graph) (nodes : List String)
    (ends : List (String × Endpoint)) : Prop where
  mirrored : current.Mirrored
  bare : current.bare = target.bare
  node : ∀ name, current.bareNode? name = if name ∈ nodes then target.bareNode? name else none
  channel : ∀ name, current.bareChannel? name =
    if name ∈ ends.map Prod.fst then target.bareChannel? name else none
  ended_iff : ∀ name endpoint, current.lists name endpoint = true ↔ (name, endpoint) ∈ ends
  listed : ∀ {name : String} {endpoint : Endpoint}, (name, endpoint) ∈ ends →
    target.lists name endpoint = true

namespace Towards

variable {registry : Registry} {target current : Graph} {nodes : List String}
  {ends : List (String × Endpoint)}

theorem start
    (target : Graph) :
    Towards target (empty target.name target.packagePath target.isCommand) [] [] where
  mirrored := Mirrored.empty _ _ _
  bare := rfl
  node _ := rfl
  channel _ := rfl
  ended_iff name endpoint := by simp [lists, channel?, empty]
  listed member := absurd member List.not_mem_nil

/-- The way ends at the graph when all its nodes and all its ends are there. -/
theorem eq_target
    (towards : Towards target current nodes ends) (targetMirrored : target.Mirrored)
    (allNodes : ∀ name, (target.bareNode? name).isSome = true → name ∈ nodes)
    (allChannels : ∀ name, (target.bareChannel? name).isSome = true → name ∈ ends.map Prod.fst)
    (allEnds : ∀ {name : String} {endpoint : Endpoint},
      target.lists name endpoint = true → (name, endpoint) ∈ ends) :
    current = target := by
  refine ext_views towards.mirrored targetMirrored towards.bare ?_ ?_ ?_
  · intro name
    rw [towards.node]
    exact ite_mem_of_all (allNodes name)
  · intro name
    rw [towards.channel]
    exact ite_mem_of_all (allChannels name)
  · intro name endpoint
    rw [Bool.eq_iff_iff, towards.ended_iff]
    exact ⟨towards.listed, allEnds⟩

/-! ## Nodes -/

theorem createNode
    (towards : Towards target current nodes ends) (targetMirrored : target.Mirrored)
    (legal : Legal registry target) {name : String} {node : Node}
    (present : target.node? name = some node) (fresh : name ∉ nodes) :
    ∃ next, current.apply registry (.createNode node.creation) = .ok next ∧
      Towards target next (name :: nodes) ends := by
  have named : node.name = name := targetMirrored.nodeNamed present
  subst named
  have fits := legal.node (bareNode?_eq_some present)
  have free : current.node? node.creation.name = none := by
    have missing : current.bareNode? node.name = none := by rw [towards.node, if_neg fresh]
    exact Option.map_eq_none_iff.mp missing
  obtain ⟨key, config, isMade⟩ := fits.made
  have made : registry.construct node.part.kind.key node.part.config = .ok node.part :=
    Registry.construct_config isMade (Registry.knows_of_construct isMade)
  have granted : current.apply registry (.createNode node.creation) =
      .ok (current.putNode node.name (node.creation.node node.part)) :=
    createNode_eq_ok_iff.mpr ⟨fits.named, free, fits.instances, node.part, made, rfl⟩
  refine ⟨_, granted, towards.mirrored.of_apply granted, towards.bare, ?_, towards.channel,
    towards.ended_iff, towards.listed⟩
  intro other
  rw [bareNode?, node?_putNode]
  by_cases same : other = node.name
  · subst same
    rw [if_pos rfl, if_pos List.mem_cons_self, bareNode?_eq_some present]
    rfl
  · have inNodes_iff : other ∈ node.name :: nodes ↔ other ∈ nodes := by
      rw [List.mem_cons, or_iff_right same]
    rw [if_neg same, ← bareNode?, towards.node]
    simp only [inNodes_iff]

theorem createNodes
    (towards : Towards target current nodes ends) (targetMirrored : target.Mirrored)
    (legal : Legal registry target) (added : List Node)
    (present : ∀ node ∈ added, target.node? node.name = some node)
    (namesNodup : (added.map Node.name).Nodup)
    (fresh : ∀ node ∈ added, node.name ∉ nodes) :
    ∃ next, current.applyInTurn registry
        (added.map fun node => .createNode node.creation) = .ok next ∧
      Towards target next ((added.map Node.name).reverse ++ nodes) ends := by
  induction added generalizing current nodes with
  | nil => exact ⟨current, rfl, towards⟩
  | cons node rest inductionHypothesis =>
      obtain ⟨nodePresent, restPresent⟩ := List.forall_mem_cons.mp present
      obtain ⟨nodeFresh, restFresh⟩ := List.forall_mem_cons.mp fresh
      obtain ⟨notInRest, restNodup⟩ := List.nodup_cons.mp namesNodup
      obtain ⟨after, granted, afterTowards⟩ :=
        towards.createNode targetMirrored legal nodePresent nodeFresh
      have stillFresh : ∀ other ∈ rest, other.name ∉ node.name :: nodes := by
        intro other inRest
        have different : other.name ≠ node.name := by
          intro same
          exact notInRest (List.mem_map.mpr ⟨other, inRest, same⟩)
        rw [List.mem_cons, not_or]
        exact ⟨different, restFresh other inRest⟩
      obtain ⟨next, restGranted, nextTowards⟩ :=
        inductionHypothesis afterTowards restPresent restNodup stillFresh
      refine ⟨next, ?_, ?_⟩
      · rw [List.map_cons, applyInTurn_cons_of_granted granted]
        exact restGranted
      · rw [List.map_cons, List.reverse_cons, List.append_assoc]
        exact nextTowards

/-! ## Channels -/

section Channels

variable (towards : Towards target current nodes ends) (targetMirrored : target.Mirrored)
  (legal : Legal registry target)
  (allNodes : ∀ name, (target.bareNode? name).isSome = true → name ∈ nodes)

include towards allNodes in
theorem pin?_eq_target
    (endpoint : Endpoint) :
    current.pin? endpoint = target.pin? endpoint := by
  have sameNode : current.bareNode? endpoint.node = target.bareNode? endpoint.node := by
    rw [towards.node]
    exact ite_mem_of_all (allNodes endpoint.node)
  rw [pin?_eq, pin?_eq, sameNode]

include towards targetMirrored in
/-- An end of the graph that is not there yet is not bound: it is an end of one channel only. -/
theorem unbound_of_not_mem
    {name : String} {endpoint : Endpoint} (listed : target.lists name endpoint = true)
    (fresh : (name, endpoint) ∉ ends) :
    current.binding? endpoint = none := by
  rw [Option.eq_none_iff_forall_ne_some]
  intro other bound
  have inCurrent := (towards.mirrored.bound_iff endpoint other).mp bound
  have inEnds := (towards.ended_iff other endpoint).mp inCurrent
  have sameChannel : other = name := targetMirrored.lists_unique (towards.listed inEnds) listed
  rw [sameChannel] at inEnds
  exact fresh inEnds

include towards targetMirrored legal allNodes

/-- A channel that is not there yet can be created between an input and an output of its ends. -/
theorem apply_createChannel
    {name : String} {channel : Channel} {receiver sender : Endpoint}
    (opens : Opening target name channel receiver sender) (fresh : name ∉ ends.map Prod.fst) :
    current.apply registry (.createChannel (channel.creation receiver sender)) =
      .ok (current.addChannel (channel.creation receiver sender)) := by
  obtain ⟨present, receiverListed, senderListed, ⟨input, receiverPin, isInput⟩, output,
    senderPin, isOutput⟩ := opens
  have named : channel.name = name := targetMirrored.channelNamed present
  subst named
  have pins := towards.pin?_eq_target allNodes
  have unbound {endpoint : Endpoint} (listed : target.lists channel.name endpoint = true) :
      current.binding? endpoint = none :=
    towards.unbound_of_not_mem targetMirrored listed
      fun member => fresh (List.mem_map.mpr ⟨_, member, rfl⟩)
  have free : current.channel? channel.name = none := by
    have missing : current.bareChannel? channel.name = none := by
      rw [towards.channel, if_neg fresh]
    exact Option.map_eq_none_iff.mp missing
  have differentDirection : input.direction ≠ output.direction := by
    rw [isInput, isOutput]
    exact nofun
  have differentNode : receiver.node ≠ sender.node := by
    intro sameNode
    have same := targetMirrored.oneOnNode receiverListed senderListed sameNode
    rw [same, senderPin] at receiverPin
    exact differentDirection (congrArg Pin.direction (Option.some.inj receiverPin)).symm
  have typed {endpoint : Endpoint} {pin : Pin}
      (listed : target.lists channel.name endpoint = true)
      (pinPresent : target.pin? endpoint = some pin) : pin.type = channel.type := by
    obtain ⟨found, foundPresent, sameType⟩ := targetMirrored.sameType present listed
    rw [pinPresent] at foundPresent
    rw [Option.some.inj foundPresent]
    exact sameType
  exact createChannel_eq_ok_iff.mpr ⟨input, (pins receiver).trans receiverPin, output,
    (pins sender).trans senderPin, unbound receiverListed, unbound senderListed,
    legal.channel_named present, free, differentNode, typed receiverListed receiverPin,
    typed senderListed senderPin, differentDirection, rfl⟩

theorem createChannel
    {name : String} {channel : Channel} {receiver sender : Endpoint}
    (opens : Opening target name channel receiver sender) (fresh : name ∉ ends.map Prod.fst) :
    ∃ next, current.apply registry (.createChannel (channel.creation receiver sender)) =
        .ok next ∧
      Towards target next nodes ((name, receiver) :: (name, sender) :: ends) := by
  have granted := towards.apply_createChannel targetMirrored legal allNodes opens fresh
  have created : (channel.creation receiver sender).name = name :=
    targetMirrored.channelNamed opens.present
  refine ⟨_, granted, towards.mirrored.of_apply granted, towards.bare, ?_, ?_, ?_, ?_⟩
  · intro other
    rw [bareNode?_addChannel]
    exact towards.node other
  · intro other
    rw [bareChannel?_addChannel, created]
    by_cases same : other = name
    · have inEnds : other ∈ ((name, receiver) :: (name, sender) :: ends).map Prod.fst := by
        rw [same]
        exact List.mem_cons_self
      rw [if_pos same, if_pos inEnds, same, bareChannel?_eq_some opens.present]
      rfl
    · have inEnds_iff : other ∈ ((name, receiver) :: (name, sender) :: ends).map Prod.fst ↔
          other ∈ ends.map Prod.fst := by
        simp [same]
      rw [if_neg same, towards.channel]
      simp only [inEnds_iff]
  · intro other endpoint
    have notInEnds : (name, endpoint) ∉ ends :=
      fun member => fresh (List.mem_map.mpr ⟨_, member, rfl⟩)
    rw [lists_addChannel_iff, created]
    by_cases same : other = name
    · subst same
      simp [Channel.creation, notInEnds]
    · simp [same, towards.ended_iff]
  · intro other endpoint member
    simp only [List.mem_cons, Prod.mk.injEq] at member
    rcases member with ⟨rfl, rfl⟩ | ⟨rfl, rfl⟩ | inEnds
    · exact opens.receiverListed
    · exact opens.senderListed
    · exact towards.listed inEnds

variable (registry) in
omit legal in
theorem connectPin
    {name : String} {endpoint : Endpoint} (listed : target.lists name endpoint = true)
    (opened : name ∈ ends.map Prod.fst) (fresh : (name, endpoint) ∉ ends) :
    ∃ next, current.apply registry (.connectPin ⟨endpoint, name⟩) = .ok next ∧
      Towards target next nodes ((name, endpoint) :: ends) := by
  obtain ⟨channel, present, _⟩ := lists_iff.mp listed
  obtain ⟨pin, pinPresent, sameType⟩ := targetMirrored.sameType present listed
  have bareFound : current.bareChannel? name = some channel.bare := by
    rw [towards.channel, if_pos opened, bareChannel?_eq_some present]
  obtain ⟨found, foundPresent, sameBare⟩ := Option.map_eq_some_iff.mp bareFound
  have bareType : found.bare.type = channel.bare.type := congrArg Channel.type sameBare
  have foundType : found.type = channel.type := bareType
  have apart (other : Endpoint) (contained : found.ends.contains other = true) :
      other.node ≠ endpoint.node := by
    intro sameNode
    have inCurrent : current.lists name other = true := by
      rw [lists_of_channel? foundPresent]
      exact contained
    have inEnds := (towards.ended_iff name other).mp inCurrent
    have same := targetMirrored.oneOnNode (towards.listed inEnds) listed sameNode
    rw [same] at inEnds
    exact fresh inEnds
  have granted : current.apply registry (.connectPin ⟨endpoint, name⟩) =
      .ok (current.attach endpoint name) := by
    refine connectPin_eq_ok_iff.mpr ⟨pin, ?_, found, foundPresent,
      towards.unbound_of_not_mem targetMirrored listed fresh, apart, ?_, rfl⟩
    · rw [towards.pin?_eq_target allNodes]
      exact pinPresent
    · rw [foundType]
      exact sameType
  have isPresent : (current.channel? name).isSome = true := Option.isSome_of_eq_some foundPresent
  refine ⟨_, granted, towards.mirrored.of_apply granted, towards.bare, ?_, ?_, ?_, ?_⟩
  · intro other
    rw [bareNode?_attach]
    exact towards.node other
  · intro other
    have inEnds_iff : other ∈ ((name, endpoint) :: ends).map Prod.fst ↔
        other ∈ ends.map Prod.fst := by
      rw [List.map_cons, List.mem_cons]
      exact or_iff_right_of_imp fun same => same ▸ opened
    rw [bareChannel?_attach, towards.channel]
    simp only [inEnds_iff]
  · intro other place
    rw [lists_attach_iff isPresent, towards.ended_iff, List.mem_cons, Prod.mk.injEq]
  · intro other place member
    rcases List.mem_cons.mp member with same | inEnds
    · obtain ⟨rfl, rfl⟩ := Prod.mk.inj same
      exact listed
    · exact towards.listed inEnds

variable (registry) in
omit legal in
theorem connectPins
    {name : String} (added : List Endpoint)
    (listed : ∀ endpoint ∈ added, target.lists name endpoint = true) (nodup : added.Nodup)
    (opened : name ∈ ends.map Prod.fst)
    (fresh : ∀ endpoint ∈ added, (name, endpoint) ∉ ends) :
    ∃ next, current.applyInTurn registry
        (added.map fun endpoint => .connectPin ⟨endpoint, name⟩) = .ok next ∧
      Towards target next nodes
        ((added.map fun endpoint => (name, endpoint)).reverse ++ ends) := by
  induction added generalizing current ends with
  | nil => exact ⟨current, rfl, towards⟩
  | cons endpoint rest inductionHypothesis =>
      obtain ⟨endpointListed, restListed⟩ := List.forall_mem_cons.mp listed
      obtain ⟨endpointFresh, restFresh⟩ := List.forall_mem_cons.mp fresh
      obtain ⟨notInRest, restNodup⟩ := List.nodup_cons.mp nodup
      obtain ⟨after, granted, afterTowards⟩ :=
        towards.connectPin registry targetMirrored allNodes endpointListed opened
          endpointFresh
      have stillFresh : ∀ other ∈ rest, (name, other) ∉ (name, endpoint) :: ends := by
        intro other inRest
        have different : other ≠ endpoint := fun same => notInRest (same ▸ inRest)
        simp [different, restFresh other inRest]
      obtain ⟨next, restGranted, nextTowards⟩ :=
        inductionHypothesis afterTowards restListed restNodup
          (List.mem_cons_of_mem _ opened) stillFresh
      refine ⟨next, ?_, ?_⟩
      · rw [List.map_cons, applyInTurn_cons_of_granted granted]
        exact restGranted
      · rw [List.map_cons, List.reverse_cons, List.append_assoc]
        exact nextTowards

end Channels

/-- The requests for a channel that has an end in a consistent graph create it between an input and
an output, and attach its other ends. -/
theorem exists_channelRequests
    {target : Graph} (consistent : target.Consistent) {name : String} {channel : Channel}
    (present : target.channel? name = some channel)
    (ended : ∃ endpoint, target.lists name endpoint = true) :
    ∃ receiver sender, Opening target name channel receiver sender ∧
      target.channelRequests channel = .createChannel (channel.creation receiver sender) ::
        (channel.ends.toList.filter fun endpoint => endpoint ≠ receiver ∧ endpoint ≠ sender).map
          fun endpoint => .connectPin ⟨endpoint, name⟩ := by
  have listed_iff (endpoint : Endpoint) :
      endpoint ∈ channel.ends.toList ↔ target.lists name endpoint = true := by
    rw [lists_of_channel? present, KeySet.mem_toList_iff]
  have first (direction : Direction) : ∃ endpoint, channel.ends.toList.find?
        (fun endpoint => target.hasDirection direction [endpoint]) = some endpoint ∧
      target.lists name endpoint = true ∧
      ∃ pin, target.pin? endpoint = some pin ∧ pin.direction = direction := by
    obtain ⟨anyEnd, anyListed⟩ := ended
    obtain ⟨endpoint, endpointListed, pointing⟩ :=
      hasEnd_of_isViable present (consistent.viable anyListed) direction
    have points := hasDirection_iff.mpr ⟨endpoint, List.mem_singleton_self endpoint, pointing⟩
    have isThere : (channel.ends.toList.find? fun endpoint =>
        target.hasDirection direction [endpoint]).isSome = true :=
      List.find?_isSome.mpr ⟨endpoint, (listed_iff endpoint).mpr endpointListed, points⟩
    obtain ⟨found, isFound⟩ := Option.isSome_iff_exists.mp isThere
    have foundPoints := List.find?_some isFound
    obtain ⟨place, member, pin, pinPresent, isDirection⟩ := hasDirection_iff.mp foundPoints
    rw [List.mem_singleton.mp member] at pinPresent
    exact ⟨found, isFound, (listed_iff found).mp (List.mem_of_find?_eq_some isFound), pin,
      pinPresent, isDirection⟩
  obtain ⟨receiver, isReceiver, receiverListed, receives⟩ := first .input
  obtain ⟨sender, isSender, senderListed, sends⟩ := first .output
  refine ⟨receiver, sender, ⟨present, receiverListed, senderListed, receives, sends⟩, ?_⟩
  simp only [channelRequests, isReceiver, isSender, consistent.channelNamed present]

/-- What the requests for a channel add are all its ends. -/
theorem buildChannel
    (towards : Towards target current nodes ends) (consistent : target.Consistent)
    (legal : Legal registry target)
    (allNodes : ∀ name, (target.bareNode? name).isSome = true → name ∈ nodes)
    {name : String} {channel : Channel} (present : target.channel? name = some channel)
    (ended : ∃ endpoint, target.lists name endpoint = true) (fresh : name ∉ ends.map Prod.fst) :
    ∃ next more, current.applyInTurn registry (target.channelRequests channel) = .ok next ∧
      Towards target next nodes (more ++ ends) ∧
      ∀ other endpoint, (other, endpoint) ∈ more ↔
        other = name ∧ target.lists name endpoint = true := by
  obtain ⟨receiver, sender, opens, requests⟩ := exists_channelRequests consistent present ended
  generalize isOthers : (channel.ends.toList.filter fun endpoint =>
    endpoint ≠ receiver ∧ endpoint ≠ sender) = others at requests
  have mem_others_iff (endpoint : Endpoint) : endpoint ∈ others ↔
      target.lists name endpoint = true ∧ endpoint ≠ receiver ∧ endpoint ≠ sender := by
    rw [← isOthers, List.mem_filter, lists_of_channel? present, KeySet.mem_toList_iff,
      decide_eq_true_eq]
  have othersNodup : others.Nodup := isOthers ▸ (keys_nodup_of_ends channel).filter _
  obtain ⟨opened, granted, openedTowards⟩ :=
    towards.createChannel consistent.toMirrored legal allNodes opens fresh
  have othersFresh : ∀ endpoint ∈ others,
      (name, endpoint) ∉ (name, receiver) :: (name, sender) :: ends := by
    intro endpoint member
    obtain ⟨_, notReceiver, notSender⟩ := (mem_others_iff endpoint).mp member
    have notInEnds : (name, endpoint) ∉ ends :=
      fun inEnds => fresh (List.mem_map.mpr ⟨_, inEnds, rfl⟩)
    simp [notReceiver, notSender, notInEnds]
  obtain ⟨next, restGranted, nextTowards⟩ :=
    openedTowards.connectPins registry consistent.toMirrored allNodes others
      (fun endpoint member => ((mem_others_iff endpoint).mp member).1) othersNodup
      List.mem_cons_self othersFresh
  refine ⟨next, (others.map fun endpoint => (name, endpoint)).reverse ++
    [(name, receiver), (name, sender)], ?_, ?_, ?_⟩
  · rw [requests, applyInTurn_cons_of_granted granted]
    exact restGranted
  · rw [List.append_assoc]
    exact nextTowards
  · intro other endpoint
    simp only [List.mem_append, List.mem_reverse, List.mem_map, mem_others_iff, Prod.mk.injEq,
      List.mem_cons, List.not_mem_nil, or_false]
    constructor
    · rintro (⟨place, ⟨listed, _⟩, rfl, rfl⟩ | ⟨rfl, rfl⟩ | ⟨rfl, rfl⟩)
      · exact ⟨rfl, listed⟩
      · exact ⟨rfl, opens.receiverListed⟩
      · exact ⟨rfl, opens.senderListed⟩
    · rintro ⟨rfl, listed⟩
      by_cases atReceiver : endpoint = receiver
      · exact Or.inr (Or.inl ⟨rfl, atReceiver⟩)
      · by_cases atSender : endpoint = sender
        · exact Or.inr (Or.inr ⟨rfl, atSender⟩)
        · exact Or.inl ⟨endpoint, ⟨listed, atReceiver, atSender⟩, rfl, rfl⟩

theorem buildChannels
    (towards : Towards target current nodes ends) (consistent : target.Consistent)
    (legal : Legal registry target)
    (allNodes : ∀ name, (target.bareNode? name).isSome = true → name ∈ nodes)
    (added : List Channel)
    (present : ∀ channel ∈ added, target.channel? channel.name = some channel)
    (ended : ∀ channel ∈ added, ∃ endpoint, target.lists channel.name endpoint = true)
    (namesNodup : (added.map Channel.name).Nodup)
    (fresh : ∀ channel ∈ added, channel.name ∉ ends.map Prod.fst) :
    ∃ next more, current.applyInTurn registry (added.flatMap target.channelRequests) =
        .ok next ∧
      Towards target next nodes (more ++ ends) ∧
      ∀ name endpoint, (name, endpoint) ∈ more ↔
        name ∈ added.map Channel.name ∧ target.lists name endpoint = true := by
  induction added generalizing current ends with
  | nil => exact ⟨current, [], rfl, towards, by simp⟩
  | cons channel rest inductionHypothesis =>
      obtain ⟨channelPresent, restPresent⟩ := List.forall_mem_cons.mp present
      obtain ⟨channelEnded, restEnded⟩ := List.forall_mem_cons.mp ended
      obtain ⟨channelFresh, restFresh⟩ := List.forall_mem_cons.mp fresh
      obtain ⟨notInRest, restNodup⟩ := List.nodup_cons.mp namesNodup
      obtain ⟨after, first, granted, afterTowards, mem_first_iff⟩ :=
        towards.buildChannel consistent legal allNodes channelPresent channelEnded channelFresh
      have stillFresh : ∀ other ∈ rest, other.name ∉ (first ++ ends).map Prod.fst := by
        intro other inRest member
        rw [List.map_append, List.mem_append] at member
        rcases member with inFirst | inEnds
        · obtain ⟨⟨name, endpoint⟩, inFirst, same⟩ := List.mem_map.mp inFirst
          have atChannel := ((mem_first_iff name endpoint).mp inFirst).1
          exact notInRest (List.mem_map.mpr ⟨other, inRest, same.symm.trans atChannel⟩)
        · exact restFresh other inRest inEnds
      obtain ⟨next, others, restGranted, nextTowards, mem_others_iff⟩ :=
        inductionHypothesis afterTowards restPresent restEnded restNodup stillFresh
      refine ⟨next, others ++ first, ?_, ?_, ?_⟩
      · rw [List.flatMap_cons, applyInTurn_append_of_granted granted]
        exact restGranted
      · rw [List.append_assoc]
        exact nextTowards
      · intro name endpoint
        rw [List.mem_append, mem_others_iff, mem_first_iff, List.map_cons, List.mem_cons]
        constructor
        · rintro (⟨inRest, listed⟩ | ⟨rfl, listed⟩)
          · exact ⟨Or.inr inRest, listed⟩
          · exact ⟨Or.inl rfl, listed⟩
        · rintro ⟨rfl | inRest, listed⟩
          · exact Or.inr ⟨rfl, listed⟩
          · exact Or.inl ⟨inRest, listed⟩

end Towards

/-! ## The whole graph -/

theorem applyInTurn_buildingRequests
    {registry : Registry} {graph : Graph} (consistent : graph.Consistent)
    (legal : Legal registry graph)
    (ended : ∀ {name : String} {channel : Channel}, graph.channel? name = some channel →
      channel.ends.isEmpty = false) :
    (empty graph.name graph.packagePath graph.isCommand).applyInTurn registry
      graph.buildingRequests = .ok graph := by
  have nodeNames : graph.nodes.values.map Node.name = graph.nodes.keys :=
    Table.map_values_eq_keys fun present => consistent.nodeNamed present
  have channelNames : graph.channels.values.map Channel.name = graph.channels.keys :=
    Table.map_values_eq_keys fun present => consistent.channelNamed present
  have nodePresent : ∀ node ∈ graph.nodes.values, graph.node? node.name = some node :=
    fun _ => (Table.mem_values_iff_get? consistent.nodeNamed).mp
  have channelPresent : ∀ channel ∈ graph.channels.values,
      graph.channel? channel.name = some channel :=
    fun _ => (Table.mem_values_iff_get? consistent.channelNamed).mp
  obtain ⟨peopled, nodesGranted, peopledTowards⟩ :=
    (Towards.start graph).createNodes consistent.toMirrored legal graph.nodes.values nodePresent
      (Table.nodup_map_values consistent.nodeNamed) fun _ _ => List.not_mem_nil
  have allNodes : ∀ name, (graph.bareNode? name).isSome = true →
      name ∈ (graph.nodes.values.map Node.name).reverse ++ [] := by
    intro name present
    rw [List.append_nil, List.mem_reverse, nodeNames, Table.mem_keys_iff]
    rw [bareNode?_isSome] at present
    exact present
  obtain ⟨last, ends, channelsGranted, lastTowards, mem_ends_iff⟩ :=
    peopledTowards.buildChannels consistent legal allNodes graph.channels.values channelPresent
      (fun channel member =>
        have present := channelPresent channel member
        (isEmpty_eq_false_iff present).mp (ended present))
      (Table.nodup_map_values consistent.channelNamed) fun _ _ => List.not_mem_nil
  have mem_names_iff (name : String) : name ∈ graph.channels.values.map Channel.name ↔
      (graph.bareChannel? name).isSome = true := by
    rw [channelNames, Table.mem_keys_iff, bareChannel?_isSome]
    rfl
  have allEnds {name : String} {endpoint : Endpoint}
      (listed : graph.lists name endpoint = true) : (name, endpoint) ∈ ends ++ [] := by
    obtain ⟨channel, present, _⟩ := lists_iff.mp listed
    have inNames : name ∈ graph.channels.values.map Channel.name := by
      rw [mem_names_iff, bareChannel?_isSome]
      exact Option.isSome_of_eq_some present
    rw [List.append_nil]
    exact (mem_ends_iff name endpoint).mpr ⟨inNames, listed⟩
  have allChannels : ∀ name, (graph.bareChannel? name).isSome = true →
      name ∈ (ends ++ []).map Prod.fst := by
    intro name isPresent
    rw [bareChannel?_isSome] at isPresent
    obtain ⟨channel, present⟩ := Option.isSome_iff_exists.mp isPresent
    obtain ⟨endpoint, listed⟩ := (isEmpty_eq_false_iff present).mp (ended present)
    exact List.mem_map.mpr ⟨_, allEnds listed, rfl⟩
  have isGraph : last = graph :=
    lastTowards.eq_target consistent.toMirrored allNodes allChannels allEnds
  rw [buildingRequests, applyInTurn_append_of_granted nodesGranted, channelsGranted, isGraph]

theorem op_of_mem_buildingRequests
    {graph : Graph} {request : Request} (member : request ∈ graph.buildingRequests) :
    request.op ∈ ["CreateNode", "CreateChannel", "ConnectPin"] := by
  rcases List.mem_append.mp member with forNode | forChannel
  · obtain ⟨node, _, rfl⟩ := List.mem_map.mp forNode
    exact List.mem_cons_self
  · obtain ⟨channel, _, forChannel⟩ := List.mem_flatMap.mp forChannel
    rw [channelRequests] at forChannel
    split at forChannel
    · rcases List.mem_cons.mp forChannel with rfl | toAttach
      · exact List.mem_cons_of_mem _ List.mem_cons_self
      · obtain ⟨endpoint, _, rfl⟩ := List.mem_map.mp toAttach
        exact List.mem_cons_of_mem _ (List.mem_cons_of_mem _ List.mem_cons_self)
    · exact absurd forChannel List.not_mem_nil

/-- A graph that was built by requests has no channel without ends. -/
theorem Built.ended
    {registry : Registry} {graph : Graph} (built : Built registry graph) {name : String}
    {channel : Channel} (present : graph.channel? name = some channel) :
    channel.ends.isEmpty = false := by
  obtain ⟨endpoint, listed, _⟩ := hasEnd_of_isViable present (built.viable name) .input
  exact (isEmpty_eq_false_iff present).mpr ⟨endpoint, listed⟩

/-- A graph that was read can be built from an empty one by requests for nodes, for channels and
to attach pins, all of them granted, exactly when none of its channels is without ends. -/
theorem buildable_iff_ended
    (registry : Registry) {bytes : ByteArray} {graph : Graph}
    (read : Graph.read registry bytes = .ok graph) :
    (∃ requests : List Request,
      (∀ request ∈ requests, request.op ∈ ["CreateNode", "CreateChannel", "ConnectPin"]) ∧
        (empty graph.name graph.packagePath graph.isCommand).applyInTurn registry requests =
          .ok graph) ↔
      ∀ {name : String} {channel : Channel}, graph.channel? name = some channel →
        channel.ends.isEmpty = false := by
  obtain ⟨unproblematic, legal⟩ := legal_of_read read
  have consistent := problems_eq_nil_iff.mp unproblematic
  constructor
  · rintro ⟨requests, _, granted⟩ name channel present
    have built : Built registry graph := by
      rw [← run_of_applyInTurn granted]
      exact run_induction (Built.empty registry _ _ _)
        (fun current isGranted => current.of_apply isGranted) requests
    exact built.ended present
  · intro ended
    exact ⟨graph.buildingRequests, fun request member => op_of_mem_buildingRequests member,
      applyInTurn_buildingRequests consistent legal ended⟩

theorem buildable_iff_ended_fanIn :
    Graph.read Registry.builtin fanIn.text.toUTF8 = .ok fanIn ∧
      (∀ {name : String} {channel : Channel}, fanIn.channel? name = some channel →
        channel.ends.isEmpty = false) ∧
      ∃ requests : List Request,
        (∀ request ∈ requests, request.op ∈ ["CreateNode", "CreateChannel", "ConnectPin"]) ∧
          (empty fanIn.name fanIn.packagePath fanIn.isCommand).applyInTurn Registry.builtin
            requests = .ok fanIn := by
  have isRead := read_text_of_consistent fanIn_built.consistent fanIn_built.legal
  exact ⟨isRead, fanIn_built.ended,
    (buildable_iff_ended Registry.builtin isRead).mpr fanIn_built.ended⟩

end Graph

end Pipework
