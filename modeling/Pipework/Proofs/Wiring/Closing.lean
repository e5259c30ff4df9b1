import Pipework.Proofs.Wiring.Arguments
import Pipework.Proofs.Graph.Removal
import Pipework.Proofs.Part.Pins

/-!
# Who closes which channel

A generated program stops when each of its channels is closed once, by whoever sends to it last.
`Wiring.Sound` says of a wiring that it names different variables, gives them to parameters of
their type, and has each of them closed by one party: the node that is given it for an output, or
the goroutine that merges private channels into it. The wiring of a consistent graph is sound
(`Graph.wiring_sound`).
-/

namespace Pipework

/-! ## Variables, arguments and closers -/

/-- The variables that are made for a channel: its own and those of its writers. -/
def WiredChannel.goVariables (channel : WiredChannel) : List String :=
  channel.ident :: channel.writers

/-- What a node is given for the pin with a name. -/
def WiredNode.argument? (wired : WiredNode) (pin : String) : Option String :=
  (wired.params.find? fun param => param.pin.name = pin).bind Param.given?

/-- A party that closes a variable: a node through one of its pins, or the goroutine that merges
the private channels of a channel. -/
inductive Closer where
  | node (node pin : String)
  | merge (channel : String)
  deriving DecidableEq, Repr

namespace Wiring

/-- All variables that a program makes for its channels. -/
def goVariables (wiring : Wiring) : List String :=
  wiring.channels.flatMap WiredChannel.goVariables

/-- What the parameters of a direction are given, over all nodes. -/
def given (wiring : Wiring) (direction : Direction) : List String :=
  wiring.nodes.flatMap fun wired =>
    (wired.params.filter fun param => param.pin.direction = direction).filterMap Param.given?

/-- The nodes that close a variable, with the pin through which they do. -/
def nodeClosers (wiring : Wiring) (ident : String) : List Closer :=
  wiring.nodes.flatMap fun wired =>
    (wired.closes.filter fun pin => wired.argument? pin = some ident).map
      (Closer.node wired.node.name)

/-- The channels whose merging goroutine closes a variable. -/
def mergeClosers (wiring : Wiring) (ident : String) : List Closer :=
  (wiring.channels.filter fun channel =>
      !channel.writers.isEmpty && decide (channel.ident = ident)).map
    fun channel => Closer.merge channel.name

/-- The parties that close a variable, one for each time it is closed. -/
def closers (wiring : Wiring) (ident : String) : List Closer :=
  wiring.nodeClosers ident ++ wiring.mergeClosers ident

/-- Every variable is used, by parameters of its type, and closed once. -/
structure Sound (wiring : Wiring) : Prop where
  distinct : wiring.goVariables.Nodup
  typed : ∀ wired ∈ wiring.nodes, ∀ param ∈ wired.params, ∀ ident,
    param.given? = some ident →
      ∃ channel ∈ wiring.channels, ident ∈ channel.goVariables ∧
        channel.type = param.pin.type
  sharedWritten : ∀ channel ∈ wiring.channels,
    (wiring.given .output).count channel.ident = if channel.writers = [] then 1 else 0
  privateWritten : ∀ channel ∈ wiring.channels, ∀ ident ∈ channel.writers,
    (wiring.given .output).count ident = 1 ∧ ident ∉ wiring.given .input
  several : ∀ channel ∈ wiring.channels, channel.writers ≠ [] → 2 ≤ channel.writers.length
  sharedRead : ∀ channel ∈ wiring.channels, channel.ident ∈ wiring.given .input
  closesNodup : ∀ wired ∈ wiring.nodes, wired.closes.Nodup
  sharedClosed : ∀ channel ∈ wiring.channels,
    if channel.writers = [] then
      ∃ node pin, wiring.closers channel.ident = [.node node pin]
    else wiring.closers channel.ident = [.merge channel.name]
  privateClosed : ∀ channel ∈ wiring.channels, ∀ ident ∈ channel.writers,
    ∃ node pin, wiring.closers ident = [.node node pin]

end Wiring

namespace Graph

/-! ## Pins of enabled nodes -/

/-- The pins of a direction, over the nodes that are enabled. -/
def enabledPins (graph : Graph) (direction : Direction) : List Endpoint :=
  graph.enabledNodes.flatMap fun node =>
    (node.part.pins.filter fun pin => pin.direction = direction).map fun pin =>
      ⟨node.name, pin.name⟩

/-- Whether no two pins of a node have one name. -/
def PinsApart (graph : Graph) : Prop :=
  ∀ {name : String} {node : Node}, graph.node? name = some node →
    (node.part.pins.map Pin.name).Nodup

section Pins

variable {graph : Graph}

theorem mem_enabledNodes_iff
    (mirrored : graph.Mirrored) {node : Node} :
    node ∈ graph.enabledNodes ↔ graph.node? node.name = some node ∧ node.enabled = true := by
  rw [enabledNodes, List.mem_filter, Table.mem_values_iff_get? mirrored.nodeNamed]
  rfl

theorem enabledNodes_names_nodup
    (mirrored : graph.Mirrored) :
    (graph.enabledNodes.map Node.name).Nodup :=
  (Table.nodup_map_values mirrored.nodeNamed).sublist (List.filter_sublist.map Node.name)

theorem mem_enabledPins_iff
    (mirrored : graph.Mirrored) (apart : graph.PinsApart) {direction : Direction}
    {endpoint : Endpoint} :
    endpoint ∈ graph.enabledPins direction ↔
      graph.isEnabled endpoint.node = true ∧
        ∃ pin, graph.pin? endpoint = some pin ∧ pin.direction = direction := by
  simp only [enabledPins, List.mem_flatMap, List.mem_map, List.mem_filter, decide_eq_true_eq]
  constructor
  · intro found
    obtain ⟨node, enabled, pin, ⟨member, isDirection⟩, rfl⟩ := found
    obtain ⟨present, isEnabled⟩ := (mem_enabledNodes_iff mirrored).mp enabled
    refine ⟨?_, pin, ?_, isDirection⟩
    · rw [Graph.isEnabled, present, Option.any_some, isEnabled]
    · rw [pin?, present, Option.bind_some, Part.pin?, findPin_of_mem (apart present) member]
  · intro active
    obtain ⟨enabled, pin, pinPresent, isDirection⟩ := active
    rw [pin?, Option.bind_eq_some_iff] at pinPresent
    obtain ⟨node, present, found⟩ := pinPresent
    rw [Graph.isEnabled, present, Option.any_some] at enabled
    have named := mirrored.nodeNamed present
    have pinNamed : pin.name = endpoint.pin := by simpa using List.find?_some found
    refine ⟨node, ?_, pin, ⟨List.mem_of_find?_eq_some found, isDirection⟩, ?_⟩
    · rw [mem_enabledNodes_iff mirrored, named]
      exact ⟨present, enabled⟩
    · rw [named, pinNamed]

theorem enabledPins_nodup
    (mirrored : graph.Mirrored) (apart : graph.PinsApart) (direction : Direction) :
    (graph.enabledPins direction).Nodup := by
  rw [enabledPins, List.nodup_flatMap]
  constructor
  · intro node enabled
    have present := ((mem_enabledNodes_iff mirrored).mp enabled).1
    have pinsNodup := (apart present).of_map.filter fun pin : Pin => pin.direction = direction
    refine (List.nodup_map_iff_inj_on pinsNodup).mpr ?_
    intro first inFirst second inSecond same
    injection same with _ sameName
    exact List.inj_on_of_nodup_map (apart present) (List.mem_of_mem_filter inFirst)
      (List.mem_of_mem_filter inSecond) sameName
  · have namesDiffer := List.pairwise_map.mp (enabledNodes_names_nodup mirrored)
    refine namesDiffer.imp ?_
    intro left right differ endpoint inLeft inRight
    obtain ⟨_, _, rfl⟩ := List.mem_map.mp inLeft
    obtain ⟨_, _, same⟩ := List.mem_map.mp inRight
    injection same with sameNode _
    exact differ sameNode.symm

end Pins

/-! ## Written and read variables -/

section Given

variable {graph : Graph}

theorem given_eq
    (graph : Graph) (direction : Direction) :
    graph.wiring.given direction =
      (graph.enabledPins direction).filterMap graph.arguments.get? := by
  simp only [Wiring.given, wiring, enabledPins, List.flatMap_map, List.filterMap_flatMap,
    Node.wired, List.filter_map, List.filterMap_map]
  rfl

theorem get?_arguments_output_iff
    (mirrored : graph.Mirrored) (apart : graph.PinsApart) {endpoint : Endpoint} {ident : String}
    (output : endpoint ∈ graph.enabledPins .output) :
    graph.arguments.get? endpoint = some ident ↔
      ∃ channel ∈ graph.liveChannels,
        (endpoint, ident) ∈ writerVariables channel.name (graph.writers channel) := by
  rw [get?_arguments_iff mirrored]
  refine exists_congr fun channel => and_congr_right fun live => or_iff_right ?_
  intro reads
  obtain ⟨_, pin, pinPresent, isOutput⟩ := (mem_enabledPins_iff mirrored apart).mp output
  obtain ⟨found, _, _, foundPresent, isInput⟩ := active_of_mem mirrored live reads.1
  rw [pinPresent] at foundPresent
  rw [← Option.some.inj foundPresent, isOutput] at isInput
  exact Direction.noConfusion isInput

theorem get?_arguments_input_iff
    (mirrored : graph.Mirrored) (apart : graph.PinsApart) {endpoint : Endpoint} {ident : String}
    (input : endpoint ∈ graph.enabledPins .input) :
    graph.arguments.get? endpoint = some ident ↔
      ∃ channel ∈ graph.liveChannels,
        endpoint ∈ graph.readers channel ∧ ident = Go.channelIdent channel.name := by
  rw [get?_arguments_iff mirrored]
  refine exists_congr fun channel => and_congr_right fun live => or_iff_left ?_
  intro writes
  have member : endpoint ∈ graph.writers channel := by
    rw [← writerVariables_fst channel.name (graph.writers channel)]
    exact List.mem_map_of_mem writes
  obtain ⟨_, pin, pinPresent, isInput⟩ := (mem_enabledPins_iff mirrored apart).mp input
  obtain ⟨found, _, _, foundPresent, isOutput⟩ := active_of_mem mirrored live member
  rw [pinPresent] at foundPresent
  rw [← Option.some.inj foundPresent, isInput] at isOutput
  exact Direction.noConfusion isOutput

theorem mem_enabledPins_of_active
    (mirrored : graph.Mirrored) (apart : graph.PinsApart) {channel : Channel}
    (live : channel ∈ graph.liveChannels) {direction : Direction} {endpoint : Endpoint}
    (member : endpoint ∈ graph.activeEnds channel direction) :
    endpoint ∈ graph.enabledPins direction := by
  obtain ⟨pin, _, enabled, pinPresent, isDirection⟩ := active_of_mem mirrored live member
  exact (mem_enabledPins_iff mirrored apart).mpr ⟨enabled, pin, pinPresent, isDirection⟩

theorem mem_given_output_iff
    (mirrored : graph.Mirrored) (apart : graph.PinsApart) {ident : String} :
    ident ∈ graph.wiring.given .output ↔
      ∃ channel ∈ graph.liveChannels,
        ident ∈ (writerVariables channel.name (graph.writers channel)).map Prod.snd := by
  rw [given_eq, List.mem_filterMap]
  constructor
  · intro found
    obtain ⟨endpoint, output, given⟩ := found
    obtain ⟨channel, live, writes⟩ := (get?_arguments_output_iff mirrored apart output).mp given
    exact ⟨channel, live, List.mem_map.mpr ⟨_, writes, rfl⟩⟩
  · intro found
    obtain ⟨channel, live, member⟩ := found
    obtain ⟨⟨endpoint, _⟩, writes, rfl⟩ := List.mem_map.mp member
    have isWriter : endpoint ∈ graph.writers channel := by
      rw [← writerVariables_fst channel.name (graph.writers channel)]
      exact List.mem_map_of_mem writes
    have output := mem_enabledPins_of_active mirrored apart live isWriter
    exact ⟨endpoint, output,
      (get?_arguments_output_iff mirrored apart output).mpr ⟨channel, live, writes⟩⟩

theorem mem_given_input_iff
    (mirrored : graph.Mirrored) (apart : graph.PinsApart) {ident : String} :
    ident ∈ graph.wiring.given .input ↔
      ∃ channel ∈ graph.liveChannels, ident = Go.channelIdent channel.name := by
  rw [given_eq, List.mem_filterMap]
  constructor
  · intro found
    obtain ⟨endpoint, input, given⟩ := found
    obtain ⟨channel, live, _, same⟩ := (get?_arguments_input_iff mirrored apart input).mp given
    exact ⟨channel, live, same⟩
  · intro found
    obtain ⟨channel, live, same⟩ := found
    have isLive := ((mem_liveChannels_iff mirrored).mp live).2
    obtain ⟨endpoint, reads⟩ := List.exists_mem_of_ne_nil _ (readers_ne_nil isLive)
    have input := mem_enabledPins_of_active mirrored apart live reads
    exact ⟨endpoint, input,
      (get?_arguments_input_iff mirrored apart input).mpr ⟨channel, live, reads, same⟩⟩

theorem writerVariable_owner
    {channel : Channel} (isLive : graph.isLive channel = true) {ident : String}
    (member : ident ∈ (writerVariables channel.name (graph.writers channel)).map Prod.snd) :
    ∃ writer, ident = Go.channelVariable channel.name writer := by
  rw [writerVariables_snd channel.name (writers_ne_nil isLive)] at member
  split at member
  · exact ⟨none, List.mem_singleton.mp member⟩
  · obtain ⟨writer, same⟩ := mem_privateVariables member
    exact ⟨some writer, same⟩

theorem output_injective
    (mirrored : graph.Mirrored) (apart : graph.PinsApart) {first second : Endpoint}
    (firstOutput : first ∈ graph.enabledPins .output)
    (secondOutput : second ∈ graph.enabledPins .output) {ident : String}
    (firstGiven : graph.arguments.get? first = some ident)
    (secondGiven : graph.arguments.get? second = some ident) :
    first = second := by
  obtain ⟨left, leftLive, inLeft⟩ :=
    (get?_arguments_output_iff mirrored apart firstOutput).mp firstGiven
  obtain ⟨right, rightLive, inRight⟩ :=
    (get?_arguments_output_iff mirrored apart secondOutput).mp secondGiven
  have leftIsLive := ((mem_liveChannels_iff mirrored).mp leftLive).2
  have rightIsLive := ((mem_liveChannels_iff mirrored).mp rightLive).2
  obtain ⟨leftWriter, isLeft⟩ := writerVariable_owner leftIsLive (List.mem_map_of_mem inLeft)
  obtain ⟨rightWriter, isRight⟩ := writerVariable_owner rightIsLive (List.mem_map_of_mem inRight)
  have sameName := (Go.channelVariable_injective (isLeft.symm.trans isRight)).1
  have sameChannel := liveChannel_eq_of_name mirrored leftLive rightLive sameName
  subst sameChannel
  have nodup := writerVariables_snd_nodup left.name (writers_ne_nil leftIsLive)
  have sameEntry := List.inj_on_of_nodup_map nodup inLeft inRight rfl
  exact congrArg Prod.fst sameEntry

theorem given_output_nodup
    (mirrored : graph.Mirrored) (apart : graph.PinsApart) :
    (graph.wiring.given .output).Nodup := by
  rw [given_eq, List.Nodup, List.pairwise_filterMap]
  refine List.Pairwise.imp_of_mem ?_ (enabledPins_nodup mirrored apart .output)
  intro first second firstOutput secondOutput different ident firstGiven other secondGiven same
  subst same
  exact different
    (output_injective mirrored apart firstOutput secondOutput firstGiven secondGiven)

end Given

/-! ## Closers -/

section Closers

variable {graph : Graph}

theorem argument?_wired
    (arguments : Table Endpoint String) {node : Node} {pin : Pin} (member : pin ∈ node.part.pins) :
    (node.wired arguments).argument? pin.name = arguments.get? ⟨node.name, pin.name⟩ := by
  rw [WiredNode.argument?, Node.wired, List.find?_map, Option.bind_map]
  obtain ⟨found, isFound⟩ := Option.isSome_iff_exists.mp
    (List.find?_isSome.mpr ⟨pin, member, by simp⟩ :
      (node.part.pins.find? fun other => other.name = pin.name).isSome = true)
  have sameName : found.name = pin.name := by simpa using List.find?_some isFound
  show (node.part.pins.find? fun other => other.name = pin.name).bind _ = _
  rw [isFound, Option.bind_some, Function.comp_apply, sameName]

theorem closes_wired
    (node : Node) (arguments : Table Endpoint String) :
    (node.wired arguments).closes =
      (node.part.pins.filter fun pin =>
          decide (pin.direction = .output) &&
            (arguments.get? ⟨node.name, pin.name⟩).isSome).map Pin.name := by
  rw [WiredNode.closes, Node.wired, List.filter_map, List.map_map]
  rfl

theorem closes_filter_wired
    (node : Node) (arguments : Table Endpoint String) (ident : String) :
    ((node.wired arguments).closes.filter fun pin =>
        (node.wired arguments).argument? pin = some ident) =
      ((node.part.pins.filter fun pin => pin.direction = .output).filter fun pin =>
          arguments.get? ⟨node.name, pin.name⟩ = some ident).map Pin.name := by
  rw [closes_wired, List.filter_map, List.filter_filter, List.filter_filter]
  congr 1
  apply List.filter_congr
  intro pin member
  rw [Function.comp_apply, argument?_wired arguments member]
  cases arguments.get? ⟨node.name, pin.name⟩ <;> simp

theorem nodeClosers_eq
    (graph : Graph) (ident : String) :
    graph.wiring.nodeClosers ident =
      ((graph.enabledPins .output).filter fun endpoint =>
          graph.arguments.get? endpoint = some ident).map
        fun endpoint => Closer.node endpoint.node endpoint.pin := by
  simp only [Wiring.nodeClosers, wiring, enabledPins, List.flatMap_map, List.filter_flatMap,
    List.map_flatMap, closes_filter_wired, List.filter_map, List.map_map]
  rfl

theorem filter_eq_singleton
    {α : Type} {items : List α} (nodup : items.Nodup) {item : α} (member : item ∈ items)
    {test : α → Bool} (passes : ∀ other ∈ items, test other = true ↔ other = item) :
    items.filter test = [item] := by
  have sameMembers : (items.filter test).Perm [item] := by
    rw [List.perm_ext_iff_of_nodup (nodup.filter test) (List.nodup_singleton item)]
    intro other
    rw [List.mem_filter, List.mem_singleton]
    constructor
    · intro both
      exact (passes other both.1).mp both.2
    · intro same
      subst same
      exact ⟨member, (passes other member).mpr rfl⟩
  exact List.perm_singleton.mp sameMembers

/-- What an output is given is closed by its node, once. -/
theorem nodeClosers_of_given
    (mirrored : graph.Mirrored) (apart : graph.PinsApart) {ident : String}
    (given : ident ∈ graph.wiring.given .output) :
    ∃ node pin, graph.wiring.nodeClosers ident = [.node node pin] := by
  rw [given_eq, List.mem_filterMap] at given
  obtain ⟨endpoint, output, isGiven⟩ := given
  have alone : ((graph.enabledPins .output).filter fun other =>
      graph.arguments.get? other = some ident) = [endpoint] := by
    refine filter_eq_singleton (enabledPins_nodup mirrored apart .output) output ?_
    intro other otherOutput
    rw [decide_eq_true_eq]
    constructor
    · intro otherGiven
      exact output_injective mirrored apart otherOutput output otherGiven isGiven
    · intro same
      rw [same]
      exact isGiven
  refine ⟨endpoint.node, endpoint.pin, ?_⟩
  rw [nodeClosers_eq, alone, List.map_singleton]

theorem nodeClosers_of_not_given
    {ident : String} (notGiven : ident ∉ graph.wiring.given .output) :
    graph.wiring.nodeClosers ident = [] := by
  rw [nodeClosers_eq, List.map_eq_nil_iff, List.filter_eq_nil_iff]
  intro endpoint output isGiven
  rw [given_eq, List.mem_filterMap] at notGiven
  exact notGiven ⟨endpoint, output, of_decide_eq_true isGiven⟩

theorem mergeClosers_eq
    (graph : Graph) (ident : String) :
    graph.wiring.mergeClosers ident =
      (graph.liveChannels.filter fun channel =>
          !(graph.wiredChannel channel).writers.isEmpty &&
            decide (Go.channelIdent channel.name = ident)).map
        fun channel => Closer.merge channel.name := by
  simp only [Wiring.mergeClosers, wiring, List.filter_map, List.map_map]
  rfl

end Closers

/-! ## The wiring of a consistent graph -/

section Sound

variable {graph : Graph}

theorem channelIdent_ne_private
    {left right ident : String} {writers : List Endpoint}
    (member : ident ∈ privateVariables right writers) :
    ident ≠ Go.channelIdent left := by
  intro same
  obtain ⟨writer, isPrivate⟩ := mem_privateVariables member
  have sameVariable : Go.channelVariable left none = Go.channelVariable right (some writer) :=
    same.symm.trans isPrivate
  have different := (Go.channelVariable_injective sameVariable).2
  simp at different

theorem mem_wiring_channels_iff
    {wired : WiredChannel} :
    wired ∈ graph.wiring.channels ↔
      ∃ channel ∈ graph.liveChannels, graph.wiredChannel channel = wired := by
  rw [wiring, List.mem_map]

theorem goVariables_nodup
    (mirrored : graph.Mirrored) :
    graph.wiring.goVariables.Nodup := by
  have owner {channel : Channel} {ident : String}
      (member : ident ∈ (graph.wiredChannel channel).goVariables) :
      ∃ writer, ident = Go.channelVariable channel.name writer := by
    rcases List.mem_cons.mp member with own | inPrivate
    · exact ⟨none, own⟩
    · obtain ⟨writer, same⟩ := mem_privateVariables inPrivate
      exact ⟨some writer, same⟩
  rw [Wiring.goVariables, wiring, List.flatMap_map, List.nodup_flatMap]
  constructor
  · intro channel _
    refine List.nodup_cons.mpr ⟨?_, privateVariables_nodup _ _⟩
    intro inPrivate
    exact channelIdent_ne_private inPrivate rfl
  · have namesDiffer := List.pairwise_map.mp (liveChannels_names_nodup mirrored)
    refine namesDiffer.imp ?_
    intro left right differ ident inLeft inRight
    obtain ⟨leftWriter, isLeft⟩ := owner inLeft
    obtain ⟨rightWriter, isRight⟩ := owner inRight
    exact differ (Go.channelVariable_injective (isLeft.symm.trans isRight)).1

theorem mem_goVariables_of_given
    {channel : Channel} (isLive : graph.isLive channel = true) {ident : String}
    (member : ident ∈ (writerVariables channel.name (graph.writers channel)).map Prod.snd) :
    ident ∈ (graph.wiredChannel channel).goVariables := by
  rw [writerVariables_snd channel.name (writers_ne_nil isLive)] at member
  split at member
  · exact List.mem_cons.mpr (Or.inl (List.mem_singleton.mp member))
  · exact List.mem_cons_of_mem _ member

theorem wired_typed
    (mirrored : graph.Mirrored) (apart : graph.PinsApart) {node : Node}
    (enabled : node ∈ graph.enabledNodes) {pin : Pin} (member : pin ∈ node.part.pins)
    {ident : String} (given : graph.arguments.get? ⟨node.name, pin.name⟩ = some ident) :
    ∃ channel ∈ graph.wiring.channels, ident ∈ channel.goVariables ∧ channel.type = pin.type := by
  have present := ((mem_enabledNodes_iff mirrored).mp enabled).1
  have pinPresent : graph.pin? ⟨node.name, pin.name⟩ = some pin := by
    rw [pin?, present, Option.bind_some, Part.pin?, findPin_of_mem (apart present) member]
  obtain ⟨channel, live, gives⟩ := (get?_arguments_iff mirrored).mp given
  obtain ⟨channelPresent, isLive⟩ := (mem_liveChannels_iff mirrored).mp live
  have both : ident ∈ (graph.wiredChannel channel).goVariables ∧
      graph.lists channel.name ⟨node.name, pin.name⟩ = true := by
    rcases gives with ⟨reads, own⟩ | writes
    · obtain ⟨_, listed, _⟩ := active_of_mem mirrored live reads
      exact ⟨List.mem_cons.mpr (Or.inl own), listed⟩
    · have isWriter : (⟨node.name, pin.name⟩ : Endpoint) ∈ graph.writers channel := by
        rw [← writerVariables_fst channel.name (graph.writers channel)]
        exact List.mem_map_of_mem writes
      obtain ⟨_, listed, _⟩ := active_of_mem mirrored live isWriter
      exact ⟨mem_goVariables_of_given isLive (List.mem_map_of_mem writes), listed⟩
  obtain ⟨found, foundPresent, sameType⟩ := mirrored.sameType channelPresent both.2
  rw [pinPresent] at foundPresent
  refine ⟨graph.wiredChannel channel, mem_wiring_channels_iff.mpr ⟨channel, live, rfl⟩, both.1, ?_⟩
  rw [Option.some.inj foundPresent, sameType]
  rfl

/-- The variable of a live channel is given to an output exactly when no writer has a private
one. -/
theorem channelIdent_mem_given_output_iff
    (mirrored : graph.Mirrored) (apart : graph.PinsApart) {channel : Channel}
    (live : channel ∈ graph.liveChannels) :
    Go.channelIdent channel.name ∈ graph.wiring.given .output ↔
      (graph.wiredChannel channel).writers = [] := by
  have isLive := ((mem_liveChannels_iff mirrored).mp live).2
  rw [mem_given_output_iff mirrored apart]
  constructor
  · intro found
    obtain ⟨other, otherLive, member⟩ := found
    have otherIsLive := ((mem_liveChannels_iff mirrored).mp otherLive).2
    obtain ⟨writer, same⟩ := writerVariable_owner otherIsLive member
    have sameVariable : Go.channelVariable channel.name none =
        Go.channelVariable other.name writer := same
    have sameName := (Go.channelVariable_injective sameVariable).1
    have sameChannel := liveChannel_eq_of_name mirrored live otherLive sameName
    subst sameChannel
    rw [writerVariables_snd channel.name (writers_ne_nil isLive)] at member
    split at member
    · assumption
    · exact absurd rfl (channelIdent_ne_private member)
  · intro noPrivate
    have noPrivateVariables : privateVariables channel.name (graph.writers channel) = [] :=
      noPrivate
    refine ⟨channel, live, ?_⟩
    rw [writerVariables_snd channel.name (writers_ne_nil isLive), if_pos noPrivateVariables]
    exact List.mem_singleton_self _

theorem private_mem_given_output
    (mirrored : graph.Mirrored) (apart : graph.PinsApart) {channel : Channel}
    (live : channel ∈ graph.liveChannels) {ident : String}
    (member : ident ∈ (graph.wiredChannel channel).writers) :
    ident ∈ graph.wiring.given .output := by
  have isLive := ((mem_liveChannels_iff mirrored).mp live).2
  have inPrivate : ident ∈ privateVariables channel.name (graph.writers channel) := member
  have private_ne : privateVariables channel.name (graph.writers channel) ≠ [] :=
    List.ne_nil_of_mem inPrivate
  refine (mem_given_output_iff mirrored apart).mpr ⟨channel, live, ?_⟩
  rw [writerVariables_snd channel.name (writers_ne_nil isLive), if_neg private_ne]
  exact inPrivate

theorem mergeClosers_own
    (mirrored : graph.Mirrored) {channel : Channel} (live : channel ∈ graph.liveChannels) :
    graph.wiring.mergeClosers (Go.channelIdent channel.name) =
      if (graph.wiredChannel channel).writers = [] then [] else [.merge channel.name] := by
  have same_iff (other : Channel) (otherLive : other ∈ graph.liveChannels) :
      Go.channelIdent other.name = Go.channelIdent channel.name ↔ other = channel := by
    constructor
    · intro same
      have sameVariable : Go.channelVariable other.name none =
          Go.channelVariable channel.name none := same
      exact liveChannel_eq_of_name mirrored otherLive live
        (Go.channelVariable_injective sameVariable).1
    · intro same
      rw [same]
  rw [mergeClosers_eq]
  split
  · rename_i noPrivate
    rw [List.map_eq_nil_iff, List.filter_eq_nil_iff]
    intro other otherLive passes
    rw [Bool.and_eq_true, decide_eq_true_eq, same_iff other otherLive] at passes
    rw [passes.2, noPrivate] at passes
    exact Bool.noConfusion passes.1
  · rename_i somePrivate
    have alone : (graph.liveChannels.filter fun other =>
        !(graph.wiredChannel other).writers.isEmpty &&
          decide (Go.channelIdent other.name = Go.channelIdent channel.name)) = [channel] := by
      refine filter_eq_singleton (liveChannels_names_nodup mirrored).of_map live ?_
      intro other otherLive
      rw [Bool.and_eq_true, decide_eq_true_eq, same_iff other otherLive]
      constructor
      · exact And.right
      · intro same
        subst same
        refine ⟨?_, rfl⟩
        rw [Bool.not_eq_true', List.isEmpty_eq_false_iff]
        exact somePrivate
    rw [alone, List.map_singleton]

theorem mergeClosers_private
    {channel : Channel} {ident : String}
    (member : ident ∈ (graph.wiredChannel channel).writers) :
    graph.wiring.mergeClosers ident = [] := by
  rw [mergeClosers_eq, List.map_eq_nil_iff, List.filter_eq_nil_iff]
  intro other _ passes
  rw [Bool.and_eq_true, decide_eq_true_eq] at passes
  exact channelIdent_ne_private member passes.2.symm

theorem closers_own
    (mirrored : graph.Mirrored) (apart : graph.PinsApart) {channel : Channel}
    (live : channel ∈ graph.liveChannels) :
    if (graph.wiredChannel channel).writers = [] then
      ∃ node pin, graph.wiring.closers (Go.channelIdent channel.name) = [.node node pin]
    else graph.wiring.closers (Go.channelIdent channel.name) = [.merge channel.name] := by
  have given_iff := channelIdent_mem_given_output_iff mirrored apart live
  have merged := mergeClosers_own mirrored live
  split
  · rename_i noPrivate
    rw [if_pos noPrivate] at merged
    obtain ⟨node, pin, closed⟩ := nodeClosers_of_given mirrored apart (given_iff.mpr noPrivate)
    refine ⟨node, pin, ?_⟩
    rw [Wiring.closers, closed, merged, List.append_nil]
  · rename_i somePrivate
    rw [if_neg somePrivate] at merged
    have notClosed := nodeClosers_of_not_given fun given => somePrivate (given_iff.mp given)
    rw [Wiring.closers, notClosed, merged, List.nil_append]

theorem closers_private
    (mirrored : graph.Mirrored) (apart : graph.PinsApart) {channel : Channel}
    (live : channel ∈ graph.liveChannels) {ident : String}
    (member : ident ∈ (graph.wiredChannel channel).writers) :
    ∃ node pin, graph.wiring.closers ident = [.node node pin] := by
  have given := private_mem_given_output mirrored apart live member
  obtain ⟨node, pin, closed⟩ := nodeClosers_of_given mirrored apart given
  refine ⟨node, pin, ?_⟩
  rw [Wiring.closers, closed, mergeClosers_private member, List.append_nil]

/-- In the program of a consistent graph the variables of channels are different, each of them is
given to parameters of its type, and each is closed once: by the one node that writes to it, or by
the goroutine that merges the private variables of several writers into it. The pins of a part
have different names, as in every part that a registry makes. -/
theorem wiring_sound
    {graph : Graph} (unproblematic : graph.problems = []) (apart : graph.PinsApart) :
    graph.wiring.Sound := by
  have mirrored := (problems_eq_nil_iff.mp unproblematic).toMirrored
  refine ⟨goVariables_nodup mirrored, ?_, ?_, ?_, ?_, ?_, ?_, ?_, ?_⟩
  · intro wired inNodes param inParams ident given
    obtain ⟨node, enabled, rfl⟩ := List.mem_map.mp inNodes
    obtain ⟨pin, member, rfl⟩ := List.mem_map.mp inParams
    exact wired_typed mirrored apart enabled member given
  · intro wired inChannels
    obtain ⟨channel, live, rfl⟩ := mem_wiring_channels_iff.mp inChannels
    have given_iff := channelIdent_mem_given_output_iff mirrored apart live
    rw [(given_output_nodup mirrored apart).count]
    exact if_congr given_iff rfl rfl
  · intro wired inChannels ident inPrivate
    obtain ⟨channel, live, rfl⟩ := mem_wiring_channels_iff.mp inChannels
    have given := private_mem_given_output mirrored apart live inPrivate
    refine ⟨List.count_eq_one_of_mem (given_output_nodup mirrored apart) given, ?_⟩
    intro isRead
    obtain ⟨other, _, own⟩ := (mem_given_input_iff mirrored apart).mp isRead
    exact channelIdent_ne_private inPrivate own
  · intro wired inChannels somePrivate
    obtain ⟨channel, live, rfl⟩ := mem_wiring_channels_iff.mp inChannels
    exact two_le_length_privateVariables somePrivate
  · intro wired inChannels
    obtain ⟨channel, live, rfl⟩ := mem_wiring_channels_iff.mp inChannels
    exact (mem_given_input_iff mirrored apart).mpr ⟨channel, live, rfl⟩
  · intro wired inNodes
    obtain ⟨node, enabled, rfl⟩ := List.mem_map.mp inNodes
    have present := ((mem_enabledNodes_iff mirrored).mp enabled).1
    rw [closes_wired]
    exact (apart present).sublist (List.filter_sublist.map Pin.name)
  · intro wired inChannels
    obtain ⟨channel, live, rfl⟩ := mem_wiring_channels_iff.mp inChannels
    exact closers_own mirrored apart live
  · intro wired inChannels ident inPrivate
    obtain ⟨channel, live, rfl⟩ := mem_wiring_channels_iff.mp inChannels
    exact closers_private mirrored apart live inPrivate

/-- The pins of a node have different names in every graph that requests build or that is read. -/
theorem Legal.pinsApart
    {registry : Registry} (legal : Legal registry graph) :
    graph.PinsApart := by
  intro name node present
  obtain ⟨key, config, made⟩ := (legal.node (bareNode?_eq_some present)).made
  exact Registry.pins_nodup_of_construct made

/-- The sink of the fan-in reads from a channel of its own that two private ones are merged
into. -/
theorem wiring_sound_fanIn :
    fanIn.problems = [] ∧ fanIn.PinsApart ∧
      fanIn.wiring.goVariables = ["chan_shared", "chan_shared_w0", "chan_shared_w1"] ∧
      fanIn.wiring.Sound := by
  have unproblematic := problems_eq_nil_iff.mpr fanIn_built.consistent
  have apart : fanIn.PinsApart := fanIn_built.legal.pinsApart
  exact ⟨unproblematic, apart, by decide, wiring_sound unproblematic apart⟩

end Sound

end Graph

end Pipework
