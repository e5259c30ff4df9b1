import Pipework.Proofs.Graph.Step

/-!
# What becomes of channels and names

A granted request leaves a viable channel viable or takes it away. An end appears on a channel
only where one was before, on a channel that is viable from then on, or by attaching a pin.
`Graph.Evolves` states both for two graphs, and each change of the graph is one of its cases.
What a graph may hold at all, names, multiplicities and parts, is `Graph.Legal`.
-/

namespace Pipework

namespace Graph

/-! ## Channels -/

/-- From one graph to another viable channels stay viable, and a channel gets its first end only
together with what makes it viable. -/
structure Evolves (before after : Graph) : Prop where
  viable : ∀ {channel : String},
    before.isViable channel = true → after.isViable channel = true
  ended : ∀ {channel : String} {endpoint : Endpoint}, after.lists channel endpoint = true →
    after.isViable channel = true ∨ ∃ other, before.lists channel other = true

/-- A viable channel stays viable when each of its ends leaves one of the same direction. -/
theorem isViable_mono
    {before after : Graph} {channel : String}
    (stays : (after.bareChannel? channel).isSome = true →
      (before.bareChannel? channel).isSome = true)
    (follows : ∀ endpoint pin, before.lists channel endpoint = true →
      before.pin? endpoint = some pin →
        ∃ place other, after.lists channel place = true ∧ after.pin? place = some other ∧
          other.direction = pin.direction)
    (viable : before.isViable channel = true) :
    after.isViable channel = true := by
  rw [isViable_iff] at viable ⊢
  intro present direction
  obtain ⟨endpoint, listed, pin, pinPresent, isDirection⟩ := viable (stays present) direction
  obtain ⟨place, other, placeListed, otherPresent, sameDirection⟩ :=
    follows endpoint pin listed pinPresent
  exact ⟨place, placeListed, other, otherPresent, sameDirection.trans isDirection⟩

namespace Evolves

theorem refl
    (graph : Graph) :
    Evolves graph graph :=
  ⟨id, fun listed => Or.inr ⟨_, listed⟩⟩

theorem trans
    {first second third : Graph}
    (left : Evolves first second) (right : Evolves second third) :
    Evolves first third where
  viable before := right.viable (left.viable before)
  ended listed := by
    rcases right.ended listed with viable | ⟨other, otherListed⟩
    · exact Or.inl viable
    · rcases left.ended otherListed with viable | wasEnded
      · exact Or.inl (right.viable viable)
      · exact Or.inr wasEnded

theorem of_shrinks
    {before after : Graph}
    (shrinks : Shrinks before after) :
    Evolves before after where
  viable := shrinks.viable
  ended listed := Or.inr ⟨_, shrinks.ends listed⟩

/-- Channels and their ends stay, and the pins at the ends keep their directions. -/
theorem of_ends
    {before after : Graph}
    (sameChannels : ∀ channel, after.bareChannel? channel = before.bareChannel? channel)
    (sameEnds : ∀ channel endpoint, after.lists channel endpoint = before.lists channel endpoint)
    (samePins : ∀ channel endpoint, before.lists channel endpoint = true →
      after.pin? endpoint = before.pin? endpoint) :
    Evolves before after where
  viable {channel} := by
    refine isViable_mono ?_ ?_
    · rw [sameChannels]
      exact id
    · intro endpoint pin listed pinPresent
      refine ⟨endpoint, pin, ?_, ?_, rfl⟩
      · rw [sameEnds, listed]
      · rw [samePins channel endpoint listed, pinPresent]
  ended {channel endpoint} listed := by
    rw [sameEnds] at listed
    exact Or.inr ⟨endpoint, listed⟩

variable {graph : Graph}

theorem putNode
    (mirrored : graph.Mirrored) {node : Node}
    (free : graph.node? node.name = none) :
    Evolves graph (graph.putNode node.name node) := by
  refine of_ends (bareChannel?_putNode graph node.name node)
    (lists_putNode graph node.name node) ?_
  intro channel endpoint listed
  rw [pin?_putNode, if_neg (mirrored.node_ne_of_lists free listed)]

theorem dropNode
    (mirrored : graph.Mirrored) {name : String}
    (unbound : ∀ pin, graph.binding? ⟨name, pin⟩ = none) :
    Evolves graph (graph.dropNode name) := by
  refine of_ends (bareChannel?_dropNode graph name) (lists_dropNode graph name) ?_
  intro channel endpoint listed
  rw [pin?_dropNode, if_neg (mirrored.node_ne_of_unbound unbound listed)]

theorem place
    (graph : Graph) (request : SetPosition) :
    Evolves graph (graph.place request) := by
  refine of_ends bareChannel?_place lists_place ?_
  intro channel endpoint _
  rw [pin?_place]

/-- A channel between pins of both directions is viable from the start. -/
theorem addChannel
    {request : CreateChannel} {firstPin secondPin : Pin}
    (first : graph.pin? request.first = some firstPin)
    (second : graph.pin? request.second = some secondPin)
    (different : firstPin.direction ≠ secondPin.direction) :
    Evolves graph (graph.addChannel request) := by
  have added : (graph.addChannel request).isViable request.name = true := by
    have firstListed : (graph.addChannel request).lists request.name request.first = true := by
      simp [lists_addChannel_iff]
    have secondListed : (graph.addChannel request).lists request.name request.second = true := by
      simp [lists_addChannel_iff]
    rw [← pin?_addChannel] at first second
    rw [isViable_iff]
    intro _ direction
    -- Two different directions are all there are, so one of the two pins has this one.
    by_cases isFirst : firstPin.direction = direction
    · exact ⟨request.first, firstListed, firstPin, first, isFirst⟩
    · refine ⟨request.second, secondListed, secondPin, second, ?_⟩
      revert different isFirst
      cases firstPin.direction <;> cases secondPin.direction <;> cases direction <;> simp
  constructor
  · intro channel viable
    by_cases same : channel = request.name
    · rw [same]
      exact added
    · rw [← viable]
      apply isViable_congr
      · rw [bareChannel?_addChannel, if_neg same]
      · intro endpoint
        rw [Bool.eq_iff_iff, lists_addChannel_iff, if_neg same]
      · exact pin?_addChannel
  · intro channel endpoint listed
    rw [lists_addChannel_iff] at listed
    split at listed
    · rename_i same
      rw [same]
      exact Or.inl added
    · exact Or.inr ⟨endpoint, listed⟩

theorem replaceNode
    (mirrored : graph.Mirrored) {request : SetNodeProperties} {node : Node} {part : Part}
    (present : graph.node? request.node = some node)
    (free : request.name = request.node ∨ graph.node? request.name = none)
    (kept : lostPins node part = []) :
    Evolves graph (graph.replaceNode request (request.outcome node part)) := by
  have listed_iff := lists_replaceNode mirrored present free kept
  constructor
  · intro channel
    refine isViable_mono ?_ ?_
    · rw [bareChannel?_replaceNode]
      exact id
    · intro origin pin listed pinPresent
      obtain ⟨place, isOrigin⟩ := exists_origin? mirrored free listed
      obtain ⟨new, newPresent, _, sameDirection⟩ :=
        pin?_replaceNode_of_origin mirrored present kept isOrigin listed pinPresent
      exact ⟨place, new, (listed_iff channel place).mpr ⟨origin, isOrigin, listed⟩, newPresent,
        sameDirection.symm⟩
  · intro channel endpoint listed
    obtain ⟨origin, _, originListed⟩ := (listed_iff channel endpoint).mp listed
    exact Or.inr ⟨origin, originListed⟩

/-- A pin can be attached to a channel that has an end already. -/
theorem attach
    {endpoint : Endpoint} {channel : String}
    (ended : ∃ other, graph.lists channel other = true) :
    Evolves graph (graph.attach endpoint channel) := by
  have present : (graph.channel? channel).isSome = true := by
    obtain ⟨other, listed⟩ := ended
    obtain ⟨found, foundPresent, _⟩ := lists_iff.mp listed
    exact Option.isSome_of_eq_some foundPresent
  have listed_iff := lists_attach_iff present endpoint
  constructor
  · intro name
    refine isViable_mono ?_ ?_
    · rw [bareChannel?_attach]
      exact id
    · intro place pin listed pinPresent
      refine ⟨place, pin, (listed_iff name place).mpr (Or.inr listed), ?_, rfl⟩
      rw [pin?_attach, pinPresent]
  · intro name place listed
    rcases (listed_iff name place).mp listed with ⟨rfl, _⟩ | wasListed
    · exact Or.inr ended
    · exact Or.inr ⟨place, wasListed⟩

end Evolves

/-- A request spoils a graph when it attaches an unbound pin to a channel of its type that has
no ends. -/
inductive Spoils (graph : Graph) : Request → Prop
  | connectPin {request : ConnectPin} {pin : Pin} {channel : Channel}
      (pinPresent : graph.pin? request.endpoint = some pin)
      (unbound : graph.binding? request.endpoint = none)
      (present : graph.channel? request.channel = some channel)
      (sameType : pin.type = channel.type)
      (endless : channel.ends.isEmpty = true) :
      Spoils graph (.connectPin request)

theorem isEmpty_eq_false_iff
    {graph : Graph} {channel : String} {found : Channel}
    (present : graph.channel? channel = some found) :
    found.ends.isEmpty = false ↔ ∃ endpoint, graph.lists channel endpoint = true := by
  rw [Table.isEmpty, List.isEmpty_eq_false_iff_exists_mem]
  constructor
  · intro ended
    obtain ⟨entry, member⟩ := ended
    refine ⟨entry.1, ?_⟩
    rw [lists_of_channel? present]
    exact Table.mem_keys_iff.mp (List.mem_map.mpr ⟨entry, member, rfl⟩)
  · intro ended
    obtain ⟨endpoint, listed⟩ := ended
    rw [lists_of_channel? present] at listed
    obtain ⟨entry, member, _⟩ := List.mem_map.mp (Table.mem_keys_iff.mpr listed)
    exact ⟨entry, member⟩

/-- Every granted request that does not spoil the graph is a case. -/
theorem Evolves.of_apply
    {registry : Registry} {graph next : Graph} {request : Request}
    (mirrored : graph.Mirrored)
    (granted : graph.apply registry request = .ok next)
    (sound : ¬ graph.Spoils request) :
    Evolves graph next := by
  cases request with
  | createNode request =>
      obtain ⟨_, free, _, part, _, rfl⟩ := createNode_eq_ok_iff.mp granted
      have added : Evolves graph
          (graph.putNode (request.node part).name (request.node part)) :=
        putNode mirrored free
      exact added
  | createChannel request =>
      obtain ⟨firstPin, first, secondPin, second, _, _, _, _, _, _, _, different, rfl⟩ :=
        createChannel_eq_ok_iff.mp granted
      exact addChannel first second different
  | connectPin request =>
      obtain ⟨pin, pinPresent, found, present, unbound, _, sameType, rfl⟩ :=
        connectPin_eq_ok_iff.mp granted
      have ended : found.ends.isEmpty = false := by
        rw [Bool.eq_false_iff]
        intro endless
        exact sound (.connectPin pinPresent unbound present sameType endless)
      exact attach ((isEmpty_eq_false_iff present).mp ended)
  | disconnectPin endpoint =>
      obtain ⟨_, rfl⟩ := disconnectPin_eq_ok_iff.mp granted
      cases graph.binding? endpoint with
      | none => exact refl graph
      | some channel => exact of_shrinks (Shrinks.detach graph endpoint channel)
  | deleteNode name =>
      obtain ⟨loose, looseMirrored, shrinks, unbound, rfl⟩ := mirrored.deleteNode_loose granted
      exact (of_shrinks shrinks).trans (dropNode looseMirrored unbound)
  | deleteChannel channel =>
      obtain ⟨_, rfl⟩ := deleteChannel_eq_ok_iff.mp granted
      exact of_shrinks (Shrinks.removeChannel graph channel)
  | setNodeProperties request =>
      obtain ⟨node, present, _, free, _, part, _, kept, rfl⟩ :=
        setNodeProperties_eq_ok_iff.mp granted
      exact replaceNode mirrored present free kept
  | setGraphProperties request =>
      rw [← Except.ok.inj granted]
      exact of_ends (fun _ => rfl) (fun _ _ => rfl) (fun _ _ _ => rfl)
  | setPosition request =>
      obtain ⟨_, rfl⟩ := setPosition_eq_ok_iff.mp granted
      exact place graph request
  | save =>
      rw [← Except.ok.inj granted]
      exact refl graph

/-! ## Names, multiplicities and parts -/

/-- A node that a graph may hold under a name, with a part that the registry makes. -/
structure LegalNode (registry : Registry) (name : String) (node : Node) : Prop where
  named : nameFault name = none
  instances : node.multiplicity ≠ 0
  made : ∃ key config, registry.construct key config = .ok node.part

/-- What is asked of the records of a graph, each on its own. -/
structure Legal (registry : Registry) (graph : Graph) : Prop where
  node : ∀ {name : String} {node : Node},
    graph.bareNode? name = some node → LegalNode registry name node
  channelNamed : ∀ {name : String},
    (graph.bareChannel? name).isSome = true → nameFault name = none

namespace Legal

variable {registry : Registry} {graph : Graph}

theorem channel_named
    (legal : Legal registry graph) {name : String} {channel : Channel}
    (present : graph.channel? name = some channel) :
    nameFault name = none := by
  apply legal.channelNamed
  rw [bareChannel?_isSome]
  exact Option.isSome_of_eq_some present

theorem empty
    (registry : Registry) (name packagePath : String) (isCommand : Bool) :
    Legal registry (Graph.empty name packagePath isCommand) where
  node present := by simp [bareNode?, node?, Graph.empty] at present
  channelNamed present := by simp [bareChannel?, channel?, Graph.empty] at present

/-- Bindings and ends do not matter, and channels may go. -/
theorem of_views
    {next : Graph}
    (legal : Legal registry graph)
    (sameNodes : ∀ name, next.bareNode? name = graph.bareNode? name)
    (noNew : ∀ name, (next.bareChannel? name).isSome = true →
      (graph.bareChannel? name).isSome = true) :
    Legal registry next where
  node {name node} present := by
    rw [sameNodes] at present
    exact legal.node present
  channelNamed {name} present := legal.channelNamed (noNew name present)

theorem of_shrinks
    {next : Graph}
    (legal : Legal registry graph) (shrinks : Shrinks graph next) :
    Legal registry next := by
  refine legal.of_views shrinks.sameNodes ?_
  intro name present
  obtain ⟨found, foundPresent⟩ := Option.isSome_iff_exists.mp present
  exact Option.isSome_of_eq_some (shrinks.channel foundPresent)

theorem dropNode
    (legal : Legal registry graph) (name : String) :
    Legal registry (graph.dropNode name) where
  node {other node} present := by
    rw [bareNode?, node?_dropNode] at present
    split at present
    · simp at present
    · exact legal.node present
  channelNamed := legal.channelNamed

theorem putNode
    (legal : Legal registry graph) {name : String} {node : Node}
    (fits : LegalNode registry name node) :
    Legal registry (graph.putNode name node) where
  node {other found} present := by
    rw [bareNode?, node?_putNode] at present
    split at present
    · rename_i same
      rw [same, ← Option.some.inj present]
      exact ⟨fits.named, fits.instances, fits.made⟩
    · exact legal.node present
  channelNamed := legal.channelNamed

theorem putChannel
    (legal : Legal registry graph) {name : String} (channel : Channel)
    (named : nameFault name = none) :
    Legal registry (graph.putChannel name channel) where
  node := legal.node
  channelNamed {other} present := by
    rw [bareChannel?_putChannel] at present
    split at present
    · rename_i same
      rw [same]
      exact named
    · exact legal.channelNamed present

theorem renameEnds
    (legal : Legal registry graph) (bound : List (String × String)) (old new : String) :
    Legal registry (graph.renameEnds bound old new) := by
  refine legal.of_views ?_ ?_
  · intro name
    rw [bareNode?, node?_renameEnds, bareNode?]
  · intro name present
    rw [bareChannel?_renameEnds] at present
    exact present

theorem place
    (legal : Legal registry graph) (request : SetPosition) :
    Legal registry (graph.place request) where
  node {name node} present := by
    rw [bareNode?, node?_place] at present
    split at present
    · rename_i same
      obtain ⟨moved, movedPresent, rfl⟩ := Option.map_eq_some_iff.mp present
      obtain ⟨found, foundPresent, rfl⟩ := Option.map_eq_some_iff.mp movedPresent
      have fits := legal.node (bareNode?_eq_some foundPresent)
      rw [same]
      exact ⟨fits.named, fits.instances, fits.made⟩
    · exact legal.node present
  channelNamed := legal.channelNamed

theorem addChannel
    (legal : Legal registry graph) {request : CreateChannel}
    (named : nameFault request.name = none) :
    Legal registry (graph.addChannel request) where
  node {name node} present := by
    rw [bareNode?_addChannel] at present
    exact legal.node present
  channelNamed {name} present := by
    rw [bareChannel?_addChannel] at present
    split at present
    · rename_i same
      rw [same]
      exact named
    · exact legal.channelNamed present

theorem attach
    (legal : Legal registry graph) (endpoint : Endpoint) (channel : String) :
    Legal registry (graph.attach endpoint channel) := by
  refine legal.of_views (bareNode?_attach graph endpoint channel) ?_
  intro name present
  rw [bareChannel?_attach] at present
  exact present

theorem replaceNode
    (legal : Legal registry graph) {request : SetNodeProperties} {node : Node}
    (fits : LegalNode registry request.name node) :
    Legal registry (graph.replaceNode request node) := by
  rw [Graph.replaceNode]
  refine putNode (dropNode ?_ request.node) fits
  split
  · exact legal.renameEnds node.boundPins request.node request.name
  · exact legal

/-- A granted request keeps names, multiplicities and parts as they may be. -/
theorem of_apply
    (legal : Legal registry graph) {request : Request} {next : Graph}
    (granted : graph.apply registry request = .ok next) :
    Legal registry next := by
  cases request with
  | createNode request =>
      obtain ⟨named, _, instances, part, made, rfl⟩ := createNode_eq_ok_iff.mp granted
      exact legal.putNode ⟨named, instances, request.partType, request.part, made⟩
  | createChannel request =>
      obtain ⟨_, _, _, _, _, _, named, _, _, _, _, _, rfl⟩ := createChannel_eq_ok_iff.mp granted
      exact legal.addChannel named
  | connectPin request =>
      obtain ⟨_, _, _, _, _, _, _, rfl⟩ := connectPin_eq_ok_iff.mp granted
      exact legal.attach request.endpoint request.channel
  | disconnectPin endpoint =>
      obtain ⟨_, rfl⟩ := disconnectPin_eq_ok_iff.mp granted
      cases graph.binding? endpoint with
      | none => exact legal
      | some channel => exact legal.of_shrinks (Shrinks.detach graph endpoint channel)
  | deleteNode name =>
      obtain ⟨node, _, rfl⟩ := deleteNode_eq_ok_iff.mp granted
      exact (legal.of_shrinks (Shrinks.foldl_detach graph name node.boundPins)).dropNode name
  | deleteChannel channel =>
      obtain ⟨_, rfl⟩ := deleteChannel_eq_ok_iff.mp granted
      exact legal.of_shrinks (Shrinks.removeChannel graph channel)
  | setNodeProperties request =>
      obtain ⟨node, _, named, _, instances, part, made, _, rfl⟩ :=
        setNodeProperties_eq_ok_iff.mp granted
      exact legal.replaceNode ⟨named, instances, request.partType, request.part, made⟩
  | setGraphProperties request =>
      rw [← Except.ok.inj granted]
      exact ⟨legal.node, legal.channelNamed⟩
  | setPosition request =>
      obtain ⟨_, rfl⟩ := setPosition_eq_ok_iff.mp granted
      exact legal.place request
  | save =>
      rw [← Except.ok.inj granted]
      exact legal

end Legal

end Graph

end Pipework
