import Pipework.Proofs.Graph.Reload
import Pipework.Proofs.Graph.Removal
import Pipework.Proofs.Wiring.Arguments

/-!
# Packages without what is switched off

Two notions of a usable channel stand side by side: deleting a node takes away the channels that
are left without an input or an output, and a program leaves out the channels without an enabled
writer or reader. Here they are shown to agree. What is left of a graph after its disabled nodes,
and then the channels that pass nothing, are deleted is described by `Graph.Prunes`; such a graph
has the wiring of the whole one, up to the connections that nodes hold, and so the same package
(`Graph.package_prune`).
-/

namespace Pipework

/-! ## What a source shows of a wiring -/

/-- A node of a wiring without its connections. -/
def WiredNode.bare (wired : WiredNode) : WiredNode := { wired with node := wired.node.bare }

/-- A wiring whose nodes are without their connections. -/
def Wiring.bare (wiring : Wiring) : Wiring :=
  { wiring with nodes := wiring.nodes.map WiredNode.bare }

theorem Wiring.congr_of_bare
    {α : Type} (shown : Wiring → α) (blind : ∀ wiring, shown wiring.bare = shown wiring)
    {left right : Wiring} (sameBare : left.bare = right.bare) :
    shown left = shown right := by
  rw [← blind, sameBare, blind]

namespace Source

open Pipework.Graph

theorem imports_bare
    (wiring : Wiring) :
    imports wiring.bare = imports wiring := by
  rw [imports, imports, Wiring.bare, List.flatMap_map]
  rfl

theorem supports_bare
    (wiring : Wiring) :
    supports wiring.bare = supports wiring := by
  rw [supports, supports, Wiring.bare, List.filterMap_map]
  rfl

theorem nodeLines_bare
    (wiring : Wiring) :
    wiring.bare.nodes.flatMap nodeLines = wiring.nodes.flatMap nodeLines := by
  rw [Wiring.bare, List.flatMap_map]
  rfl

theorem entryLines_bare
    (entry : String) (wiring : Wiring) :
    entryLines entry wiring.bare = entryLines entry wiring := by
  rw [entryLines, entryLines, Wiring.bare, List.flatMap_map]
  rfl

/-- The main file does not show connections other than those of the wiring. -/
theorem main_congr
    {left right : Graph} (sameBare : left.bare = right.bare)
    (sameWiring : left.wiring.bare = right.wiring.bare) (package : String) :
    main left package = main right package := by
  obtain ⟨sameName, _, sameKind⟩ := bare_eq_iff.mp sameBare
  have sameImports := Wiring.congr_of_bare imports imports_bare sameWiring
  have sameSupports := Wiring.congr_of_bare supports supports_bare sameWiring
  have sameFunctions := Wiring.congr_of_bare (fun wiring => wiring.nodes.flatMap nodeLines)
    nodeLines_bare sameWiring
  have sameEntry := Wiring.congr_of_bare _ (entryLines_bare (entryName right.isCommand)) sameWiring
  simp only [main, sameName, sameKind, sameImports, sameSupports, sameFunctions, sameEntry]

end Source

namespace Graph

theorem warnings_congr
    {left right : Wiring} (sameBare : left.bare = right.bare) :
    ((left.nodes.filter fun wired => !wired.node.waits).map fun wired => waitWarning wired.node) =
      (right.nodes.filter fun wired => !wired.node.waits).map fun wired =>
        waitWarning wired.node := by
  refine Wiring.congr_of_bare (fun wiring => (wiring.nodes.filter fun wired =>
    !wired.node.waits).map fun wired => waitWarning wired.node) ?_ sameBare
  intro wiring
  rw [Wiring.bare, List.filter_map, List.map_map]
  rfl

/-- Packages are the same when the graphs are apart from nodes and channels, and are wired alike. -/
theorem package_congr
    {left right : Graph} (sameBare : left.bare = right.bare)
    (sameWiring : left.wiring.bare = right.wiring.bare)
    (leftRight : left.problems = []) (rightRight : right.problems = []) :
    left.package = right.package := by
  obtain ⟨sameName, samePath, sameKind⟩ := bare_eq_iff.mp sameBare
  have samePackageName : left.packageName = right.packageName := by
    rw [packageName, packageName, sameKind, samePath]
  have sameModulePath : left.modulePath = right.modulePath := by
    rw [modulePath, modulePath, sameName, samePath]
  have sameFiles : left.packageFiles = right.packageFiles := by
    rw [packageFiles, packageFiles, sameKind, samePackageName, sameModulePath, sameName,
      Source.main_congr sameBare sameWiring]
  have sameWarnings := warnings_congr sameWiring
  simp only [package, requireConsistent, leftRight, rightRight, samePackageName, sameModulePath,
    sameKind, sameFiles, sameWarnings]

/-! ## What is left of a graph -/

/-- A channel without its ends on nodes that are not enabled. -/
def enabledPart (graph : Graph) (channel : Channel) : Channel :=
  { channel with
    ends := channel.ends.filter fun endpoint _ => graph.isEnabled endpoint.node }

/-- Of a graph the enabled nodes are left, and the live channels with their ends on these. -/
structure Prunes (whole pruned : Graph) : Prop where
  sameBare : pruned.bare = whole.bare
  bareNode?_eq : ∀ name, pruned.bareNode? name = (whole.bareNode? name).filter Node.enabled
  channel?_eq : ∀ name,
    pruned.channel? name = ((whole.channel? name).filter whole.isLive).map whole.enabledPart

theorem isEnabled_eq
    (graph : Graph) (name : String) :
    graph.isEnabled name = (graph.bareNode? name).any Node.enabled := by
  rw [isEnabled, bareNode?, Option.any_map]
  rfl

namespace Prunes

variable {whole pruned : Graph}

theorem isEnabled_eq
    (prunes : Prunes whole pruned) (name : String) :
    pruned.isEnabled name = whole.isEnabled name := by
  rw [Graph.isEnabled_eq, Graph.isEnabled_eq, prunes.bareNode?_eq]
  cases whole.bareNode? name with
  | none => rfl
  | some node => cases enabled : node.enabled <;> simp [enabled]

theorem pin?_eq_of_isEnabled
    (prunes : Prunes whole pruned) {endpoint : Endpoint}
    (enabled : whole.isEnabled endpoint.node = true) :
    pruned.pin? endpoint = whole.pin? endpoint := by
  have kept : pruned.bareNode? endpoint.node = whole.bareNode? endpoint.node := by
    rw [Graph.isEnabled_eq, Option.any_eq_true] at enabled
    obtain ⟨node, present, nodeEnabled⟩ := enabled
    rw [prunes.bareNode?_eq, present, Option.filter_some, if_pos nodeEnabled]
  rw [pin?_eq, pin?_eq, kept]

theorem activeEnds_eq
    (prunes : Prunes whole pruned) (channel : Channel) (direction : Direction) :
    pruned.activeEnds (whole.enabledPart channel) direction =
      whole.activeEnds channel direction := by
  rw [activeEnds, activeEnds, enabledPart, KeySet.toList_filter, List.filter_filter]
  apply List.filter_congr
  intro endpoint _
  rw [prunes.isEnabled_eq]
  cases enabled : whole.isEnabled endpoint.node with
  | false => rfl
  | true => rw [prunes.pin?_eq_of_isEnabled enabled, Bool.and_true]

theorem isLive_eq
    (prunes : Prunes whole pruned) (channel : Channel) :
    pruned.isLive (whole.enabledPart channel) = whole.isLive channel := by
  rw [isLive, isLive, writers, readers, writers, readers, prunes.activeEnds_eq,
    prunes.activeEnds_eq]

theorem liveChannels_eq
    (prunes : Prunes whole pruned) :
    pruned.liveChannels = whole.liveChannels.map whole.enabledPart := by
  have sameTable : pruned.channels =
      (whole.channels.filter fun _ => whole.isLive).mapEntries fun _ => whole.enabledPart := by
    apply Table.ext_get?
    intro name
    rw [Table.get?_mapEntries, Table.get?_filter]
    exact prunes.channel?_eq name
  have sameTest : pruned.isLive ∘ whole.enabledPart = whole.isLive := funext prunes.isLive_eq
  rw [liveChannels, sameTable, Table.values_mapEntries, Table.values_filter, List.filter_map,
    sameTest, List.filter_filter]
  simp only [Bool.and_self, liveChannels]

theorem arguments_eq
    (prunes : Prunes whole pruned) :
    pruned.arguments = whole.arguments := by
  have sameArguments (channel : Channel) :
      pruned.channelArguments (whole.enabledPart channel) = whole.channelArguments channel := by
    rw [channelArguments, channelArguments, readers, writers, prunes.activeEnds_eq,
      prunes.activeEnds_eq]
    rfl
  rw [arguments, arguments, prunes.liveChannels_eq, List.flatMap_map]
  simp only [sameArguments]

theorem enabledNodes_bare
    (prunes : Prunes whole pruned) :
    pruned.enabledNodes.map Node.bare = whole.enabledNodes.map Node.bare := by
  have sameTable : pruned.nodes.mapEntries (fun _ => Node.bare) =
      (whole.nodes.filter fun _ => Node.enabled).mapEntries fun _ => Node.bare := by
    apply Table.ext_get?
    intro name
    rw [Table.get?_mapEntries, Table.get?_mapEntries, Table.get?_filter]
    have atName := prunes.bareNode?_eq name
    rw [bareNode?, bareNode?, Option.filter_map] at atName
    exact atName
  have sameValues : pruned.nodes.values.map Node.bare = whole.enabledNodes.map Node.bare := by
    rw [← Table.values_mapEntries, sameTable, Table.values_mapEntries, Table.values_filter,
      enabledNodes]
  -- The bare nodes that are left are enabled as they are, so to filter them again does nothing.
  have sameTest : Node.enabled ∘ Node.bare = Node.enabled := rfl
  calc pruned.enabledNodes.map Node.bare
      = (pruned.nodes.values.map Node.bare).filter Node.enabled := by
        rw [List.filter_map, sameTest, enabledNodes]
    _ = (whole.enabledNodes.map Node.bare).filter Node.enabled := by rw [sameValues]
    _ = whole.enabledNodes.map Node.bare := by
        rw [List.filter_map, sameTest, enabledNodes, List.filter_filter]
        simp only [Bool.and_self]

theorem wiring_bare
    (prunes : Prunes whole pruned) :
    pruned.wiring.bare = whole.wiring.bare := by
  have sameChannel (channel : Channel) :
      pruned.wiredChannel (whole.enabledPart channel) = whole.wiredChannel channel := by
    rw [wiredChannel, wiredChannel, writers, prunes.activeEnds_eq]
    rfl
  have bareNodes (graph : Graph) :
      graph.wiring.bare.nodes =
        (graph.enabledNodes.map Node.bare).map fun node => node.wired graph.arguments := by
    simp only [wiring, Wiring.bare, List.map_map]
    rfl
  have sameChannels : pruned.wiring.bare.channels = whole.wiring.bare.channels := by
    simp only [wiring, Wiring.bare, prunes.liveChannels_eq, List.map_map, Function.comp_def,
      sameChannel]
  have sameNodes : pruned.wiring.bare.nodes = whole.wiring.bare.nodes := by
    rw [bareNodes, bareNodes, prunes.enabledNodes_bare, prunes.arguments_eq]
  exact congrArg₂ Wiring.mk sameChannels sameNodes

end Prunes

/-! ## Deleting what is switched off -/

/-- The names of the nodes that are not enabled. -/
def switchedOff (graph : Graph) : List String :=
  (graph.nodes.filter fun _ node => !node.enabled).keys

/-- The names of the channels that have no input or no output among their ends. -/
def oneWays (graph : Graph) : List String :=
  (graph.channels.filter fun _ channel => !graph.isTwoWay channel.ends.toList).keys

theorem mem_switchedOff_iff
    {graph : Graph} {name : String} {node : Node} (present : graph.node? name = some node) :
    name ∈ graph.switchedOff ↔ node.enabled = false := by
  have found : graph.nodes.get? name = some node := present
  rw [switchedOff, Table.mem_keys_iff, Table.contains, Table.get?_filter, found,
    Option.isSome_filter, Option.any_some, Bool.not_eq_true']

theorem node?_of_mem_switchedOff
    {graph : Graph} {name : String} (listed : name ∈ graph.switchedOff) :
    ∃ node, graph.node? name = some node := by
  rw [switchedOff, Table.mem_keys_iff, Table.contains_iff] at listed
  obtain ⟨node, found⟩ := listed
  rw [Table.get?_filter, Option.filter_eq_some_iff] at found
  exact ⟨node, found.1⟩

theorem channel?_of_mem_oneWays
    {graph : Graph} {name : String} (listed : name ∈ graph.oneWays) :
    ∃ channel, graph.channel? name = some channel := by
  rw [oneWays, Table.mem_keys_iff, Table.contains_iff] at listed
  obtain ⟨channel, found⟩ := listed
  rw [Table.get?_filter, Option.filter_eq_some_iff] at found
  exact ⟨channel, found.1⟩

theorem not_mem_oneWays_iff
    {graph : Graph} {name : String} (present : (graph.bareChannel? name).isSome = true) :
    name ∉ graph.oneWays ↔ ∀ direction, graph.HasEnd name direction := by
  rw [bareChannel?_isSome] at present
  obtain ⟨channel, channelPresent⟩ := Option.isSome_iff_exists.mp present
  have found : graph.channels.get? name = some channel := channelPresent
  rw [oneWays, Table.mem_keys_iff, Table.contains, Table.get?_filter, found,
    Option.isSome_filter, Option.any_some, Bool.not_eq_true', Bool.not_eq_false, isTwoWay,
    Bool.and_eq_true, hasDirection_toList_iff channelPresent,
    hasDirection_toList_iff channelPresent]
  constructor
  · intro both direction
    cases direction with
    | input => exact both.1
    | output => exact both.2
  · intro both
    exact ⟨both .input, both .output⟩

/-- The deletion of some nodes, and then of some channels. -/
def deletions (nodes channels : List String) : List Removal :=
  nodes.map Removal.deleteNode ++ channels.map Removal.deleteChannel

section Deletions

variable {graph loose pruned : Graph} {disabled dead : List String}

theorem lost_endpoint_iff
    {endpoint : Endpoint} :
    (Losses.ofList (deletions disabled dead)).endpoint endpoint ↔ endpoint.node ∈ disabled := by
  simp [Losses.ofList, deletions]

theorem lost_node_iff
    {name : String} :
    (Losses.ofList (deletions disabled dead)).node name ↔ name ∈ disabled := by
  simp [Losses.ofList, deletions]

theorem lost_channel_iff
    {name : String} :
    (Losses.ofList (deletions disabled dead)).channel name ↔ name ∈ dead := by
  simp [Losses.ofList, deletions]

theorem isEnabled_iff
    (disabled_iff : ∀ name, name ∈ disabled ↔ name ∈ graph.switchedOff)
    {name : String} (present : (graph.bareNode? name).isSome = true) :
    graph.isEnabled name = true ↔ name ∉ disabled := by
  rw [bareNode?_isSome] at present
  obtain ⟨node, nodePresent⟩ := Option.isSome_iff_exists.mp present
  rw [disabled_iff, mem_switchedOff_iff nodePresent, isEnabled, nodePresent, Option.any_some,
    Bool.not_eq_false]

theorem keepsEnd_iff
    (disabled_iff : ∀ name, name ∈ disabled ↔ name ∈ graph.switchedOff)
    {name : String} {direction : Direction} :
    graph.KeepsEnd (.ofList (deletions disabled dead)) name direction ↔
      ∃ endpoint pin, graph.lists name endpoint = true ∧
        graph.isEnabled endpoint.node = true ∧ graph.pin? endpoint = some pin ∧
          pin.direction = direction := by
  refine exists_congr fun endpoint => exists_congr fun pin => and_congr_right fun _ => ?_
  rw [lost_endpoint_iff]
  constructor
  · intro kept
    have present := bareNode?_isSome_of_pin? (Option.isSome_of_eq_some kept.2.1)
    exact ⟨(isEnabled_iff disabled_iff present).mpr kept.1, kept.2⟩
  · intro active
    have present := bareNode?_isSome_of_pin? (Option.isSome_of_eq_some active.2.1)
    exact ⟨(isEnabled_iff disabled_iff present).mp active.1, active.2⟩

/-- Which ends a channel keeps does not hang on the channels that are deleted. -/
theorem survives_deletions_iff
    {name : String} :
    graph.Survives (.ofList (deletions disabled dead)) name ↔
      name ∉ dead ∧ graph.Survives (.ofList (deletions disabled [])) name := by
  simp only [Survives, KeepsEnd, lost_channel_iff, lost_endpoint_iff, List.not_mem_nil,
    not_false_eq_true, true_and]

/-- A channel survives the deletions exactly when it is live: the cascades of deleted nodes take
no live channel, and what they leave of the others is one-way. -/
theorem survives_iff_isLive
    (disabled_iff : ∀ name, name ∈ disabled ↔ name ∈ graph.switchedOff)
    (leavesLoose : Leaves graph (.ofList (deletions disabled [])) loose)
    (dead_iff : ∀ name, name ∈ dead ↔ name ∈ loose.oneWays)
    {name : String} {channel : Channel} (present : graph.channel? name = some channel) :
    graph.Survives (.ofList (deletions disabled dead)) name ↔
      graph.isLive channel = true := by
  have live_iff : graph.isLive channel = true ↔
      ∀ direction, graph.KeepsEnd (.ofList (deletions disabled [])) name direction := by
    simp only [isLive_iff present, keepsEnd_iff disabled_iff]
  have notOneWay_iff (survives : graph.Survives (.ofList (deletions disabled [])) name) :
      name ∉ dead ↔
        ∀ direction, graph.KeepsEnd (.ofList (deletions disabled [])) name direction := by
    have found := (leavesLoose.channel_iff name channel.bare).mpr
      ⟨bareChannel?_eq_some present, survives⟩
    rw [dead_iff, not_mem_oneWays_iff (Option.isSome_of_eq_some found)]
    simp only [leavesLoose.hasEnd_iff, survives, true_and]
  rw [survives_deletions_iff, live_iff]
  constructor
  · intro both
    exact (notOneWay_iff both.2).mp both.1
  · intro keeps
    have notLost : ¬ (Losses.ofList (deletions disabled [])).channel name := by
      rw [lost_channel_iff]
      exact List.not_mem_nil
    have survives : graph.Survives (.ofList (deletions disabled [])) name :=
      ⟨notLost, fun _ => keeps⟩
    exact ⟨(notOneWay_iff survives).mpr keeps, survives⟩

theorem bareNode?_pruned
    (disabled_iff : ∀ name, name ∈ disabled ↔ name ∈ graph.switchedOff)
    (leaves : Leaves graph (.ofList (deletions disabled dead)) pruned) (name : String) :
    pruned.bareNode? name = (graph.bareNode? name).filter Node.enabled := by
  apply Option.ext
  intro node
  rw [leaves.node_iff, Option.filter_eq_some_iff, lost_node_iff]
  refine and_congr_right fun present => ?_
  rw [← isEnabled_iff disabled_iff (Option.isSome_of_eq_some present), Graph.isEnabled_eq,
    present, Option.any_some]

theorem channel?_pruned
    (mirrored : graph.Mirrored) (disabled_iff : ∀ name, name ∈ disabled ↔ name ∈ graph.switchedOff)
    (leaves : Leaves graph (.ofList (deletions disabled dead)) pruned)
    {name : String} {channel : Channel} (present : graph.channel? name = some channel)
    (survives : graph.Survives (.ofList (deletions disabled dead)) name) :
    pruned.channel? name = some (graph.enabledPart channel) := by
  obtain ⟨left, leftPresent, sameBare⟩ := Option.map_eq_some_iff.mp
    ((leaves.channel_iff name channel.bare).mpr ⟨bareChannel?_eq_some present, survives⟩)
  have sameEnds : left.ends = (graph.enabledPart channel).ends := by
    apply KeySet.ext_contains
    intro endpoint
    rw [Bool.eq_iff_iff, ← lists_of_channel? leftPresent, leaves.lists_iff, enabledPart,
      KeySet.contains_filter, Bool.and_eq_true, ← lists_of_channel? present, lost_endpoint_iff]
    refine and_congr_right fun listed => ?_
    have nodePresent := bareNode?_isSome_of_pin? (mirrored.pin?_isSome_of_lists listed)
    rw [isEnabled_iff disabled_iff nodePresent]
    exact and_iff_left survives
  rw [leftPresent]
  exact congrArg some (Channel.eq_of_bare sameBare sameEnds)

theorem channel?_pruned_eq_none
    (leaves : Leaves graph (.ofList (deletions disabled dead)) pruned) {name : String}
    (dies : ∀ channel, graph.channel? name = some channel →
      ¬ graph.Survives (.ofList (deletions disabled dead)) name) :
    pruned.channel? name = none := by
  rw [Option.eq_none_iff_forall_ne_some]
  intro left leftPresent
  obtain ⟨found, survives⟩ :=
    (leaves.channel_iff name left.bare).mp (bareChannel?_eq_some leftPresent)
  obtain ⟨channel, present, _⟩ := Option.map_eq_some_iff.mp found
  exact dies channel present survives

theorem prunes_of_leaves
    (mirrored : graph.Mirrored) (disabled_iff : ∀ name, name ∈ disabled ↔ name ∈ graph.switchedOff)
    (leavesLoose : Leaves graph (.ofList (deletions disabled [])) loose)
    (dead_iff : ∀ name, name ∈ dead ↔ name ∈ loose.oneWays)
    (leaves : Leaves graph (.ofList (deletions disabled dead)) pruned) :
    Prunes graph pruned := by
  refine ⟨leaves.sameBare, bareNode?_pruned disabled_iff leaves, ?_⟩
  intro name
  cases present : graph.channel? name with
  | none =>
      apply channel?_pruned_eq_none leaves
      intro channel channelPresent
      simp [present] at channelPresent
  | some channel =>
      have survives_iff := survives_iff_isLive disabled_iff leavesLoose dead_iff present
      by_cases live : graph.isLive channel = true
      · rw [Option.filter_some, if_pos live, Option.map_some]
        exact channel?_pruned mirrored disabled_iff leaves present (survives_iff.mpr live)
      · rw [Option.filter_some, if_neg live, Option.map_none]
        exact channel?_pruned_eq_none leaves fun _ _ survives => live (survives_iff.mp survives)

/-! ### The deletions can be made -/

theorem exists_loose
    (consistent : graph.Consistent) (disabledNodup : disabled.Nodup)
    (disabled_iff : ∀ name, name ∈ disabled ↔ name ∈ graph.switchedOff) :
    ∃ loose, disabled.foldlM Graph.deleteNode graph = .ok loose ∧
      Leaves graph (.ofList (deletions disabled [])) loose := by
  have start : Leaves graph (.ofList []) graph := by
    rw [Losses.ofList_nil]
    exact Leaves.refl consistent
  rw [deletions, List.map_nil, List.append_nil]
  refine start.foldlM Removal.deleteNode (fun _ _ => rfl) disabledNodup ?_
  intro done name current listed fresh leaves
  obtain ⟨node, present⟩ := node?_of_mem_switchedOff ((disabled_iff name).mp listed)
  have kept : ¬ (Losses.ofList (done.map Removal.deleteNode)).node name := by
    simpa [Losses.ofList] using fresh
  have found := (leaves.node_iff name node.bare).mpr ⟨bareNode?_eq_some present, kept⟩
  obtain ⟨stillThere, stillPresent, _⟩ := Option.map_eq_some_iff.mp found
  exact ⟨_, deleteNode_eq_ok_iff.mpr ⟨stillThere, stillPresent, rfl⟩⟩

theorem exists_pruned
    (leavesLoose : Leaves graph (.ofList (deletions disabled [])) loose) (deadNodup : dead.Nodup)
    (dead_iff : ∀ name, name ∈ dead ↔ name ∈ loose.oneWays) :
    ∃ pruned, dead.foldlM Graph.deleteChannel loose = .ok pruned ∧
      Leaves graph (.ofList (deletions disabled dead)) pruned := by
  have leavesNodes := leavesLoose
  rw [deletions, List.map_nil, List.append_nil] at leavesNodes
  refine leavesNodes.foldlM Removal.deleteChannel (fun _ _ => rfl) deadNodup ?_
  intro done name current listed fresh leaves
  obtain ⟨channel, present⟩ := channel?_of_mem_oneWays ((dead_iff name).mp listed)
  obtain ⟨wasPresent, survives⟩ :=
    (leavesLoose.channel_iff name channel.bare).mp (bareChannel?_eq_some present)
  have found := (leaves.channel_iff name channel.bare).mpr
    ⟨wasPresent, survives_deletions_iff.mpr ⟨fresh, survives⟩⟩
  have isPresent : (current.channel? name).isSome = true := by
    rw [← bareChannel?_isSome, found, Option.isSome_some]
  exact ⟨_, deleteChannel_eq_ok_iff.mpr ⟨isPresent, rfl⟩⟩

end Deletions

/-- Disabled nodes and dead channels leave no trace in a package. The disabled nodes can be deleted
in any order, and then, in any order, the channels that have no input or no output left; what
remains has the same package as the whole graph. -/
theorem package_prune
    {graph : Graph} (unproblematic : graph.problems = [])
    {disabled : List String} (allDisabled : disabled.Perm graph.switchedOff) :
    ∃ loose, disabled.foldlM Graph.deleteNode graph = .ok loose ∧
      ∀ dead : List String, dead.Perm loose.oneWays →
        ∃ pruned, dead.foldlM Graph.deleteChannel loose = .ok pruned ∧
          ∃ package, graph.package = .ok package ∧ pruned.package = .ok package := by
  have consistent := problems_eq_nil_iff.mp unproblematic
  have disabled_iff (name : String) : name ∈ disabled ↔ name ∈ graph.switchedOff :=
    allDisabled.mem_iff
  have disabledNodup : disabled.Nodup := allDisabled.nodup_iff.mpr (Table.keys_nodup _)
  obtain ⟨loose, looseMade, leavesLoose⟩ := exists_loose consistent disabledNodup disabled_iff
  refine ⟨loose, looseMade, ?_⟩
  intro dead allDead
  have dead_iff (name : String) : name ∈ dead ↔ name ∈ loose.oneWays := allDead.mem_iff
  have deadNodup : dead.Nodup := allDead.nodup_iff.mpr (Table.keys_nodup _)
  obtain ⟨pruned, prunedMade, leaves⟩ := exists_pruned leavesLoose deadNodup dead_iff
  refine ⟨pruned, prunedMade, ?_⟩
  have prunes : Prunes graph pruned :=
    prunes_of_leaves consistent.toMirrored disabled_iff leavesLoose dead_iff leaves
  have prunedRight := leaves.consistent.problems_eq_nil
  obtain ⟨package, made⟩ := package_of_no_problems unproblematic
  refine ⟨package, made, ?_⟩
  rw [package_congr prunes.sameBare prunes.wiring_bare prunedRight unproblematic]
  exact made

/-- A sink that a broadcast sends to and a disabled one would, a channel without ends, and one
whose only reader is disabled. -/
def halfOff : Graph :=
  ((empty "half" "example.org/half" false).run Registry.builtin
    [.createNode ⟨"left", "Broadcast", .null, true, true, 1, 0, 0⟩,
      .createNode ⟨"right", "Broadcast", .null, false, true, 1, 0, 0⟩,
      .createNode ⟨"drain", "Sink", .null, true, false, 1, 0, 0⟩,
      .createNode ⟨"leak", "Sink", .null, false, true, 1, 0, 0⟩,
      .createChannel ⟨"shared", "interface\x7b\x7d", 0, false, ⟨"left", "output0"⟩,
        ⟨"drain", "input"⟩⟩,
      .connectPin ⟨⟨"right", "output0"⟩, "shared"⟩,
      .createChannel ⟨"lost", "interface\x7b\x7d", 0, false, ⟨"left", "output1"⟩,
        ⟨"leak", "input"⟩⟩]).putChannel "spare" ⟨"spare", "int", 0, false, Table.empty⟩

theorem package_prune_halfOff :
    halfOff.channels.keys = ["lost", "shared", "spare"] ∧ halfOff.problems = [] ∧
      ["right", "leak"].Perm halfOff.switchedOff ∧
      ∃ loose, ["right", "leak"].foldlM Graph.deleteNode halfOff = .ok loose ∧
        ["spare"].Perm loose.oneWays ∧
        ∃ pruned, ["spare"].foldlM Graph.deleteChannel loose = .ok pruned ∧
          ∃ package, halfOff.package = .ok package ∧ pruned.package = .ok package := by
  have unproblematic : halfOff.problems = [] := by decide
  have allDisabled : ["right", "leak"].Perm halfOff.switchedOff := by decide
  obtain ⟨loose, looseMade, prunes⟩ := package_prune unproblematic allDisabled
  have allDead : ["spare"].Perm loose.oneWays := by
    have made : ["right", "leak"].foldlM Graph.deleteNode halfOff = .ok _ := rfl
    rw [made] at looseMade
    rw [← Except.ok.inj looseMade]
    decide
  exact ⟨by decide, unproblematic, allDisabled, loose, looseMade, allDead, prunes _ allDead⟩

end Graph

end Pipework
