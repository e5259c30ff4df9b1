import Pipework.Proofs.Graph.Removal

/-!
# What a removal takes with it

To disconnect a pin or to delete a node removes ends of channels, and a channel goes with its ends
when no input or no output is left among them. `Graph.Cut` says of every channel and every node
what becomes of it, and leaves nothing open (`Graph.Cut.unique`). The main statement is that both
requests cut a consistent graph at the bound pins that they remove, and nowhere else
(`Graph.removal_cuts`).
-/

namespace Pipework

/-- A channel without some of its ends. -/
def Channel.withoutEnds (channel : Channel) (removed : Endpoint → Bool) : Channel :=
  { channel with ends := Table.filter (fun endpoint _ => !removed endpoint) channel.ends }

/-- A node some of whose pins are bound no more. -/
def Node.withoutBindings (node : Node) (cleared : String → Option String → Bool) : Node :=
  { node with
    connections := node.connections.mapEntries fun pin channel? =>
      if cleared pin channel? then none else channel? }

namespace Graph

/-- What becomes of a channel when ends are removed. It stays as it is when none of its ends is
removed; otherwise it stays with its other ends if these still include an input and an output, and
goes if not. -/
def cutChannel? (graph : Graph) (removed : Endpoint → Bool) (channel : Channel) :
    Option Channel :=
  if channel.ends.toList.any removed then
    if graph.isTwoWay (channel.withoutEnds removed).ends.toList then
      some (channel.withoutEnds removed)
    else none
  else some channel

/-- One graph is another with ends removed and nodes dropped: a pin is unbound when it is removed
or its channel has gone, and nothing else is different. -/
structure Cut (before : Graph) (removed : Endpoint → Bool) (dropped : String → Bool)
    (after : Graph) : Prop where
  sameBare : after.bare = before.bare
  channel : ∀ name, after.channel? name =
    (before.channel? name).bind (before.cutChannel? removed)
  node : ∀ name, after.node? name =
    if dropped name then none
    else (before.node? name).map fun node =>
      node.withoutBindings fun pin channel? =>
        removed ⟨name, pin⟩ || channel?.any fun channel => (after.channel? channel).isNone

/-- What is removed and dropped determines what is left. -/
theorem Cut.unique
    {before first second : Graph} {removed : Endpoint → Bool} {dropped : String → Bool}
    (isFirst : before.Cut removed dropped first) (isSecond : before.Cut removed dropped second) :
    first = second := by
  have sameChannels (name : String) : first.channel? name = second.channel? name := by
    rw [isFirst.channel, isSecond.channel]
  have sameNodes (name : String) : first.node? name = second.node? name := by
    rw [isFirst.node, isSecond.node]
    simp only [sameChannels]
  exact ext_records (isFirst.sameBare.trans isSecond.sameBare.symm) sameNodes sameChannels

/-! ## Records from their views -/

theorem channel?_eq_some_of_views
    {graph : Graph} {name : String} {channel : Channel}
    (sameBare : graph.bareChannel? name = some channel.bare)
    (sameEnds : ∀ endpoint, graph.lists name endpoint = channel.ends.contains endpoint) :
    graph.channel? name = some channel := by
  obtain ⟨found, present, bareEqual⟩ := Option.map_eq_some_iff.mp sameBare
  have endsEqual : found.ends = channel.ends := by
    refine KeySet.ext_contains fun endpoint => ?_
    rw [← lists_of_channel? present, sameEnds]
  rw [present, Channel.eq_of_bare bareEqual endsEqual]

theorem node?_eq_some_of_views
    {graph : Graph} {name : String} {node : Node}
    (sameBare : graph.bareNode? name = some node.bare)
    (sameConnections : ∀ pin, graph.connection? ⟨name, pin⟩ = node.connections.get? pin) :
    graph.node? name = some node := by
  obtain ⟨found, present, bareEqual⟩ := Option.map_eq_some_iff.mp sameBare
  have connectionsEqual : found.connections = node.connections := by
    refine Table.ext_get? fun pin => ?_
    rw [← sameConnections, connection?, present, Option.bind_some]
  rw [present, Node.eq_of_bare bareEqual connectionsEqual]

/-! ## Channels that survive -/

section Survive

variable {graph : Graph} {losses : Losses} {removed : Endpoint → Bool} {name : String}
  {channel : Channel}

theorem contains_withoutEnds
    (channel : Channel) (removed : Endpoint → Bool) (endpoint : Endpoint) :
    (channel.withoutEnds removed).ends.contains endpoint =
      (channel.ends.contains endpoint && !removed endpoint) :=
  KeySet.contains_filter (fun endpoint => !removed endpoint) channel.ends endpoint

theorem withoutEnds_of_none
    (untouched : channel.ends.toList.any removed = false) :
    channel.withoutEnds removed = channel := by
  refine Channel.eq_of_bare rfl (KeySet.ext_contains fun endpoint => ?_)
  rw [contains_withoutEnds]
  cases listed : channel.ends.contains endpoint with
  | false => rfl
  | true =>
      have member : endpoint ∈ channel.ends.toList := KeySet.mem_toList_iff.mpr listed
      have kept : removed endpoint = false := by
        simpa using List.any_eq_false.mp untouched endpoint member
      rw [kept]
      rfl

theorem cutChannel?_eq_or
    (graph : Graph) (removed : Endpoint → Bool) (channel : Channel) :
    graph.cutChannel? removed channel = some (channel.withoutEnds removed) ∨
      graph.cutChannel? removed channel = none := by
  rw [cutChannel?]
  split
  · split
    · exact .inl rfl
    · exact .inr rfl
  · rename_i untouched
    rw [withoutEnds_of_none (by simpa using untouched)]
    exact .inl rfl

variable (present : graph.channel? name = some channel)
  (removed_iff : ∀ endpoint, graph.lists name endpoint = true →
    (removed endpoint = true ↔ losses.endpoint endpoint))

include present removed_iff

theorem keepsEnd_iff_hasDirection
    (direction : Direction) :
    graph.KeepsEnd losses name direction ↔
      graph.hasDirection direction (channel.withoutEnds removed).ends.toList = true := by
  rw [hasDirection_iff, KeepsEnd]
  refine exists_congr fun endpoint => ?_
  rw [exists_and_left, exists_and_left, KeySet.mem_toList_iff, contains_withoutEnds,
    ← lists_of_channel? present, Bool.and_eq_true, and_assoc]
  refine and_congr_right fun listed => and_congr_left fun _ => ?_
  rw [← removed_iff endpoint listed, Bool.not_eq_true', Bool.not_eq_true]

/-- A channel of a consistent graph survives when something is left of it after the cut. -/
theorem survives_iff_cutChannel?
    (consistent : graph.Consistent) (stays : ¬ losses.channel name) :
    graph.Survives losses name ↔
      graph.cutChannel? removed channel = some (channel.withoutEnds removed) := by
  have keeps_iff := keepsEnd_iff_hasDirection present removed_iff
  rw [Survives, and_iff_right stays, cutChannel?]
  by_cases touched : channel.ends.toList.any removed = true
  · obtain ⟨endpoint, member, _⟩ := List.any_eq_true.mp touched
    have listed : graph.lists name endpoint = true := by
      rw [lists_of_channel? present]
      exact KeySet.mem_toList_iff.mp member
    have twoWay_iff : graph.isTwoWay (channel.withoutEnds removed).ends.toList = true ↔
        ∀ direction, graph.KeepsEnd losses name direction := by
      simp only [isTwoWay, Bool.and_eq_true, keeps_iff]
      exact ⟨fun both direction => by cases direction; exacts [both.1, both.2],
        fun both => ⟨both .input, both .output⟩⟩
    rw [if_pos touched, ← twoWay_iff, forall_prop_of_true ⟨endpoint, listed⟩]
    cases graph.isTwoWay (channel.withoutEnds removed).ends.toList <;> simp
  · have untouched : channel.ends.toList.any removed = false := by simpa using touched
    -- No end is removed, and a consistent channel with an end has one of each direction.
    have keepsBoth : (∃ endpoint, graph.lists name endpoint = true) →
        ∀ direction, graph.KeepsEnd losses name direction := by
      rintro ⟨endpoint, listed⟩ direction
      rw [keeps_iff, withoutEnds_of_none untouched, hasDirection_toList_iff present]
      exact hasEnd_of_isViable present (consistent.viable listed) direction
    rw [if_neg touched, withoutEnds_of_none untouched]
    exact iff_of_true keepsBoth rfl

end Survive

/-! ## What is left is a cut -/

namespace Leaves

variable {before after : Graph} {losses : Losses} (leaves : Leaves before losses after)

section Records

include leaves

theorem bareNode?_of_lost
    {name : String} (lost : losses.node name) :
    after.bareNode? name = none := by
  rw [Option.eq_none_iff_forall_ne_some]
  intro node found
  exact ((leaves.node_iff name node).mp found).2 lost

theorem bareNode?_of_kept
    {name : String} (kept : ¬ losses.node name) :
    after.bareNode? name = before.bareNode? name := by
  apply Option.ext
  intro node
  rw [leaves.node_iff, and_iff_left kept]

theorem bareChannel?_of_lost
    {name : String} (lost : ¬ before.Survives losses name) :
    after.bareChannel? name = none := by
  rw [Option.eq_none_iff_forall_ne_some]
  intro channel found
  exact lost ((leaves.channel_iff name channel).mp found).2

theorem bareChannel?_of_survives
    {name : String} (survives : before.Survives losses name) :
    after.bareChannel? name = before.bareChannel? name := by
  apply Option.ext
  intro channel
  rw [leaves.channel_iff, and_iff_left survives]

theorem isSome_channel?_iff_survives
    {name : String} {endpoint : Endpoint} (listed : before.lists name endpoint = true) :
    (after.channel? name).isSome = true ↔ before.Survives losses name := by
  obtain ⟨channel, present, _⟩ := Graph.lists_iff.mp listed
  rw [← bareChannel?_isSome]
  constructor
  · intro isLeft
    by_contra lost
    rw [leaves.bareChannel?_of_lost lost] at isLeft
    exact Bool.noConfusion isLeft
  · intro survives
    rw [leaves.bareChannel?_of_survives survives, bareChannel?_eq_some present,
      Option.isSome_some]

end Records

section Cut

variable (consistent : before.Consistent) {removed : Endpoint → Bool}
  (removed_iff : ∀ endpoint, removed endpoint = true ↔
    losses.endpoint endpoint ∧ (before.binding? endpoint).isSome = true)
  (channelsStay : ∀ name, ¬ losses.channel name)

include consistent removed_iff

theorem removed_iff_lost
    {name : String} (endpoint : Endpoint) (listed : before.lists name endpoint = true) :
    removed endpoint = true ↔ losses.endpoint endpoint := by
  rw [removed_iff, (consistent.bound_iff endpoint name).mpr listed]
  simp

include leaves

/-- A binding is left when its pin is not removed and its channel has not gone. -/
theorem binding?_eq_some_iff_cut
    {endpoint : Endpoint} {name : String} :
    after.binding? endpoint = some name ↔
      before.binding? endpoint = some name ∧ removed endpoint = false ∧
        (after.channel? name).isSome = true := by
  rw [leaves.bound_iff, leaves.lists_iff, consistent.bound_iff]
  refine and_congr_right fun listed => ?_
  rw [leaves.isSome_channel?_iff_survives listed,
    ← removed_iff_lost consistent removed_iff endpoint listed, Bool.not_eq_true]

include channelsStay in
theorem channel?_eq_cut
    (name : String) :
    after.channel? name = (before.channel? name).bind (before.cutChannel? removed) := by
  have lost_iff (endpoint : Endpoint) (listed : before.lists name endpoint = true) :=
    removed_iff_lost consistent removed_iff endpoint listed
  cases present : before.channel? name with
  | none =>
      have missing : before.bareChannel? name = none := Option.map_eq_none_iff.mpr present
      have stillMissing : after.bareChannel? name = none := by
        by_cases survives : before.Survives losses name
        · rw [leaves.bareChannel?_of_survives survives, missing]
        · exact leaves.bareChannel?_of_lost survives
      exact Option.map_eq_none_iff.mp stillMissing
  | some channel =>
      have survives_iff :=
        survives_iff_cutChannel? present lost_iff consistent (channelsStay name)
      rw [Option.bind_some]
      rcases cutChannel?_eq_or before removed channel with isLeft | isGone
      · have survives := survives_iff.mpr isLeft
        have bare := bareChannel?_eq_some present
        rw [← leaves.bareChannel?_of_survives survives] at bare
        rw [isLeft]
        refine channel?_eq_some_of_views bare fun endpoint => ?_
        rw [contains_withoutEnds, ← lists_of_channel? present, Bool.eq_iff_iff,
          leaves.lists_iff, Bool.and_eq_true, Bool.not_eq_true', ← Bool.not_eq_true]
        refine and_congr_right fun listed => ?_
        rw [and_iff_left survives, lost_iff endpoint listed]
      · have lost : ¬ before.Survives losses name := by
          rw [survives_iff, isGone]
          exact nofun
        rw [isGone]
        exact Option.map_eq_none_iff.mp (leaves.bareChannel?_of_lost lost)

theorem connection?_eq_cut
    {name : String} (stays : ¬ losses.node name) (pin : String) :
    after.connection? ⟨name, pin⟩ =
      (before.connection? ⟨name, pin⟩).map fun channel? =>
        if removed ⟨name, pin⟩ || channel?.any fun channel => (after.channel? channel).isNone
        then none else channel? := by
  have sameNode := leaves.bareNode?_of_kept stays
  have sameEntry : (after.connection? ⟨name, pin⟩).isSome =
      (before.connection? ⟨name, pin⟩).isSome := by
    rw [leaves.connection?_isSome, consistent.connection?_isSome, pin?_eq, pin?_eq, sameNode]
  have bound_iff (channel : String) : after.binding? ⟨name, pin⟩ = some channel ↔ _ :=
    leaves.binding?_eq_some_iff_cut consistent removed_iff
  simp only [binding?_eq] at bound_iff
  cases was : before.connection? ⟨name, pin⟩ with
  | none =>
      rw [was, Option.isSome_none, Option.isSome_eq_false_iff, Option.isNone_iff_eq_none]
        at sameEntry
      exact sameEntry
  | some channel? =>
      rw [was, Option.isSome_some, Option.isSome_iff_exists] at sameEntry
      obtain ⟨left?, isLeft⟩ := sameEntry
      rw [isLeft, Option.map_some, Option.some.injEq]
      apply Option.ext
      intro channel
      rw [was, isLeft, Option.join_some, Option.join_some] at bound_iff
      rw [bound_iff]
      cases channel? with
      | none => simp
      | some found =>
          cases removed ⟨name, pin⟩ <;> cases kept : after.channel? found <;> grind

end Cut

/-- What removals of pins and nodes leave of a consistent graph is the graph cut at the bound pins
among those that are to go. -/
theorem cut
    (leaves : Leaves before losses after) (consistent : before.Consistent)
    {removed : Endpoint → Bool} {dropped : String → Bool}
    (removed_iff : ∀ endpoint, removed endpoint = true ↔
      losses.endpoint endpoint ∧ (before.binding? endpoint).isSome = true)
    (dropped_iff : ∀ name, dropped name = true ↔ losses.node name)
    (channelsStay : ∀ name, ¬ losses.channel name) :
    before.Cut removed dropped after := by
  refine ⟨leaves.sameBare, leaves.channel?_eq_cut consistent removed_iff channelsStay,
    fun name => ?_⟩
  by_cases isDropped : dropped name = true
  · rw [if_pos isDropped]
    exact Option.map_eq_none_iff.mp (leaves.bareNode?_of_lost ((dropped_iff name).mp isDropped))
  · have stays : ¬ losses.node name := fun lost => isDropped ((dropped_iff name).mpr lost)
    have sameBare := leaves.bareNode?_of_kept stays
    rw [if_neg isDropped]
    cases present : before.node? name with
    | none =>
        rw [bareNode?, bareNode?, present] at sameBare
        exact Option.map_eq_none_iff.mp sameBare
    | some node =>
        rw [bareNode?_eq_some present] at sameBare
        rw [Option.map_some]
        refine node?_eq_some_of_views sameBare fun pin => ?_
        rw [leaves.connection?_eq_cut consistent removed_iff stays, connection?, present,
          Option.bind_some, Node.withoutBindings, Table.get?_mapEntries]

end Leaves

/-! ## The two requests -/

/-- In a consistent graph a pin that is there can be disconnected and a node that is there can be
deleted. What this removes is the pin, if it is bound, and the bound pins of the node. A channel
with none of these ends stays as it is; another keeps its other ends when an input and an output
are among them, and is taken away when not. A pin is unbound exactly when it is removed or its
channel is taken away, and nothing else changes, except that the deleted node goes. -/
theorem removal_cuts
    (registry : Registry) {graph : Graph} (unproblematic : graph.problems = []) :
    (∀ endpoint, (graph.pin? endpoint).isSome = true →
      ∃ next, graph.apply registry (.disconnectPin endpoint) = .ok next ∧
        graph.Cut (fun other => other = endpoint && (graph.binding? other).isSome)
          (fun _ => false) next) ∧
    ∀ name, (graph.node? name).isSome = true →
      ∃ next, graph.apply registry (.deleteNode name) = .ok next ∧
        graph.Cut (fun other => other.node = name && (graph.binding? other).isSome)
          (fun other => other = name) next := by
  have consistent := problems_eq_nil_iff.mp unproblematic
  have leaves (removal : Removal) :=
    (Leaves.refl consistent).step registry removal
  constructor
  · intro endpoint present
    have granted : graph.apply registry (.disconnectPin endpoint) = .ok _ :=
      disconnectPin_eq_ok_iff.mpr ⟨present, rfl⟩
    have left := leaves (.disconnectPin endpoint)
    rw [Removal.request, step_of_granted granted] at left
    refine ⟨_, granted, left.cut consistent ?_ ?_ ?_⟩ <;>
      simp [Losses.add, Losses.none]
  · intro name present
    obtain ⟨node, isNode⟩ := Option.isSome_iff_exists.mp present
    have granted : graph.apply registry (.deleteNode name) = .ok _ :=
      deleteNode_eq_ok_iff.mpr ⟨node, isNode, rfl⟩
    have left := leaves (.deleteNode name)
    rw [Removal.request, step_of_granted granted] at left
    refine ⟨_, granted, left.cut consistent ?_ ?_ ?_⟩ <;>
      simp [Losses.add, Losses.none]

/-- Without its only input the channel goes and both senders are unbound; without one of two
senders it stays with its other ends. -/
theorem removal_cuts_fanIn :
    fanIn.problems = [] ∧
      (∃ next, fanIn.apply Registry.builtin (.disconnectPin ⟨"drain", "input"⟩) = .ok next ∧
        fanIn.Cut
          (fun other => other = ⟨"drain", "input"⟩ && (fanIn.binding? other).isSome)
          (fun _ => false) next) ∧
      (∃ next, fanIn.apply Registry.builtin (.deleteNode "left") = .ok next ∧
        fanIn.Cut (fun other => other.node = "left" && (fanIn.binding? other).isSome)
          (fun other => other = "left") next) ∧
      (fanIn.step Registry.builtin (.disconnectPin ⟨"drain", "input"⟩)).channels = Table.empty ∧
      (fanIn.step Registry.builtin (.deleteNode "left")).lists "shared" ⟨"drain", "input"⟩ =
        true := by
  have unproblematic := problems_eq_nil_iff.mpr fanIn_built.consistent
  obtain ⟨disconnects, deletes⟩ := removal_cuts Registry.builtin unproblematic
  exact ⟨unproblematic, disconnects ⟨"drain", "input"⟩ (by decide), deletes "left" (by decide),
    by decide, by decide⟩

end Graph

end Pipework
