import Pipework.Proofs.Graph.View

/-!
# Viable channels and detached pins

A channel is viable while it has an end of each direction; two such ends are different, so it
then has two ends as well. Detaching a pin may leave a channel without one direction, and then
the channel goes and unbinds its other ends. The main statements say what each view of a graph
shows after `Graph.detach`, whichever way it went.
-/

namespace Pipework

namespace Graph

/-! ## Viability -/

/-- Whether a channel has an end of a direction. -/
def HasEnd (graph : Graph) (channel : String) (direction : Direction) : Prop :=
  ∃ endpoint, graph.lists channel endpoint = true ∧
    ∃ pin, graph.pin? endpoint = some pin ∧ pin.direction = direction

theorem hasDirection_iff
    {graph : Graph} {direction : Direction} {endpoints : List Endpoint} :
    graph.hasDirection direction endpoints = true ↔
      ∃ endpoint ∈ endpoints, ∃ pin, graph.pin? endpoint = some pin ∧
        pin.direction = direction := by
  rw [hasDirection, List.any_eq_true]
  refine exists_congr fun endpoint => and_congr_right fun _ => ?_
  cases graph.pin? endpoint <;> simp

theorem hasDirection_toList_iff
    {graph : Graph} {channel : String} {found : Channel}
    (present : graph.channel? channel = some found) (direction : Direction) :
    graph.hasDirection direction found.ends.toList = true ↔
      graph.HasEnd channel direction := by
  rw [hasDirection_iff]
  refine exists_congr fun endpoint => and_congr_left fun _ => ?_
  rw [KeySet.mem_toList_iff, lists_of_channel? present]

theorem two_le_length_of_mem
    {α : Type} {first second : α} {items : List α}
    (firstMember : first ∈ items) (secondMember : second ∈ items)
    (different : first ≠ second) :
    2 ≤ items.length := by
  match items with
  | [] => simp at firstMember
  | [only] =>
      have atFirst : first = only := List.mem_singleton.mp firstMember
      have atSecond : second = only := List.mem_singleton.mp secondMember
      exact absurd (atFirst.trans atSecond.symm) different
  | _ :: _ :: rest =>
      simp only [List.length_cons]
      omega

/-- Ends of both directions are two ends. -/
theorem two_le_size_of_hasEnd
    {graph : Graph} {channel : String} {found : Channel}
    (present : graph.channel? channel = some found)
    (both : ∀ direction, graph.HasEnd channel direction) :
    2 ≤ found.ends.size := by
  obtain ⟨receiver, receiverListed, input, receiverPin, isInput⟩ := both .input
  obtain ⟨sender, senderListed, output, senderPin, isOutput⟩ := both .output
  have different : receiver ≠ sender := by
    intro same
    rw [same, senderPin] at receiverPin
    injection receiverPin with samePin
    rw [← samePin, isOutput] at isInput
    exact Direction.noConfusion isInput
  have member {endpoint : Endpoint} (listed : graph.lists channel endpoint = true) :
      endpoint ∈ found.ends.keys := by
    rw [Table.mem_keys_iff, ← lists_of_channel? present]
    exact listed
  have sizeEq : found.ends.size = found.ends.keys.length := by
    rw [Table.size, Table.keys, List.length_map]
  rw [sizeEq]
  exact two_le_length_of_mem (member receiverListed) (member senderListed) different

theorem isViable_iff
    {graph : Graph} {channel : String} :
    graph.isViable channel = true ↔
      ((graph.bareChannel? channel).isSome = true →
        ∀ direction, graph.HasEnd channel direction) := by
  rw [isViable, bareChannel?_isSome]
  cases present : graph.channel? channel with
  | none => simp
  | some found =>
      simp only [isTwoWay, Bool.and_eq_true, decide_eq_true_eq,
        hasDirection_toList_iff present, Option.isSome_some, forall_const]
      constructor
      · intro both direction
        obtain ⟨_, input, output⟩ := both
        cases direction with
        | input => exact input
        | output => exact output
      · intro both
        exact ⟨two_le_size_of_hasEnd present both, both .input, both .output⟩

theorem hasEnd_of_isViable
    {graph : Graph} {channel : String} {found : Channel}
    (present : graph.channel? channel = some found) (viable : graph.isViable channel = true)
    (direction : Direction) :
    graph.HasEnd channel direction := by
  refine isViable_iff.mp viable ?_ direction
  rw [bareChannel?_isSome]
  exact Option.isSome_of_eq_some present

theorem isViable_of_missing
    {graph : Graph} {channel : String}
    (missing : graph.bareChannel? channel = none) :
    graph.isViable channel = true := by
  rw [isViable_iff, missing]
  intro present
  simp at present

/-- Whether a channel is viable hangs on its ends and on the pins of the graph. -/
theorem isViable_congr
    {before after : Graph} {channel : String}
    (sameChannel : after.bareChannel? channel = before.bareChannel? channel)
    (sameEnds : ∀ endpoint, after.lists channel endpoint = before.lists channel endpoint)
    (samePins : ∀ endpoint, after.pin? endpoint = before.pin? endpoint) :
    after.isViable channel = before.isViable channel := by
  rw [Bool.eq_iff_iff, isViable_iff, isViable_iff]
  simp only [HasEnd, sameChannel, sameEnds, samePins]

/-! ## Detaching -/

/-- The graph with an endpoint unbound and taken off a channel, whatever is left of it. -/
def loosen (graph : Graph) (endpoint : Endpoint) (channel : String) : Graph :=
  (graph.bind endpoint none).changeEnds channel fun ends => ends.erase endpoint

theorem detach_eq
    (graph : Graph) (endpoint : Endpoint) (channel : String) :
    graph.detach endpoint channel =
      if (graph.loosen endpoint channel).isViable channel = true then
        graph.loosen endpoint channel
      else (graph.loosen endpoint channel).removeChannel channel := rfl

section Detach

variable (graph : Graph) (endpoint : Endpoint) (channel : String)

theorem bareNode?_loosen
    (name : String) :
    (graph.loosen endpoint channel).bareNode? name = graph.bareNode? name := by
  rw [loosen, bareNode?_changeEnds, bareNode?_bind]

theorem connection?_loosen
    (other : Endpoint) :
    (graph.loosen endpoint channel).connection? other =
      if other = endpoint then (graph.bareNode? endpoint.node).map fun _ => none
      else graph.connection? other := by
  rw [loosen, connection?_changeEnds, connection?_bind]

theorem binding?_loosen
    (other : Endpoint) :
    (graph.loosen endpoint channel).binding? other =
      if other = endpoint then none else graph.binding? other := by
  rw [loosen, binding?_changeEnds, binding?_unbind]

theorem bareChannel?_loosen
    (other : String) :
    (graph.loosen endpoint channel).bareChannel? other = graph.bareChannel? other := by
  rw [loosen, bareChannel?_changeEnds, bareChannel?_bind]

theorem lists_loosen_iff
    (other : String) (place : Endpoint) :
    (graph.loosen endpoint channel).lists other place = true ↔
      graph.lists other place = true ∧ ¬ (other = channel ∧ place = endpoint) := by
  rw [loosen, lists_changeEnds, lists_bind]
  by_cases same : other = channel
  · subst same
    rw [if_pos rfl, lists]
    show (graph.channel? other).any _ = true ↔ _
    cases graph.channel? other with
    | none => simp
    | some found => simp [and_comm]
  · simp [same]

@[simp] theorem bare_detach :
    (graph.detach endpoint channel).bare = graph.bare := by
  rw [detach_eq]
  split
  · rfl
  · rw [bare_removeChannel]
    rfl

@[simp] theorem bareNode?_detach
    (name : String) :
    (graph.detach endpoint channel).bareNode? name = graph.bareNode? name := by
  rw [detach_eq]
  split
  · rw [bareNode?_loosen]
  · rw [bareNode?_removeChannel, bareNode?_loosen]

@[simp] theorem pin?_detach
    (other : Endpoint) :
    (graph.detach endpoint channel).pin? other = graph.pin? other := by
  rw [pin?_eq, pin?_eq, bareNode?_detach]

theorem bareChannel?_detach
    (other : String) :
    (graph.detach endpoint channel).bareChannel? other =
      if other = channel ∧ (graph.loosen endpoint channel).isViable channel = false then none
      else graph.bareChannel? other := by
  rw [detach_eq]
  split
  · rename_i viable
    rw [bareChannel?_loosen, viable]
    simp
  · rename_i lost
    rw [bareChannel?_removeChannel, bareChannel?_loosen]
    simp [lost]

theorem binding?_detach_iff
    {other : Endpoint} {found : String} :
    (graph.detach endpoint channel).binding? other = some found ↔
      graph.binding? other = some found ∧ other ≠ endpoint ∧
        ((graph.loosen endpoint channel).isViable channel = true ∨
          graph.lists channel other = false) := by
  rw [detach_eq]
  split
  · rename_i viable
    rw [binding?_loosen]
    by_cases same : other = endpoint <;> simp [same, viable]
  · rename_i lost
    rw [binding?_removeChannel, binding?_loosen]
    have listed := lists_loosen_iff graph endpoint channel channel other
    by_cases same : other = endpoint
    · simp [same]
    · simp only [same, and_false, not_false_eq_true, and_true] at listed
      simp only [Bool.eq_iff_iff.mpr listed, same, if_false, lost]
      cases graph.lists channel other <;> simp [same]

theorem lists_detach_iff
    {other : String} {place : Endpoint} :
    (graph.detach endpoint channel).lists other place = true ↔
      graph.lists other place = true ∧ ¬ (other = channel ∧ place = endpoint) ∧
        ((graph.loosen endpoint channel).isViable channel = true ∨ other ≠ channel) := by
  rw [detach_eq]
  split
  · rename_i viable
    rw [lists_loosen_iff]
    simp only [viable, true_or, and_true]
  · rename_i lost
    rw [lists_removeChannel, Bool.and_eq_true, lists_loosen_iff]
    rw [decide_eq_true_eq]
    constructor
    · intro both
      obtain ⟨elsewhere, listed, apart⟩ := both
      exact ⟨listed, apart, Or.inr elsewhere⟩
    · intro both
      obtain ⟨listed, apart, elsewhere⟩ := both
      exact ⟨elsewhere.resolve_left lost, listed, apart⟩

/-- Detaching neither adds an entry to the connections of a node nor takes one away, as long as
what is unbound are pins that have one. -/
theorem connection?_isSome_detach
    (own : (graph.connection? endpoint).isSome = true)
    (ends : ∀ other, graph.lists channel other = true →
      (graph.connection? other).isSome = true)
    (other : Endpoint) :
    ((graph.detach endpoint channel).connection? other).isSome =
      (graph.connection? other).isSome := by
  have nodePresent {place : Endpoint} (connected : (graph.connection? place).isSome = true) :
      (graph.bareNode? place.node).isSome = true := by
    rw [bareNode?_isSome]
    rw [connection?] at connected
    cases found : graph.node? place.node with
    | none => simp [found] at connected
    | some node => rfl
  have loosened (place : Endpoint) :
      ((graph.loosen endpoint channel).connection? place).isSome =
        (graph.connection? place).isSome := by
    rw [connection?_loosen]
    split
    · rename_i same
      rw [Option.isSome_map, same, nodePresent own, own]
    · rfl
  rw [detach_eq]
  split
  · exact loosened other
  · rw [connection?_removeChannel]
    split
    · rename_i listed
      have connected : (graph.connection? other).isSome = true :=
        ends other ((lists_loosen_iff graph endpoint channel channel other).mp listed).1
      rw [Option.isSome_map, bareNode?_loosen, nodePresent connected, connected]
    · exact loosened other

/-- Detaching leaves no channel that is not viable, except those that were not before. -/
theorem isViable_detach
    (other : String) :
    (graph.detach endpoint channel).isViable other =
      (decide (other = channel) || graph.isViable other) := by
  by_cases same : other = channel
  · subst same
    simp only [decide_true, Bool.true_or]
    by_cases viable : (graph.loosen endpoint other).isViable other = true
    · rw [detach_eq, if_pos viable, viable]
    · apply isViable_of_missing
      rw [bareChannel?_detach, if_pos ⟨rfl, by simpa using viable⟩]
  · simp only [same, decide_false, Bool.false_or]
    apply isViable_congr
    · rw [bareChannel?_detach]
      simp [same]
    · intro place
      rw [Bool.eq_iff_iff, lists_detach_iff]
      simp [same]
    · intro place
      rw [pin?_detach]

end Detach

/-! ## Shrinking -/

/-- From one graph to another only bindings, ends and channels went, and no channel that was
viable stays without being so. -/
structure Shrinks (before after : Graph) : Prop where
  sameNodes : ∀ name, after.bareNode? name = before.bareNode? name
  binding : ∀ {endpoint channel}, after.binding? endpoint = some channel →
    before.binding? endpoint = some channel
  ends : ∀ {channel endpoint}, after.lists channel endpoint = true →
    before.lists channel endpoint = true
  channel : ∀ {name found}, after.bareChannel? name = some found →
    before.bareChannel? name = some found
  viable : ∀ {name}, before.isViable name = true → after.isViable name = true

namespace Shrinks

theorem refl (graph : Graph) : Shrinks graph graph :=
  ⟨fun _ => rfl, id, id, id, id⟩

theorem trans
    {first second third : Graph}
    (left : Shrinks first second) (right : Shrinks second third) :
    Shrinks first third where
  sameNodes name := (right.sameNodes name).trans (left.sameNodes name)
  binding bound := left.binding (right.binding bound)
  ends listed := left.ends (right.ends listed)
  channel present := left.channel (right.channel present)
  viable before := right.viable (left.viable before)

theorem detach
    (graph : Graph) (endpoint : Endpoint) (channel : String) :
    Shrinks graph (graph.detach endpoint channel) where
  sameNodes := bareNode?_detach graph endpoint channel
  binding bound := ((binding?_detach_iff graph endpoint channel).mp bound).1
  ends listed := ((lists_detach_iff graph endpoint channel).mp listed).1
  channel present := by
    rw [bareChannel?_detach] at present
    split at present
    · simp at present
    · exact present
  viable before := by
    rw [isViable_detach, before, Bool.or_true]

theorem foldl_detach
    (graph : Graph) (name : String) (bound : List (String × String)) :
    Shrinks graph
      (bound.foldl (fun current entry => current.detach ⟨name, entry.1⟩ entry.2) graph) := by
  induction bound generalizing graph with
  | nil => exact refl graph
  | cons first rest inductionHypothesis =>
      exact (detach graph ⟨name, first.1⟩ first.2).trans (inductionHypothesis _)

theorem removeChannel
    (graph : Graph) (channel : String) :
    Shrinks graph (graph.removeChannel channel) where
  sameNodes := bareNode?_removeChannel graph channel
  binding bound := by
    rw [binding?_removeChannel] at bound
    split at bound
    · simp at bound
    · exact bound
  ends listed := by
    rw [lists_removeChannel, Bool.and_eq_true] at listed
    exact listed.2
  channel present := by
    rw [bareChannel?_removeChannel] at present
    split at present
    · simp at present
    · exact present
  viable {name} before := by
    by_cases same : name = channel
    · apply isViable_of_missing
      rw [bareChannel?_removeChannel, if_pos same]
    · rw [← before]
      apply isViable_congr
      · rw [bareChannel?_removeChannel, if_neg same]
      · intro endpoint
        rw [lists_removeChannel]
        simp [same]
      · exact pin?_removeChannel graph channel

end Shrinks

end Graph

end Pipework
