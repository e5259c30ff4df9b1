import Pipework.Proofs.Graph.Building

/-!
# Channels that are assembled

A channel is assembled by a request that creates it between two pins and requests that attach the
others. `Graph.Joins` says what such requests make of a graph, and it names the ends of the channel
only as a list of members: neither who was first nor which two pins founded the channel shows in
the end (`Graph.applyInTurn_assembly_unique`).
-/

namespace Pipework

/-- Asks for the same channel between two other ends. -/
def CreateChannel.between (request : CreateChannel) (first second : Endpoint) : CreateChannel :=
  { request with first, second }

/-- Asks for a channel, and then for other pins to be attached to it. -/
def CreateChannel.assembly (request : CreateChannel) (others : List Endpoint) : List Request :=
  .createChannel request :: others.map fun endpoint => .connectPin ⟨endpoint, request.name⟩

namespace Graph

/-! ## What assembling makes of a graph -/

/-- One graph is another with a channel added, which has some ends and no others. -/
structure Joins (before : Graph) (added : Channel) (ends : List Endpoint) (after : Graph) : Prop
    extends Mirrored after where
  sameBare : after.bare = before.bare
  node : ∀ name, after.bareNode? name = before.bareNode? name
  channel : ∀ name, after.bareChannel? name =
    if name = added.name then some added else before.bareChannel? name
  lists_iff : ∀ name endpoint, after.lists name endpoint = true ↔
    name = added.name ∧ endpoint ∈ ends ∨ before.lists name endpoint = true

namespace Joins

variable {registry : Registry} {before after next : Graph} {added : Channel}
  {ends : List Endpoint}

/-- Which ends a channel has determines the graph, whatever their order. -/
theorem unique
    {first second : Graph} {otherEnds : List Endpoint} (isFirst : Joins before added ends first)
    (isSecond : Joins before added otherEnds second)
    (sameMembers : ∀ endpoint, endpoint ∈ ends ↔ endpoint ∈ otherEnds) :
    first = second := by
  refine ext_views isFirst.toMirrored isSecond.toMirrored
    (isFirst.sameBare.trans isSecond.sameBare.symm) ?_ ?_ ?_
  · intro name
    rw [isFirst.node, isSecond.node]
  · intro name
    rw [isFirst.channel, isSecond.channel]
  · intro name endpoint
    rw [Bool.eq_iff_iff, isFirst.lists_iff, isSecond.lists_iff, sameMembers]

theorem createChannel
    (mirrored : before.Mirrored) {request : CreateChannel}
    (granted : before.apply registry (.createChannel request) = .ok after) :
    Joins before request.channel.bare [request.first, request.second] after := by
  have afterMirrored := mirrored.of_apply granted
  obtain ⟨_, _, _, _, _, _, _, free, _, _, _, _, rfl⟩ := createChannel_eq_ok_iff.mp granted
  refine ⟨afterMirrored, rfl, bareNode?_addChannel, bareChannel?_addChannel, ?_⟩
  intro name endpoint
  have created : request.channel.bare.name = request.name := rfl
  rw [lists_addChannel_iff, created]
  by_cases same : name = request.name
  · have unlisted : before.lists request.name endpoint = false := by
      rw [lists, free, Option.any_none]
    simp [same, unlisted]
  · simp [same]

theorem connectPin
    (joins : Joins before added ends after) {endpoint : Endpoint}
    (granted : after.apply registry (.connectPin ⟨endpoint, added.name⟩) = .ok next) :
    Joins before added (ends ++ [endpoint]) next := by
  have nextMirrored := joins.toMirrored.of_apply granted
  obtain ⟨_, _, found, present, _, _, _, rfl⟩ := connectPin_eq_ok_iff.mp granted
  refine ⟨nextMirrored, joins.sameBare, ?_, ?_, ?_⟩
  · intro name
    rw [bareNode?_attach, joins.node]
  · intro name
    rw [bareChannel?_attach, joins.channel]
  · intro name other
    rw [lists_attach_iff (Option.isSome_of_eq_some present), joins.lists_iff, List.mem_append,
      List.mem_singleton, and_or_left, or_assoc, or_left_comm]

theorem connectPins
    (joins : Joins before added ends after) {others : List Endpoint}
    (granted : after.applyInTurn registry
      (others.map fun endpoint => .connectPin ⟨endpoint, added.name⟩) = .ok next) :
    Joins before added (ends ++ others) next := by
  induction others generalizing after ends with
  | nil =>
      obtain rfl : after = next := Except.ok.inj granted
      rw [List.append_nil]
      exact joins
  | cons endpoint rest inductionHypothesis =>
      rw [List.map_cons, applyInTurn, List.foldlM_cons, bind_eq_ok_iff] at granted
      obtain ⟨current, attached, restGranted⟩ := granted
      rw [List.append_cons]
      exact inductionHypothesis (joins.connectPin attached) restGranted

theorem assembly
    (mirrored : before.Mirrored) {request : CreateChannel} {others : List Endpoint}
    (granted : before.applyInTurn registry (request.assembly others) = .ok after) :
    Joins before request.channel.bare (request.first :: request.second :: others) after := by
  rw [CreateChannel.assembly, applyInTurn, List.foldlM_cons, bind_eq_ok_iff] at granted
  obtain ⟨current, created, restGranted⟩ := granted
  exact (Joins.createChannel mirrored created).connectPins restGranted

end Joins

/-! ## The two founding ends -/

/-- Pins of different nodes can be bound in either order. -/
theorem bind_bind_comm
    (graph : Graph) {first second : Endpoint} (different : first.node ≠ second.node)
    (firstConnection secondConnection : Option String) :
    (graph.bind first firstConnection).bind second secondConnection =
      (graph.bind second secondConnection).bind first firstConnection := by
  refine ext_records rfl (fun name => ?_) fun _ => rfl
  simp only [node?_bind, different, different.symm, if_false]
  by_cases atFirst : name = first.node
  · simp [atFirst, different]
  · simp [atFirst]

theorem addChannel_between_comm
    (graph : Graph) (request : CreateChannel) {first second : Endpoint}
    (different : first.node ≠ second.node) :
    graph.addChannel (request.between second first) =
      graph.addChannel (request.between first second) := by
  have sameChannel : (request.between second first).channel =
      (request.between first second).channel := by
    refine Channel.eq_of_bare rfl (KeySet.ext_contains fun endpoint => ?_)
    simp only [CreateChannel.channel, CreateChannel.between, KeySet.contains_ofList,
      List.mem_cons, or_left_comm]
  have sameBindings := graph.bind_bind_comm different.symm (some request.name) (some request.name)
  rw [addChannel, addChannel, sameChannel]
  simp only [CreateChannel.between, sameBindings]

/-- To create a channel between two pins asks the same of both, and makes the same of them. -/
theorem createChannel_between_comm
    {graph next : Graph} {request : CreateChannel} {first second : Endpoint}
    (granted : graph.createChannel (request.between first second) = .ok next) :
    graph.createChannel (request.between second first) = .ok next := by
  obtain ⟨firstPin, firstPresent, secondPin, secondPresent, firstFree, secondFree, named, free,
    different, firstTyped, secondTyped, directed, rfl⟩ := createChannel_eq_ok_iff.mp granted
  exact createChannel_eq_ok_iff.mpr ⟨secondPin, secondPresent, firstPin, firstPresent, secondFree,
    firstFree, named, free, different.symm, secondTyped, firstTyped, directed.symm,
    (graph.addChannel_between_comm request different).symm⟩

/-! ## Assembling in any way -/

/-- A channel does not show how it was assembled. When a channel of one name, type, capacity and
anonymity is assembled in two ways in a consistent graph, with all requests granted and the same
pins attached in total, the graphs are equal, whichever two pins founded the channel and in
whichever order the others followed. In any graph, a channel can be created between two pins
exactly when it can be created between them the other way round. -/
theorem applyInTurn_assembly_unique
    (registry : Registry) (request : CreateChannel) :
    (∀ {graph : Graph}, graph.problems = [] →
      ∀ {first second otherFirst otherSecond : Endpoint} {others moreOthers : List Endpoint}
        {next last : Graph},
      (∀ endpoint, endpoint ∈ first :: second :: others ↔
        endpoint ∈ otherFirst :: otherSecond :: moreOthers) →
      graph.applyInTurn registry ((request.between first second).assembly others) = .ok next →
      graph.applyInTurn registry ((request.between otherFirst otherSecond).assembly moreOthers) =
        .ok last →
      next = last) ∧
    ∀ (graph : Graph) (first second : Endpoint) (next : Graph),
      graph.apply registry (.createChannel (request.between second first)) = .ok next ↔
        graph.apply registry (.createChannel (request.between first second)) = .ok next := by
  constructor
  · intro graph unproblematic first second otherFirst otherSecond others moreOthers next last
      sameMembers granted otherGranted
    have mirrored := (problems_eq_nil_iff.mp unproblematic).toMirrored
    have joined : graph.Joins request.channel.bare (first :: second :: others) next :=
      Joins.assembly mirrored granted
    have otherJoined : graph.Joins request.channel.bare
        (otherFirst :: otherSecond :: moreOthers) last :=
      Joins.assembly mirrored otherGranted
    exact joined.unique otherJoined sameMembers
  · intro graph first second next
    exact ⟨createChannel_between_comm, createChannel_between_comm⟩

/-- The channel of two senders and a drain, founded by the one sender and by the other. -/
theorem applyInTurn_assembly_unique_fanIn :
    let apart := fanIn.removeChannel "shared"
    let request : CreateChannel :=
      ⟨"shared", "interface\x7b\x7d", 0, false, ⟨"left", "output0"⟩, ⟨"drain", "input"⟩⟩
    let byLeft := (request.between ⟨"left", "output0"⟩ ⟨"drain", "input"⟩).assembly
      [⟨"right", "output0"⟩]
    let byRight := (request.between ⟨"drain", "input"⟩ ⟨"right", "output0"⟩).assembly
      [⟨"left", "output0"⟩]
    apart.problems = [] ∧
      ∃ next last, apart.applyInTurn Registry.builtin byLeft = .ok next ∧
        apart.applyInTurn Registry.builtin byRight = .ok last ∧ next = last := by
  intro apart request byLeft byRight
  have granted : fanIn.apply Registry.builtin (.deleteChannel "shared") = .ok apart :=
    deleteChannel_eq_ok_iff.mpr ⟨by decide, rfl⟩
  have unproblematic : apart.problems = [] :=
    problems_eq_nil_iff.mpr (fanIn_built.of_apply granted).consistent
  have sameMembers : ∀ endpoint, endpoint ∈ [⟨"left", "output0"⟩, ⟨"drain", "input"⟩,
      ⟨"right", "output0"⟩] ↔ endpoint ∈ [⟨"drain", "input"⟩, ⟨"right", "output0"⟩,
      (⟨"left", "output0"⟩ : Endpoint)] := by
    intro endpoint
    simp only [List.mem_cons, List.not_mem_nil, or_false]
    tauto
  obtain ⟨next, isLeft⟩ : ∃ next, apart.applyInTurn Registry.builtin byLeft = .ok next :=
    exists_eq_ok_of_isOk (by decide)
  obtain ⟨last, isRight⟩ : ∃ last, apart.applyInTurn Registry.builtin byRight = .ok last :=
    exists_eq_ok_of_isOk (by decide)
  have same := (applyInTurn_assembly_unique Registry.builtin request).1 unproblematic sameMembers
    isLeft isRight
  exact ⟨unproblematic, next, last, isLeft, isRight, same⟩

end Graph

end Pipework
