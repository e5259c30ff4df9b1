import Mathlib.Data.List.Forall2
import Pipework.Proofs.Graph.Joining
import Pipework.Proofs.Graph.Reload
import Pipework.Proofs.Graph.Removal

/-!
# Additions and what takes them back

To create a node, to create a channel and to attach a pin only adds. `Graph.Adds` says what was
added in the words in which `Graph.Leaves` says what has gone, so a consistent graph is what a
removal of just this leaves of the larger one (`Graph.Adds.leaves`). The main statement is that
every addition is taken back exactly by its inverse (`Graph.additions_undone`), and so are
additions in turn, the last first (`Graph.undo_in_turn`).
-/

namespace Pipework

/-! ## Additions -/

/-- A request that only adds. -/
inductive Addition where
  | createNode (request : CreateNode)
  | createChannel (request : CreateChannel)
  | connectPin (request : ConnectPin)

namespace Addition

def request : Addition → Request
  | createNode request => .createNode request
  | createChannel request => .createChannel request
  | connectPin request => .connectPin request

/-- The removals that take an addition back. A channel goes by itself or with either of the two
pins between which it was created. -/
def inverses : Addition → List Removal
  | createNode request => [.deleteNode request.name]
  | createChannel request =>
      [.deleteChannel request.name, .disconnectPin request.first, .disconnectPin request.second]
  | connectPin request => [.disconnectPin request.endpoint]

theorem mem_inverses_createChannel
    {request : CreateChannel} {inverse : Removal}
    (isInverse : inverse ∈ (createChannel request).inverses) :
    inverse = .deleteChannel request.name ∨ inverse = .disconnectPin request.first ∨
      inverse = .disconnectPin request.second := by
  simpa only [inverses, List.mem_cons, List.not_mem_nil, or_false] using isInverse

/-- What takes a channel back asks for no node, and for no other channel or pin. -/
theorem losses_of_createChannel
    {request : CreateChannel} {inverse : Removal}
    (isInverse : inverse ∈ (createChannel request).inverses) :
    (∀ name, ¬ (Losses.none.add inverse).node name) ∧
      (∀ name, (Losses.none.add inverse).channel name → name = request.name) ∧
      ∀ endpoint, (Losses.none.add inverse).endpoint endpoint →
        endpoint = request.first ∨ endpoint = request.second := by
  rcases mem_inverses_createChannel isInverse with rfl | rfl | rfl <;>
    simp [Losses.add, Losses.none]

end Addition

namespace Graph

/-! ## What an addition adds -/

/-- One graph is another with nodes, channels and ends added. Channels that were there already
had ends if they have any now, and a channel that is new does not outlast what was added. -/
structure Adds (before : Graph) (added : Losses) (after : Graph) : Prop where
  sameBare : after.bare = before.bare
  node_iff : ∀ (name : String) (node : Node),
    before.bareNode? name = some node ↔ after.bareNode? name = some node ∧ ¬ added.node name
  channel : ∀ {name : String}, (before.channel? name).isSome = true →
    after.bareChannel? name = before.bareChannel? name ∧ ¬ added.channel name
  fresh : ∀ {name : String}, before.channel? name = none → (after.channel? name).isSome = true →
    ¬ after.Survives added name
  lists_iff : ∀ {name : String}, (before.channel? name).isSome = true → ∀ endpoint,
    before.lists name endpoint = true ↔
      after.lists name endpoint = true ∧ ¬ added.endpoint endpoint
  ended : ∀ {name : String}, (before.channel? name).isSome = true →
    (∃ endpoint, after.lists name endpoint = true) → ∃ endpoint, before.lists name endpoint = true
  pin : ∀ {name : String} {endpoint : Endpoint}, before.lists name endpoint = true →
    after.pin? endpoint = before.pin? endpoint

namespace Adds

variable {registry : Registry} {before after : Graph} {added : Losses}

/-- A channel that was there before survives without what was added: it has the ends of both
directions that it had. -/
theorem survives
    (adds : Adds before added after) (consistent : before.Consistent) {name : String}
    (present : (before.channel? name).isSome = true) :
    after.Survives added name := by
  refine ⟨(adds.channel present).2, ?_⟩
  intro isEnded direction
  obtain ⟨_, wasListed⟩ := adds.ended present isEnded
  obtain ⟨channel, wasPresent, _⟩ := Graph.lists_iff.mp wasListed
  obtain ⟨endpoint, listed, pin, pinPresent, isDirection⟩ :=
    hasEnd_of_isViable wasPresent (consistent.viable wasListed) direction
  obtain ⟨stillListed, kept⟩ := (adds.lists_iff present endpoint).mp listed
  exact ⟨endpoint, pin, stillListed, kept, (adds.pin listed).trans pinPresent, isDirection⟩

/-- What is left without the additions is the graph before them. -/
theorem leaves
    (adds : Adds before added after) (consistent : before.Consistent) :
    Leaves after added before := by
  have present_of_survives {name : String} (isPresent : (after.channel? name).isSome = true)
      (survives : after.Survives added name) : (before.channel? name).isSome = true := by
    by_contra missing
    exact adds.fresh (Option.not_isSome_iff_eq_none.mp missing) isPresent survives
  refine ⟨consistent.toMirrored, adds.sameBare.symm, adds.node_iff, ?_, ?_⟩
  · intro name channel
    constructor
    · intro found
      have present : (before.channel? name).isSome = true := by
        rw [← bareChannel?_isSome, found, Option.isSome_some]
      exact ⟨(adds.channel present).1.trans found, adds.survives consistent present⟩
    · rintro ⟨found, survives⟩
      have isPresent : (after.channel? name).isSome = true := by
        rw [← bareChannel?_isSome, found, Option.isSome_some]
      exact (adds.channel (present_of_survives isPresent survives)).1.symm.trans found
  · intro name endpoint
    constructor
    · intro listed
      obtain ⟨_, found, _⟩ := Graph.lists_iff.mp listed
      have present := Option.isSome_of_eq_some found
      obtain ⟨stillListed, kept⟩ := (adds.lists_iff present endpoint).mp listed
      exact ⟨stillListed, kept, adds.survives consistent present⟩
    · rintro ⟨listed, kept, survives⟩
      obtain ⟨_, found, _⟩ := Graph.lists_iff.mp listed
      have present := present_of_survives (Option.isSome_of_eq_some found) survives
      exact (adds.lists_iff present endpoint).mpr ⟨listed, kept⟩

/-! ### The three additions -/

theorem createNode
    (mirrored : before.Mirrored) {request : CreateNode}
    (granted : before.createNode registry request = .ok after) :
    Adds before (Losses.none.add (.deleteNode request.name)) after := by
  obtain ⟨_, free, _, part, _, rfl⟩ := createNode_eq_ok_iff.mp granted
  have elsewhere {name : String} {endpoint : Endpoint}
      (listed : before.lists name endpoint = true) : endpoint.node ≠ request.name :=
    mirrored.node_ne_of_lists free listed
  refine ⟨rfl, ?_, fun _ => ⟨rfl, by simp [Losses.add, Losses.none]⟩, ?_, ?_, fun _ => id, ?_⟩
  · intro name node
    rw [bareNode?, bareNode?, node?_putNode]
    by_cases same : name = request.name <;> simp [Losses.add, Losses.none, same, free]
  · intro name missing present
    exact absurd (missing ▸ present : (none : Option Channel).isSome = true) Bool.false_ne_true
  · intro name _ endpoint
    rw [lists_putNode]
    refine ⟨fun listed => ⟨listed, ?_⟩, And.left⟩
    simpa [Losses.add, Losses.none] using elsewhere listed
  · intro name endpoint listed
    rw [pin?_putNode, if_neg (elsewhere listed)]

/-- A channel between two pins does not outlast either of them, as they are all its ends and have
different directions. -/
theorem not_survives_addChannel
    {request : CreateChannel} {inverse : Removal}
    (isInverse : inverse ∈ (Addition.createChannel request).inverses)
    (granted : before.createChannel request = .ok after) :
    ¬ after.Survives (Losses.none.add inverse) request.name := by
  obtain ⟨firstPin, firstPresent, secondPin, secondPresent, _, _, _, _, _, _, _, directed, rfl⟩ :=
    createChannel_eq_ok_iff.mp granted
  have listed_iff (endpoint : Endpoint) :
      (before.addChannel request).lists request.name endpoint = true ↔
        endpoint = request.first ∨ endpoint = request.second := by
    rw [lists_addChannel_iff, if_pos rfl]
  intro survives
  have keeps := survives.2 ⟨request.first, (listed_iff _).mpr (.inl rfl)⟩
  rcases Addition.mem_inverses_createChannel isInverse with rfl | rfl | rfl
  · exact survives.1 (.inr rfl)
  · obtain ⟨endpoint, pin, listed, kept, pinPresent, isDirection⟩ := keeps firstPin.direction
    rcases (listed_iff endpoint).mp listed with rfl | rfl
    · exact kept (.inr rfl)
    · rw [pin?_addChannel, secondPresent] at pinPresent
      exact directed ((Option.some.inj pinPresent ▸ isDirection).symm)
  · obtain ⟨endpoint, pin, listed, kept, pinPresent, isDirection⟩ := keeps secondPin.direction
    rcases (listed_iff endpoint).mp listed with rfl | rfl
    · rw [pin?_addChannel, firstPresent] at pinPresent
      exact directed (Option.some.inj pinPresent ▸ isDirection)
    · exact kept (.inr rfl)

theorem createChannel
    (mirrored : before.Mirrored) {request : CreateChannel} {inverse : Removal}
    (isInverse : inverse ∈ (Addition.createChannel request).inverses)
    (granted : before.createChannel request = .ok after) :
    Adds before (Losses.none.add inverse) after := by
  have goes := not_survives_addChannel isInverse granted
  obtain ⟨noNode, onlyChannel, onlyEnds⟩ := Addition.losses_of_createChannel isInverse
  obtain ⟨_, _, _, _, firstFree, secondFree, _, free, _, _, _, _, rfl⟩ :=
    createChannel_eq_ok_iff.mp granted
  have other_of_present {name : String} (present : (before.channel? name).isSome = true) :
      name ≠ request.name := by
    rintro rfl
    rw [free] at present
    exact Bool.noConfusion present
  -- The two pins were not bound, so they are ends of no channel that was there.
  have kept {name : String} {endpoint : Endpoint} (listed : before.lists name endpoint = true) :
      ¬ (Losses.none.add inverse).endpoint endpoint := by
    intro lost
    have bound := (mirrored.bound_iff endpoint name).mpr listed
    rcases onlyEnds endpoint lost with rfl | rfl
    · rw [firstFree] at bound
      simp at bound
    · rw [secondFree] at bound
      simp at bound
  have lists_iff {name : String} (different : name ≠ request.name) (endpoint : Endpoint) :
      (before.addChannel request).lists name endpoint = true ↔
        before.lists name endpoint = true := by
    rw [lists_addChannel_iff, if_neg different]
  refine ⟨rfl, ?_, ?_, ?_, ?_, ?_, fun _ => pin?_addChannel _⟩
  · intro name node
    rw [bareNode?_addChannel, and_iff_left (noNode name)]
  · intro name present
    have different := other_of_present present
    rw [bareChannel?_addChannel, if_neg different]
    exact ⟨rfl, fun lost => different (onlyChannel name lost)⟩
  · intro name missing present
    by_cases same : name = request.name
    · rw [same]
      exact goes
    · rw [← bareChannel?_isSome, bareChannel?_addChannel, if_neg same, bareChannel?_isSome,
        missing] at present
      exact Bool.noConfusion present
  · intro name present endpoint
    rw [lists_iff (other_of_present present)]
    exact ⟨fun listed => ⟨listed, kept listed⟩, And.left⟩
  · intro name present isEnded
    simpa only [lists_iff (other_of_present present)] using isEnded

theorem connectPin
    (mirrored : before.Mirrored) {request : ConnectPin}
    (ended : ∃ endpoint, before.lists request.channel endpoint = true)
    (granted : before.connectPin request = .ok after) :
    Adds before (Losses.none.add (.disconnectPin request.endpoint)) after := by
  obtain ⟨_, _, channel, channelPresent, unbound, _, _, rfl⟩ := connectPin_eq_ok_iff.mp granted
  have isPresent := Option.isSome_of_eq_some channelPresent
  refine ⟨rfl, ?_, ?_, ?_, ?_, ?_, fun _ => pin?_attach ..⟩
  · intro name node
    rw [bareNode?_attach, and_iff_left (by exact id)]
  · intro name _
    rw [bareChannel?_attach]
    exact ⟨rfl, id⟩
  · intro name missing present
    rw [← bareChannel?_isSome, bareChannel?_attach, bareChannel?_isSome, missing] at present
    exact Bool.noConfusion present
  · intro name _ endpoint
    rw [lists_attach_iff isPresent]
    by_cases same : endpoint = request.endpoint
    · have unlisted := mirrored.lists_eq_false_of_unbound unbound name
      simp [Losses.add, Losses.none, same, unlisted]
    · simp [Losses.add, Losses.none, same]
  · rintro name _ ⟨endpoint, listed⟩
    rcases (lists_attach_iff isPresent _ _ _).mp listed with ⟨rfl, _⟩ | wasListed
    · exact ended
    · exact ⟨endpoint, wasListed⟩

/-- What an addition that does not spoil the graph adds is what each of its inverses asks for. -/
theorem of_apply
    (consistent : before.Consistent) {addition : Addition} {inverse : Removal}
    (isInverse : inverse ∈ addition.inverses) (sound : ¬ before.Spoils addition.request)
    (granted : before.apply registry addition.request = .ok after) :
    Adds before (Losses.none.add inverse) after := by
  cases addition with
  | createNode request =>
      rw [List.mem_singleton.mp isInverse]
      exact createNode consistent.toMirrored granted
  | createChannel request => exact createChannel consistent.toMirrored isInverse granted
  | connectPin request =>
      rw [List.mem_singleton.mp isInverse]
      obtain ⟨pin, pinPresent, channel, present, unbound, _, sameType, _⟩ :=
        connectPin_eq_ok_iff.mp granted
      refine connectPin consistent.toMirrored ((isEmpty_eq_false_iff present).mp ?_) granted
      rw [Bool.eq_false_iff]
      exact fun endless => sound (.connectPin pinPresent unbound present sameType endless)

end Adds

/-! ## Taking one addition back -/

section Undo

variable {registry : Registry} {graph next : Graph}

/-- What takes an addition back is granted. -/
theorem exists_apply_inverse
    {addition : Addition} {inverse : Removal} (isInverse : inverse ∈ addition.inverses)
    (granted : graph.apply registry addition.request = .ok next) :
    ∃ last, next.apply registry inverse.request = .ok last := by
  have disconnects {endpoint : Endpoint} (present : (next.pin? endpoint).isSome = true) :
      ∃ last, next.apply registry (.disconnectPin endpoint) = .ok last :=
    ⟨_, disconnectPin_eq_ok_iff.mpr ⟨present, rfl⟩⟩
  cases addition with
  | createNode request =>
      obtain ⟨_, _, _, part, _, rfl⟩ := createNode_eq_ok_iff.mp granted
      rw [List.mem_singleton.mp isInverse]
      refine ⟨_, deleteNode_eq_ok_iff.mpr ⟨request.node part, ?_, rfl⟩⟩
      rw [node?_putNode, if_pos rfl]
  | createChannel request =>
      obtain ⟨_, firstPresent, _, secondPresent, _, _, _, _, _, _, _, _, rfl⟩ :=
        createChannel_eq_ok_iff.mp granted
      rcases Addition.mem_inverses_createChannel isInverse with rfl | rfl | rfl
      · refine ⟨_, deleteChannel_eq_ok_iff.mpr ⟨?_, rfl⟩⟩
        rw [← bareChannel?_isSome, bareChannel?_addChannel, if_pos rfl, Option.isSome_some]
      · refine disconnects ?_
        rw [pin?_addChannel, firstPresent, Option.isSome_some]
      · refine disconnects ?_
        rw [pin?_addChannel, secondPresent, Option.isSome_some]
  | connectPin request =>
      obtain ⟨_, pinPresent, _, _, _, _, _, rfl⟩ := connectPin_eq_ok_iff.mp granted
      rw [List.mem_singleton.mp isInverse]
      refine disconnects ?_
      rw [pin?_attach, pinPresent, Option.isSome_some]

theorem apply_inverse
    (consistent : graph.Consistent) {addition : Addition} {inverse : Removal}
    (isInverse : inverse ∈ addition.inverses) (sound : ¬ graph.Spoils addition.request)
    (granted : graph.apply registry addition.request = .ok next) :
    next.apply registry inverse.request = .ok graph := by
  obtain ⟨last, removed⟩ := exists_apply_inverse isInverse granted
  have left := (Leaves.refl (consistent.of_apply granted sound)).step registry inverse
  rw [step_of_granted removed] at left
  have adds := Adds.of_apply consistent isInverse sound granted
  rw [removed, left.unique (adds.leaves consistent)]

/-- A channel without ends does not outlast the first pin that is attached to it. -/
theorem not_isEmpty_of_undone
    {request : ConnectPin} {channel : Channel}
    (granted : graph.apply registry (.connectPin request) = .ok next)
    (present : graph.channel? request.channel = some channel)
    (undone : next.apply registry (.disconnectPin request.endpoint) = .ok graph) :
    channel.ends.isEmpty = false := by
  obtain ⟨_, pinPresent, _, _, _, _, _, rfl⟩ := connectPin_eq_ok_iff.mp granted
  obtain ⟨_, same⟩ := disconnectPin_eq_ok_iff.mp undone
  rw [binding?_attach (Option.isSome_of_eq_some pinPresent), if_pos rfl] at same
  -- Whatever detaching leaves under the name of the channel is viable, so it has an end.
  have viable : graph.isViable request.channel = true := by
    rw [same, isViable_detach, decide_eq_true rfl, Bool.true_or]
  obtain ⟨endpoint, listed, _⟩ := hasEnd_of_isViable present viable .input
  exact (isEmpty_eq_false_iff present).mpr ⟨endpoint, listed⟩

/-- An addition is taken back by its inverse, and nothing else changes. A node goes with its
deletion; a channel goes with its own deletion or with the disconnection of either of its two
pins; and a pin that was attached is disconnected again, where the channel had ends before, and
only there. -/
theorem additions_undone
    (registry : Registry) {graph : Graph} (unproblematic : graph.problems = []) :
    (∀ (request : CreateNode) (next : Graph),
      graph.apply registry (.createNode request) = .ok next →
        next.apply registry (.deleteNode request.name) = .ok graph) ∧
    (∀ (request : CreateChannel) (next : Graph),
      graph.apply registry (.createChannel request) = .ok next →
        next.apply registry (.deleteChannel request.name) = .ok graph ∧
          next.apply registry (.disconnectPin request.first) = .ok graph ∧
          next.apply registry (.disconnectPin request.second) = .ok graph) ∧
    ∀ (request : ConnectPin) (next : Graph) (channel : Channel),
      graph.apply registry (.connectPin request) = .ok next →
        graph.channel? request.channel = some channel →
          (next.apply registry (.disconnectPin request.endpoint) = .ok graph ↔
            channel.ends.isEmpty = false) := by
  have consistent := problems_eq_nil_iff.mp unproblematic
  refine ⟨?_, ?_, ?_⟩
  · intro request next granted
    have isInverse : Removal.deleteNode request.name ∈ (Addition.createNode request).inverses := by
      simp [Addition.inverses]
    exact apply_inverse consistent isInverse nofun granted
  · intro request next granted
    have undone (inverse : Removal)
        (isInverse : inverse ∈ (Addition.createChannel request).inverses) :
        next.apply registry inverse.request = .ok graph :=
      apply_inverse consistent isInverse nofun granted
    exact ⟨undone (.deleteChannel request.name) (by simp [Addition.inverses]),
      undone (.disconnectPin request.first) (by simp [Addition.inverses]),
      undone (.disconnectPin request.second) (by simp [Addition.inverses])⟩
  · intro request next channel granted present
    refine ⟨not_isEmpty_of_undone granted present, fun ended => ?_⟩
    have sound : ¬ graph.Spoils (.connectPin request) := by
      rintro ⟨_, _, found, _, endless⟩
      rw [present] at found
      rw [Option.some.inj found, endless] at ended
      exact Bool.noConfusion ended
    have isInverse : Removal.disconnectPin request.endpoint ∈
        (Addition.connectPin request).inverses := by
      simp [Addition.inverses]
    exact apply_inverse consistent isInverse sound granted

/-- Without its channel the fan-in has three nodes with no pin bound, and without one of its
senders a channel with two ends. A channel without ends, in contrast, goes when the pin that was
attached to it is disconnected. -/
theorem additions_undone_fanIn :
    let loose := fanIn.step Registry.builtin (.deleteChannel "shared")
    let paired := fanIn.step Registry.builtin (.disconnectPin ⟨"right", "output0"⟩)
    let node : CreateNode := ⟨"meter", "Filter", .object [("predicate", .string "v > 0")], true,
      false, 3, 0, 0⟩
    let channel : CreateChannel := ⟨"joined", "interface\x7b\x7d", 4, true,
      ⟨"drain", "input"⟩, ⟨"left", "output1"⟩⟩
    let pin : ConnectPin := ⟨⟨"right", "output1"⟩, "shared"⟩
    let stray : ConnectPin := ⟨⟨"drain", "input"⟩, "spare"⟩
    loose.problems = [] ∧ paired.problems = [] ∧ spareChannel.problems = [] ∧
      (∃ next, loose.apply Registry.builtin (.createNode node) = .ok next ∧
        next.apply Registry.builtin (.deleteNode "meter") = .ok loose) ∧
      (∃ next, loose.apply Registry.builtin (.createChannel channel) = .ok next ∧
        next.apply Registry.builtin (.deleteChannel "joined") = .ok loose ∧
        next.apply Registry.builtin (.disconnectPin ⟨"drain", "input"⟩) = .ok loose ∧
        next.apply Registry.builtin (.disconnectPin ⟨"left", "output1"⟩) = .ok loose) ∧
      (∃ next, paired.apply Registry.builtin (.connectPin pin) = .ok next ∧
        next.apply Registry.builtin (.disconnectPin ⟨"right", "output1"⟩) = .ok paired) ∧
      ∃ next, spareChannel.apply Registry.builtin (.connectPin stray) = .ok next ∧
        next.apply Registry.builtin (.disconnectPin ⟨"drain", "input"⟩) ≠ .ok spareChannel := by
  intro loose paired node channel pin stray
  have looseRight :=
    problems_eq_nil_iff.mpr (fanIn_built.step (.deleteChannel "shared")).consistent
  have pairedRight :=
    problems_eq_nil_iff.mpr (fanIn_built.step (.disconnectPin ⟨"right", "output0"⟩)).consistent
  have spareRight : spareChannel.problems = [] := by decide
  obtain ⟨ofNode, ofChannel, _⟩ := additions_undone Registry.builtin looseRight
  obtain ⟨_, _, ofPin⟩ := additions_undone Registry.builtin pairedRight
  obtain ⟨_, _, ofStray⟩ := additions_undone Registry.builtin spareRight
  obtain ⟨shared, isShared⟩ := Option.isSome_iff_exists.mp
    (by decide : (paired.channel? "shared").isSome = true)
  obtain ⟨withNode, nodeAdded⟩ :
      ∃ next, loose.apply Registry.builtin (.createNode node) = .ok next :=
    exists_eq_ok_of_isOk (by decide)
  obtain ⟨withChannel, channelAdded⟩ :
      ∃ next, loose.apply Registry.builtin (.createChannel channel) = .ok next :=
    exists_eq_ok_of_isOk (by decide)
  obtain ⟨withPin, pinAdded⟩ :
      ∃ next, paired.apply Registry.builtin (.connectPin pin) = .ok next :=
    exists_eq_ok_of_isOk (by decide)
  obtain ⟨withStray, strayAdded⟩ :
      ∃ next, spareChannel.apply Registry.builtin (.connectPin stray) = .ok next :=
    exists_eq_ok_of_isOk (by decide)
  have ended : shared.ends.isEmpty = false :=
    (isEmpty_eq_false_iff isShared).mpr ⟨⟨"drain", "input"⟩, by decide⟩
  refine ⟨looseRight, pairedRight, spareRight, ⟨withNode, nodeAdded, ofNode node _ nodeAdded⟩,
    ⟨withChannel, channelAdded, ofChannel channel _ channelAdded⟩,
    ⟨withPin, pinAdded, (ofPin pin _ _ pinAdded isShared).mpr ended⟩,
    withStray, strayAdded, fun undone => ?_⟩
  exact Bool.noConfusion ((ofStray stray _ _ strayAdded rfl).mp undone)

/-! ## Taking additions back in turn -/

/-- Additions in turn, all of them granted, are taken back by their inverses, the last first,
where no channel is without ends. -/
theorem undo_in_turn
    {additions : List Addition} {inverses : List Removal}
    (areInverses : List.Forall₂ (fun addition inverse => inverse ∈ addition.inverses)
      additions inverses)
    (mirrored : graph.Mirrored) (viable : ∀ channel, graph.isViable channel = true)
    (granted : graph.applyInTurn registry (additions.map Addition.request) = .ok next) :
    next.applyInTurn registry (inverses.reverse.map Removal.request) = .ok graph := by
  induction areInverses generalizing graph with
  | nil =>
      obtain rfl : graph = next := Except.ok.inj granted
      rfl
  | @cons addition inverse additions inverses isInverse _ inductionHypothesis =>
      rw [List.map_cons, applyInTurn, List.foldlM_cons, bind_eq_ok_iff] at granted
      obtain ⟨current, added, restGranted⟩ := granted
      have sound := not_spoils_of_viable viable addition.request
      have evolves := Evolves.of_apply mirrored added sound
      have back := inductionHypothesis (mirrored.of_apply added)
        (fun channel => evolves.viable (viable channel)) restGranted
      have undone : current.apply registry inverse.request = .ok graph :=
        apply_inverse ⟨mirrored, fun _ => viable _⟩ isInverse sound added
      rw [List.reverse_cons, List.map_append, applyInTurn_append_of_granted back, List.map_cons,
        applyInTurn_cons_of_granted undone]
      rfl

end Undo

end Graph

end Pipework
