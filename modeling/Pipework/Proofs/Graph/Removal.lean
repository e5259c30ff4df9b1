import Mathlib.Data.List.Induction
import Pipework.Proofs.Graph.Run

/-!
# What removals leave

To disconnect a pin, to delete a node and to delete a channel only takes away, and each may take
channels with it. `Graph.Leaves` describes what is left of a graph by what was asked to go: a
channel that had ends survives when an input and an output are still among them. The description
does not mention an order, and every request for a removal extends it (`Graph.Leaves.step`), so
removals can be made in any order (`Graph.run_removals_perm`).
-/

namespace Pipework

/-! ## Removals -/

/-- A request that only takes away. -/
inductive Removal where
  | disconnectPin (endpoint : Endpoint)
  | deleteNode (node : String)
  | deleteChannel (channel : String)
  deriving DecidableEq, Repr

def Removal.request : Removal → Request
  | disconnectPin endpoint => .disconnectPin endpoint
  | deleteNode node => .deleteNode node
  | deleteChannel channel => .deleteChannel channel

/-- What is asked to go from a graph: endpoints, which are to be unbound, nodes, and channels. -/
structure Losses where
  endpoint : Endpoint → Prop
  node : String → Prop
  channel : String → Prop

namespace Losses

def none : Losses := ⟨fun _ => False, fun _ => False, fun _ => False⟩

/-- What a list of removals asks for. The endpoints of a deleted node go with it. -/
def ofList (removals : List Removal) : Losses where
  endpoint endpoint :=
    .disconnectPin endpoint ∈ removals ∨ .deleteNode endpoint.node ∈ removals
  node name := .deleteNode name ∈ removals
  channel name := .deleteChannel name ∈ removals

/-- What is asked for with one more removal. -/
def add (losses : Losses) : Removal → Losses
  | .disconnectPin endpoint =>
      { losses with endpoint := fun other => losses.endpoint other ∨ other = endpoint }
  | .deleteNode name =>
      { losses with
        endpoint := fun other => losses.endpoint other ∨ other.node = name
        node := fun other => losses.node other ∨ other = name }
  | .deleteChannel name =>
      { losses with channel := fun other => losses.channel other ∨ other = name }

theorem ext_iff_each
    {left right : Losses}
    (endpoints : ∀ endpoint, left.endpoint endpoint ↔ right.endpoint endpoint)
    (nodes : ∀ name, left.node name ↔ right.node name)
    (channels : ∀ name, left.channel name ↔ right.channel name) :
    left = right := by
  obtain ⟨leftEndpoint, leftNode, leftChannel⟩ := left
  obtain ⟨rightEndpoint, rightNode, rightChannel⟩ := right
  have sameEndpoint : leftEndpoint = rightEndpoint :=
    funext fun endpoint => propext (endpoints endpoint)
  have sameNode : leftNode = rightNode := funext fun name => propext (nodes name)
  have sameChannel : leftChannel = rightChannel := funext fun name => propext (channels name)
  rw [sameEndpoint, sameNode, sameChannel]

theorem ofList_nil :
    ofList [] = none := by
  apply ext_iff_each <;> simp [ofList, none]

theorem ofList_concat
    (removals : List Removal) (removal : Removal) :
    ofList (removals ++ [removal]) = (ofList removals).add removal := by
  cases removal with
  | disconnectPin endpoint =>
      apply ext_iff_each <;> simp [ofList, add, or_right_comm]
  | deleteNode name =>
      apply ext_iff_each <;> simp [ofList, add, or_assoc]
  | deleteChannel name =>
      apply ext_iff_each <;> simp [ofList, add]

/-- What is asked for hangs on which removals there are and not on their order. -/
theorem ofList_congr
    {first second : List Removal}
    (sameMembers : ∀ removal, removal ∈ first ↔ removal ∈ second) :
    ofList first = ofList second := by
  apply ext_iff_each <;> simp [ofList, sameMembers]

end Losses

namespace Graph

/-! ## What is left -/

/-- Whether a channel keeps an end of a direction. -/
def KeepsEnd (before : Graph) (losses : Losses) (channel : String) (direction : Direction) :
    Prop :=
  ∃ endpoint pin, before.lists channel endpoint = true ∧ ¬ losses.endpoint endpoint ∧
    before.pin? endpoint = some pin ∧ pin.direction = direction

/-- Whether a channel is left: it is not itself to go, and if it has ends, then it keeps one of
each direction. -/
def Survives (before : Graph) (losses : Losses) (channel : String) : Prop :=
  ¬ losses.channel channel ∧
    ((∃ endpoint, before.lists channel endpoint = true) →
      ∀ direction, before.KeepsEnd losses channel direction)

/-- From one graph another is left, whose two sides agree, when something has gone. -/
structure Leaves (before : Graph) (losses : Losses) (after : Graph) : Prop
    extends Mirrored after where
  sameBare : after.bare = before.bare
  node_iff : ∀ (name : String) (node : Node),
    after.bareNode? name = some node ↔ before.bareNode? name = some node ∧ ¬ losses.node name
  channel_iff : ∀ (name : String) (channel : Channel),
    after.bareChannel? name = some channel ↔
      before.bareChannel? name = some channel ∧ before.Survives losses name
  lists_iff : ∀ (channel : String) (endpoint : Endpoint),
    after.lists channel endpoint = true ↔
      before.lists channel endpoint = true ∧ ¬ losses.endpoint endpoint ∧
        before.Survives losses channel

namespace Leaves

variable {before after : Graph} {losses : Losses}

/-- What is left is determined by what has gone. -/
theorem unique
    {first second : Graph}
    (leavesFirst : Leaves before losses first) (leavesSecond : Leaves before losses second) :
    first = second := by
  apply ext_views leavesFirst.toMirrored leavesSecond.toMirrored
  · rw [leavesFirst.sameBare, leavesSecond.sameBare]
  · intro name
    apply Option.ext
    intro node
    exact (leavesFirst.node_iff name node).trans (leavesSecond.node_iff name node).symm
  · intro name
    apply Option.ext
    intro channel
    exact (leavesFirst.channel_iff name channel).trans (leavesSecond.channel_iff name channel).symm
  · intro channel endpoint
    rw [Bool.eq_iff_iff, leavesFirst.lists_iff, leavesSecond.lists_iff]

theorem refl
    (consistent : before.Consistent) :
    Leaves before .none before := by
  have survives (channel : String) : before.Survives .none channel := by
    refine ⟨id, ?_⟩
    intro ended direction
    obtain ⟨endpoint, listed⟩ := ended
    obtain ⟨found, present, _⟩ := Graph.lists_iff.mp listed
    obtain ⟨place, placeListed, pin, pinPresent, isDirection⟩ :=
      hasEnd_of_isViable present (consistent.viable listed) direction
    exact ⟨place, pin, placeListed, id, pinPresent, isDirection⟩
  refine ⟨consistent.toMirrored, rfl, ?_, ?_, ?_⟩
  · intro name node
    simp [Losses.none]
  · intro name channel
    simp [survives name]
  · intro channel endpoint
    exact ⟨fun listed => ⟨listed, id, survives channel⟩, And.left⟩

theorem pin?_eq_of_lists
    (leaves : Leaves before losses after) {channel : String} {endpoint : Endpoint}
    (listed : after.lists channel endpoint = true) :
    after.pin? endpoint = before.pin? endpoint := by
  have present := bareNode?_isSome_of_pin? (leaves.pin?_isSome_of_lists listed)
  obtain ⟨node, nodePresent⟩ := Option.isSome_iff_exists.mp present
  have wasPresent := ((leaves.node_iff endpoint.node node).mp nodePresent).1
  rw [pin?_eq, pin?_eq, nodePresent, wasPresent]

theorem hasEnd_iff
    (leaves : Leaves before losses after) {channel : String} {direction : Direction} :
    after.HasEnd channel direction ↔
      before.Survives losses channel ∧ before.KeepsEnd losses channel direction := by
  constructor
  · intro hasEnd
    obtain ⟨endpoint, listed, pin, pinPresent, isDirection⟩ := hasEnd
    obtain ⟨wasListed, kept, survives⟩ := (leaves.lists_iff channel endpoint).mp listed
    rw [leaves.pin?_eq_of_lists listed] at pinPresent
    exact ⟨survives, endpoint, pin, wasListed, kept, pinPresent, isDirection⟩
  · intro both
    obtain ⟨survives, endpoint, pin, wasListed, kept, pinPresent, isDirection⟩ := both
    have listed := (leaves.lists_iff channel endpoint).mpr ⟨wasListed, kept, survives⟩
    refine ⟨endpoint, listed, pin, ?_, isDirection⟩
    rw [leaves.pin?_eq_of_lists listed]
    exact pinPresent

theorem consistent
    (leaves : Leaves before losses after) :
    after.Consistent := by
  refine ⟨leaves.toMirrored, ?_⟩
  intro channel endpoint listed
  rw [isViable_iff]
  intro _ direction
  obtain ⟨wasListed, _, survives⟩ := (leaves.lists_iff channel endpoint).mp listed
  exact leaves.hasEnd_iff.mpr ⟨survives, survives.2 ⟨endpoint, wasListed⟩ direction⟩

theorem survives_of_more
    (more : Losses) {losses : Losses} {channel : String}
    (endpoints : ∀ endpoint, losses.endpoint endpoint → more.endpoint endpoint)
    (channels : losses.channel channel → more.channel channel)
    (survives : before.Survives more channel) :
    before.Survives losses channel := by
  refine ⟨fun lost => survives.1 (channels lost), ?_⟩
  intro ended direction
  obtain ⟨endpoint, pin, listed, kept, hasDirection⟩ := survives.2 ended direction
  exact ⟨endpoint, pin, listed, fun lost => kept (endpoints endpoint lost), hasDirection⟩

theorem survives_more
    (leaves : Leaves before losses after) {more : Losses} {channel : String}
    (survives : before.Survives losses channel) (stays : ¬ more.channel channel)
    (free : ∀ endpoint, after.lists channel endpoint = true → ¬ more.endpoint endpoint) :
    before.Survives more channel := by
  refine ⟨stays, ?_⟩
  intro ended direction
  obtain ⟨endpoint, pin, listed, kept, hasDirection⟩ := survives.2 ended direction
  have stillListed : after.lists channel endpoint = true :=
    (leaves.lists_iff channel endpoint).mpr ⟨listed, kept, survives⟩
  exact ⟨endpoint, pin, listed, free endpoint stillListed, hasDirection⟩

/-- Endpoints that are no ends any more can be asked to go. -/
theorem widen
    (leaves : Leaves before losses after) {endpoint : Endpoint → Prop}
    (wider : ∀ other, losses.endpoint other → endpoint other)
    (free : ∀ channel other, after.lists channel other = true → ¬ endpoint other) :
    Leaves before { losses with endpoint } after := by
  have survives_iff (channel : String) :
      before.Survives { losses with endpoint } channel ↔ before.Survives losses channel := by
    constructor
    · intro survives
      exact survives_of_more { losses with endpoint } wider id survives
    · intro survives
      exact leaves.survives_more survives survives.1 (free channel)
  refine ⟨leaves.toMirrored, leaves.sameBare, leaves.node_iff, ?_, ?_⟩
  · intro name channel
    rw [leaves.channel_iff, survives_iff]
  · intro channel other
    rw [survives_iff]
    constructor
    · intro listed
      have wasListed := (leaves.lists_iff channel other).mp listed
      exact ⟨wasListed.1, free channel other listed, wasListed.2.2⟩
    · intro listed
      obtain ⟨wasListed, kept, survives⟩ := listed
      have notLost : ¬ losses.endpoint other := fun lost => kept (wider other lost)
      exact (leaves.lists_iff channel other).mpr ⟨wasListed, notLost, survives⟩

/-! ## Detached pins -/

/-- A channel that an end is taken off stays viable exactly when it survives without that end. -/
theorem isViable_loosen_iff
    (leaves : Leaves before losses after) {channel : String} {endpoint : Endpoint}
    (listed : after.lists channel endpoint = true) :
    (after.loosen endpoint channel).isViable channel = true ↔
      before.Survives (losses.add (.disconnectPin endpoint)) channel := by
  obtain ⟨wasListed, kept, survives⟩ := (leaves.lists_iff channel endpoint).mp listed
  obtain ⟨found, present, _⟩ := Graph.lists_iff.mp listed
  have isPresent : ((after.loosen endpoint channel).bareChannel? channel).isSome = true := by
    rw [bareChannel?_loosen, bareChannel?_eq_some present, Option.isSome_some]
  have looseListed (other : Endpoint) :
      (after.loosen endpoint channel).lists channel other = true ↔
        before.lists channel other = true ∧ ¬ (losses.endpoint other ∨ other = endpoint) := by
    rw [lists_loosen_iff, leaves.lists_iff]
    simp only [survives, and_true, true_and, not_or, and_assoc]
  have samePin {other : Endpoint}
      (otherListed : (after.loosen endpoint channel).lists channel other = true) :
      (after.loosen endpoint channel).pin? other = before.pin? other := by
    have stillListed := ((lists_loosen_iff after endpoint channel channel other).mp otherListed).1
    rw [pin?_eq, bareNode?_loosen, ← pin?_eq, leaves.pin?_eq_of_lists stillListed]
  rw [isViable_iff]
  constructor
  · intro viable
    refine ⟨survives.1, ?_⟩
    intro _ direction
    obtain ⟨other, otherListed, pin, pinPresent, isDirection⟩ := viable isPresent direction
    rw [samePin otherListed] at pinPresent
    obtain ⟨beforeListed, otherKept⟩ := (looseListed other).mp otherListed
    exact ⟨other, pin, beforeListed, otherKept, pinPresent, isDirection⟩
  · intro stillSurvives _ direction
    obtain ⟨other, pin, beforeListed, otherKept, pinPresent, isDirection⟩ :=
      stillSurvives.2 ⟨endpoint, wasListed⟩ direction
    have otherListed := (looseListed other).mpr ⟨beforeListed, otherKept⟩
    refine ⟨other, otherListed, pin, ?_, isDirection⟩
    rw [samePin otherListed]
    exact pinPresent

theorem survives_disconnected_iff
    (leaves : Leaves before losses after) {channel other : String} {endpoint : Endpoint}
    (listed : after.lists channel endpoint = true) (different : other ≠ channel) :
    before.Survives (losses.add (.disconnectPin endpoint)) other ↔
      before.Survives losses other := by
  constructor
  · intro survives
    exact survives_of_more (losses.add (.disconnectPin endpoint)) (fun _ => Or.inl) id survives
  · intro survives
    refine leaves.survives_more survives survives.1 ?_
    intro place placeListed lost
    rcases lost with wasLost | atEndpoint
    · exact ((leaves.lists_iff other place).mp placeListed).2.1 wasLost
    · rw [atEndpoint] at placeListed
      exact different (leaves.lists_unique placeListed listed)

/-- An end can be detached, and its channel goes exactly when it does not survive that. -/
theorem detach
    (leaves : Leaves before losses after) {channel : String} {endpoint : Endpoint}
    (listed : after.lists channel endpoint = true) :
    Leaves before (losses.add (.disconnectPin endpoint)) (after.detach endpoint channel) := by
  have viable_iff := leaves.isViable_loosen_iff listed
  have survives := ((leaves.lists_iff channel endpoint).mp listed).2.2
  refine ⟨leaves.toMirrored.detach listed, ?_, ?_, ?_, ?_⟩
  · rw [bare_detach]
    exact leaves.sameBare
  · intro name node
    rw [bareNode?_detach]
    exact leaves.node_iff name node
  · intro name found
    rw [bareChannel?_detach]
    by_cases same : name = channel
    · subst same
      rw [← viable_iff]
      cases (after.loosen endpoint name).isViable name with
      | false => simp
      | true => simp [leaves.channel_iff, survives]
    · rw [if_neg (fun both => same both.1), leaves.survives_disconnected_iff listed same]
      exact leaves.channel_iff name found
  · intro name place
    rw [lists_detach_iff, leaves.lists_iff]
    by_cases same : name = channel
    · subst same
      rw [← viable_iff]
      simp only [survives, Losses.add, true_and, and_true, not_true, ne_eq, or_false, not_or,
        and_assoc]
    · rw [leaves.survives_disconnected_iff listed same]
      have apart : before.lists name place = true ∧ ¬ losses.endpoint place ∧
          before.Survives losses name → place ≠ endpoint := by
        intro placeListed atEndpoint
        have stillListed := (leaves.lists_iff name place).mpr placeListed
        rw [atEndpoint] at stillListed
        exact same (leaves.lists_unique stillListed listed)
      simp only [same, Losses.add, false_and, not_false_eq_true, ne_eq, or_true, and_true, not_or]
      constructor
      · intro placeListed
        exact ⟨placeListed.1, ⟨placeListed.2.1, apart placeListed⟩, placeListed.2.2⟩
      · intro placeListed
        exact ⟨placeListed.1, placeListed.2.1.1, placeListed.2.2⟩

theorem foldl_detach
    (leaves : Leaves before losses after) (name : String) (bound : List (String × String))
    (pinsNodup : (bound.map Prod.fst).Nodup)
    (bindings : ∀ entry ∈ bound, after.binding? ⟨name, entry.1⟩ = some entry.2) :
    Leaves before
      { losses with
        endpoint := fun other =>
          losses.endpoint other ∨ other.node = name ∧ other.pin ∈ bound.map Prod.fst }
      (bound.foldl (fun current entry => current.detach ⟨name, entry.1⟩ entry.2) after) := by
  induction bound generalizing losses after with
  | nil =>
      have same : losses.endpoint = fun other => losses.endpoint other ∨
          other.node = name ∧ other.pin ∈ ([] : List (String × String)).map Prod.fst := by
        simp
      rw [← same]
      exact leaves
  | cons first rest inductionHypothesis =>
      obtain ⟨pin, channel⟩ := first
      obtain ⟨pinFresh, restNodup⟩ := List.nodup_cons.mp pinsNodup
      have listed : after.lists channel ⟨name, pin⟩ = true :=
        (leaves.bound_iff _ _).mp (bindings (pin, channel) List.mem_cons_self)
      have restBound : ∀ entry ∈ rest,
          (after.detach ⟨name, pin⟩ channel).binding? ⟨name, entry.1⟩ = some entry.2 := by
        exact leaves.binding?_detach_rest listed pinFresh
          (List.forall_mem_cons.mp bindings).2
      have loose := inductionHypothesis (leaves.detach listed) restNodup restBound
      have same : (fun other : Endpoint => losses.endpoint other ∨
            other.node = name ∧ other.pin ∈ ((pin, channel) :: rest).map Prod.fst) =
          fun other => (losses.add (.disconnectPin ⟨name, pin⟩)).endpoint other ∨
            other.node = name ∧ other.pin ∈ rest.map Prod.fst := by
        funext other
        obtain ⟨otherNode, otherPin⟩ := other
        simp only [Losses.add, Endpoint.mk.injEq, List.map_cons, List.mem_cons, or_assoc,
          and_or_left]
      rw [same]
      exact loose

/-! ## Nodes and channels that go -/

theorem dropNode
    (leaves : Leaves before losses after) {name : String}
    (unbound : ∀ pin, after.binding? ⟨name, pin⟩ = none) :
    Leaves before (losses.add (.deleteNode name)) (after.dropNode name) := by
  have free (channel : String) (other : Endpoint) (listed : after.lists channel other = true) :
      ¬ (losses.endpoint other ∨ other.node = name) := by
    intro lost
    rcases lost with wasLost | atNode
    · exact ((leaves.lists_iff channel other).mp listed).2.1 wasLost
    · exact leaves.node_ne_of_unbound unbound listed atNode
  have widened := leaves.widen (fun _ => Or.inl) free
  refine ⟨leaves.toMirrored.dropNode unbound, leaves.sameBare, ?_, widened.channel_iff,
    widened.lists_iff⟩
  intro other node
  rw [bareNode?, node?_dropNode]
  by_cases same : other = name
  · simp [same, Losses.add]
  · rw [if_neg same]
    show after.bareNode? other = some node ↔ _
    simp [leaves.node_iff, same, Losses.add]

theorem removeChannel
    (leaves : Leaves before losses after) (channel : String) :
    Leaves before (losses.add (.deleteChannel channel)) (after.removeChannel channel) := by
  have survives_iff (other : String) :
      before.Survives (losses.add (.deleteChannel channel)) other ↔
        other ≠ channel ∧ before.Survives losses other := by
    simp only [Survives, KeepsEnd, Losses.add, not_or, and_comm, and_assoc, ne_eq]
  refine ⟨leaves.toMirrored.removeChannel channel, ?_, ?_, ?_, ?_⟩
  · rw [bare_removeChannel]
    exact leaves.sameBare
  · intro name node
    rw [bareNode?_removeChannel]
    exact leaves.node_iff name node
  · intro name found
    rw [bareChannel?_removeChannel, survives_iff]
    by_cases same : name = channel
    · simp [same]
    · simp [same, leaves.channel_iff]
  · intro name endpoint
    rw [lists_removeChannel, Bool.and_eq_true, decide_eq_true_eq, survives_iff, leaves.lists_iff]
    simp only [Losses.add, and_left_comm]

end Leaves

/-! ## Requests for removals -/

section Steps

variable {registry : Registry} {graph : Graph}

theorem step_of_not_granted
    {request : Request}
    (refused : ∀ next, graph.apply registry request ≠ .ok next) :
    graph.step registry request = graph := by
  cases outcome : graph.apply registry request with
  | ok next => exact absurd outcome (refused next)
  | error error => exact step_of_refused outcome

/-- To delete a channel that is not there changes nothing, as the request for it is refused. -/
theorem step_deleteChannel
    (channel : String) :
    graph.step registry (.deleteChannel channel) = graph.removeChannel channel := by
  cases present : graph.channel? channel with
  | none =>
      have unchanged : graph.removeChannel channel = graph := by
        rw [Graph.removeChannel, present]
      rw [unchanged]
      apply step_of_not_granted
      intro next granted
      have isPresent := (deleteChannel_eq_ok_iff.mp granted).1
      rw [present] at isPresent
      exact Bool.noConfusion isPresent
  | some found =>
      apply step_of_granted
      exact deleteChannel_eq_ok_iff.mpr ⟨Option.isSome_of_eq_some present, rfl⟩

/-- To disconnect a pin that is not bound, or not there, changes nothing. -/
theorem step_disconnectPin_of_unbound
    {endpoint : Endpoint} (unbound : graph.binding? endpoint = none) :
    graph.step registry (.disconnectPin endpoint) = graph := by
  refine step_induction (motive := fun next => next = graph) rfl _ ?_
  intro next granted
  obtain ⟨_, rfl⟩ := disconnectPin_eq_ok_iff.mp granted
  rw [unbound]

theorem step_disconnectPin_of_bound
    (mirrored : graph.Mirrored) {endpoint : Endpoint} {channel : String}
    (bound : graph.binding? endpoint = some channel) :
    graph.step registry (.disconnectPin endpoint) = graph.detach endpoint channel := by
  have pinPresent : (graph.pin? endpoint).isSome = true :=
    mirrored.pin?_isSome_of_lists ((mirrored.bound_iff endpoint channel).mp bound)
  apply step_of_granted
  refine disconnectPin_eq_ok_iff.mpr ⟨pinPresent, ?_⟩
  rw [bound]

theorem step_deleteNode_of_missing
    {name : String} (missing : graph.node? name = none) :
    graph.step registry (.deleteNode name) = graph := by
  apply step_of_not_granted
  intro next granted
  obtain ⟨node, present, _⟩ := deleteNode_eq_ok_iff.mp granted
  rw [missing] at present
  simp at present

theorem dropNode_of_missing
    {name : String} (missing : graph.node? name = none) :
    graph.dropNode name = graph := by
  have sameNodes : graph.nodes.erase name = graph.nodes := by
    apply Table.ext_get?
    intro other
    rw [Table.get?_erase]
    split
    · rename_i same
      rw [same]
      exact missing.symm
    · rfl
  rw [dropNode, sameNodes]

end Steps

namespace Leaves

variable {before after : Graph} {losses : Losses}

/-- A request for a removal, granted or refused, leaves what it asks to leave. -/
theorem step
    (leaves : Leaves before losses after) (registry : Registry) (removal : Removal) :
    Leaves before (losses.add removal) (after.step registry removal.request) := by
  cases removal with
  | disconnectPin endpoint =>
      cases bound : after.binding? endpoint with
      | none =>
          rw [Removal.request, step_disconnectPin_of_unbound bound]
          refine leaves.widen (fun _ => Or.inl) ?_
          intro channel other listed lost
          rcases lost with wasLost | atEndpoint
          · exact ((leaves.lists_iff channel other).mp listed).2.1 wasLost
          · rw [atEndpoint, leaves.lists_eq_false_of_unbound bound channel] at listed
            exact Bool.noConfusion listed
      | some channel =>
          rw [Removal.request, step_disconnectPin_of_bound leaves.toMirrored bound]
          exact leaves.detach ((leaves.bound_iff endpoint channel).mp bound)
  | deleteChannel channel =>
      rw [Removal.request, step_deleteChannel]
      exact leaves.removeChannel channel
  | deleteNode name =>
      cases present : after.node? name with
      | none =>
          rw [Removal.request, step_deleteNode_of_missing present,
            ← dropNode_of_missing present]
          apply leaves.dropNode
          intro pin
          rw [binding?, present, Option.bind_none]
      | some node =>
          have detached := leaves.foldl_detach name node.boundPins node.boundPins_pins_nodup
            (binding?_of_mem_boundPins present)
          have unbound := (leaves.toMirrored.detach_boundPins present).2
          have granted : after.apply registry (.deleteNode name) = .ok _ :=
            deleteNode_eq_ok_iff.mpr ⟨node, present, rfl⟩
          rw [Removal.request, step_of_granted granted]
          -- The endpoints of the node were detached before, and go with it once more.
          have same : losses.add (.deleteNode name) =
              Losses.add
                { losses with
                  endpoint := fun other => losses.endpoint other ∨
                    other.node = name ∧ other.pin ∈ node.boundPins.map Prod.fst }
                (.deleteNode name) := by
            refine Losses.ext_iff_each ?_ (fun _ => Iff.rfl) (fun _ => Iff.rfl)
            intro other
            have absorbed : other.node = name ∧ other.pin ∈ node.boundPins.map Prod.fst →
                other.node = name := And.left
            simp only [Losses.add, or_assoc, or_iff_right_of_imp absorbed]
          rw [same]
          exact detached.dropNode unbound

/-- Removals of several names, each of which can be made when its turn comes. -/
theorem foldlM
    {earlier : List Removal} (leaves : Leaves before (.ofList earlier) after)
    {remove : Graph → String → Except Error Graph} (removal : String → Removal)
    (isRequest : ∀ current name,
      remove current name = current.apply Registry.builtin (removal name).request)
    {names : List String} (nodup : names.Nodup)
    (possible : ∀ (done : List String) (name : String) (current : Graph), name ∈ names →
      name ∉ done →
      Leaves before (.ofList (earlier ++ done.map removal)) current →
        ∃ next, remove current name = .ok next) :
    ∃ last, names.foldlM remove after = .ok last ∧
      Leaves before (.ofList (earlier ++ names.map removal)) last := by
  induction names using List.reverseRecOn with
  | nil =>
      refine ⟨after, rfl, ?_⟩
      rw [List.map_nil, List.append_nil]
      exact leaves
  | append_singleton done name inductionHypothesis =>
      obtain ⟨doneNodup, _, apart⟩ := List.nodup_append.mp nodup
      have fresh : name ∉ done := fun member => apart name member name (by simp) rfl
      obtain ⟨current, currentMade, currentLeaves⟩ := inductionHypothesis doneNodup
        fun earlierDone other next member =>
          possible earlierDone other next (List.mem_append_left _ member)
      obtain ⟨last, lastMade⟩ := possible done name current (by simp) fresh currentLeaves
      have granted : current.apply Registry.builtin (removal name).request = .ok last := by
        rw [← isRequest]
        exact lastMade
      refine ⟨last, ?_, ?_⟩
      · rw [List.foldlM_append, currentMade]
        show [name].foldlM remove current = .ok last
        rw [List.foldlM_cons, lastMade]
        rfl
      · have stepped := currentLeaves.step Registry.builtin (removal name)
        rw [step_of_granted granted, ← Losses.ofList_concat] at stepped
        rw [List.map_append, List.map_cons, List.map_nil, ← List.append_assoc]
        exact stepped

end Leaves

/-! ## Lists of removals -/

/-- What is left after removals in turn hangs only on what they ask for. -/
theorem leaves_run
    (registry : Registry) {graph : Graph} (consistent : graph.Consistent)
    (removals : List Removal) :
    Leaves graph (.ofList removals) (graph.run registry (removals.map Removal.request)) := by
  -- The induction is on the removals that were made, from the first to the last of them.
  induction removals using List.reverseRecOn with
  | nil =>
      rw [Losses.ofList_nil]
      exact Leaves.refl consistent
  | append_singleton done removal inductionHypothesis =>
      rw [Losses.ofList_concat, List.map_append, List.map_cons, List.map_nil, run_concat]
      exact inductionHypothesis.step registry removal

theorem run_removals_congr
    (registry : Registry) {graph : Graph} (consistent : graph.Consistent)
    {first second : List Removal}
    (sameMembers : ∀ removal, removal ∈ first ↔ removal ∈ second) :
    graph.run registry (first.map Removal.request) =
      graph.run registry (second.map Removal.request) := by
  have leavesFirst := leaves_run registry consistent first
  have leavesSecond := leaves_run registry consistent second
  rw [← Losses.ofList_congr sameMembers] at leavesSecond
  exact leavesFirst.unique leavesSecond

/-- Removals can be made in any order: whichever of them are refused on the way, the same graph
is left in the end. -/
theorem run_removals_perm
    (registry : Registry) {graph : Graph} (unproblematic : graph.problems = [])
    {first second : List Removal} (reordered : first.Perm second) :
    graph.run registry (first.map Removal.request) =
      graph.run registry (second.map Removal.request) := by
  have consistent := problems_eq_nil_iff.mp unproblematic
  exact run_removals_congr registry consistent fun _ => reordered.mem_iff

/-- Two broadcasts that send to one sink through one channel. -/
def fanIn : Graph :=
  (empty "merge" "example.org/merge" false).run Registry.builtin
    [.createNode ⟨"left", "Broadcast", .null, true, true, 1, 0, 0⟩,
      .createNode ⟨"right", "Broadcast", .null, true, true, 1, 0, 0⟩,
      .createNode ⟨"drain", "Sink", .null, true, true, 1, 0, 0⟩,
      .createChannel ⟨"shared", "interface\x7b\x7d", 0, false, ⟨"left", "output0"⟩,
        ⟨"drain", "input"⟩⟩,
      .connectPin ⟨⟨"right", "output0"⟩, "shared"⟩]

theorem fanIn_built :
    Built Registry.builtin fanIn :=
  Built.run ..

/-- The channel goes with the second of its senders in the one order, so that it cannot be
deleted any more, and by itself in the other. -/
theorem run_removals_perm_fanIn :
    let first := [Removal.disconnectPin ⟨"left", "output0"⟩, .deleteNode "right",
      .deleteNode "right", .deleteChannel "shared"]
    let second := [Removal.deleteChannel "shared", .deleteNode "right",
      .disconnectPin ⟨"left", "output0"⟩, .deleteNode "right"]
    fanIn.lists "shared" ⟨"right", "output0"⟩ = true ∧ fanIn.problems = [] ∧
      first.Perm second ∧
      fanIn.run Registry.builtin (first.map Removal.request) =
        fanIn.run Registry.builtin (second.map Removal.request) := by
  intro first second
  have unproblematic := problems_eq_nil_iff.mpr fanIn_built.consistent
  have reordered : first.Perm second := by decide
  exact ⟨by decide, unproblematic, reordered,
    run_removals_perm Registry.builtin unproblematic reordered⟩

end Graph

end Pipework
