import Pipework.Proofs.Except
import Pipework.Proofs.Graph.Detach

/-!
# When a change is granted

For each change of a graph one statement says under which conditions it is granted and what the
changed graph then is. Later proofs go from these conditions and never through the checks.
-/

namespace Pipework

/-! ## Checks -/

theorem one_le_iff_ne_zero
    {count : UInt32} :
    1 ≤ count ↔ count ≠ 0 := by
  constructor
  · intro positive isZero
    rw [isZero] at positive
    exact absurd positive (by decide)
  · intro notZero
    have positive : 0 < count := UInt32.pos_iff_ne_zero.mpr notZero
    exact UInt32.lt_iff_toNat_lt.mp positive

namespace Graph

theorem requireNode_eq_ok_iff
    {graph : Graph} {name : String} {node : Node} :
    graph.requireNode name = .ok node ↔ graph.node? name = some node := by
  rw [requireNode]
  cases graph.node? name <;> simp

theorem requirePin_eq_ok_iff
    {graph : Graph} {endpoint : Endpoint} {pin : Pin} :
    graph.requirePin endpoint = .ok pin ↔ graph.pin? endpoint = some pin := by
  rw [requirePin, pin?, bind_eq_ok_iff, Option.bind_eq_some_iff]
  refine exists_congr fun node => ?_
  rw [requireNode_eq_ok_iff]
  refine and_congr_right fun _ => ?_
  cases node.part.pin? endpoint.pin <;> simp

theorem requireUnbound_eq_ok_iff
    {graph : Graph} {endpoint : Endpoint} {done : Unit} :
    graph.requireUnbound endpoint = .ok done ↔ graph.binding? endpoint = none := by
  rw [requireUnbound]
  cases graph.binding? endpoint <;> simp

theorem requireType_eq_ok_iff
    {endpoint : Endpoint} {pin : Pin} {channel type : String} {done : Unit} :
    requireType endpoint pin channel type = .ok done ↔ pin.type = type := by
  rw [requireType]
  split <;> simp [*]

theorem requireName_eq_ok_iff
    {name : String} {done : Unit} :
    requireName name = .ok done ↔ nameFault name = none := by
  rw [requireName]
  cases nameFault name <;> simp

theorem requireInstances_eq_ok_iff
    {multiplicity : UInt32} {done : Unit} :
    requireInstances multiplicity = .ok done ↔ multiplicity ≠ 0 := by
  rw [requireInstances]
  split <;> simp [*]

theorem requirePart_eq_ok_iff
    {registry : Registry} {key : String} {config : Json.Value} {part : Part} :
    requirePart registry key config = .ok part ↔ registry.construct key config = .ok part := by
  rw [requirePart]
  cases registry.construct key config <;> simp

/-! ## Nodes -/

variable {registry : Registry} {graph next : Graph}

theorem createNode_eq_ok_iff
    {request : CreateNode} :
    graph.createNode registry request = .ok next ↔
      nameFault request.name = none ∧ graph.node? request.name = none ∧
        request.multiplicity ≠ 0 ∧
        ∃ part, registry.construct request.partType request.part = .ok part ∧
          next = graph.putNode request.name (request.node part) := by
  simp only [createNode, bind_eq_ok_iff, ite_throw_eq_ok_iff, pure_eq_ok_iff,
    requireName_eq_ok_iff, requireInstances_eq_ok_iff, requirePart_eq_ok_iff,
    exists_const, Bool.not_eq_true, Table.contains_eq_false_iff]
  rfl

theorem setPosition_eq_ok_iff
    {request : SetPosition} :
    graph.setPosition request = .ok next ↔
      (graph.node? request.node).isSome = true ∧
        next = graph.place request := by
  simp only [setPosition, bind_eq_ok_iff, pure_eq_ok_iff, requireNode_eq_ok_iff,
    Option.isSome_iff_exists, exists_and_right]

theorem deleteNode_eq_ok_iff
    {name : String} :
    graph.deleteNode name = .ok next ↔
      ∃ node, graph.node? name = some node ∧
        next =
          (node.boundPins.foldl
            (fun current bound => current.detach ⟨name, bound.1⟩ bound.2) graph).dropNode
              name := by
  simp only [deleteNode, bind_eq_ok_iff, pure_eq_ok_iff, requireNode_eq_ok_iff]

theorem setNodeProperties_eq_ok_iff
    {request : SetNodeProperties} :
    graph.setNodeProperties registry request = .ok next ↔
      ∃ node, graph.node? request.node = some node ∧ nameFault request.name = none ∧
        (request.name = request.node ∨ graph.node? request.name = none) ∧
        request.multiplicity ≠ 0 ∧
        ∃ part, registry.construct request.partType request.part = .ok part ∧
          lostPins node part = [] ∧
          next = graph.replaceNode request (request.outcome node part) := by
  simp only [setNodeProperties, bind_eq_ok_iff, ite_throw_eq_ok_iff,
    requireNode_eq_ok_iff, requireName_eq_ok_iff, requireInstances_eq_ok_iff,
    requirePart_eq_ok_iff, exists_const]
  refine exists_congr fun node => and_congr_right fun _ => and_congr_right fun _ =>
    and_congr ?nameFree (and_congr_right fun _ => exists_congr fun part =>
      and_congr_right fun _ => ?pinsKept)
  case nameFree =>
    rw [Decidable.not_and_iff_not_or_not, Bool.not_eq_true, Table.contains_eq_false_iff,
      Decidable.not_not]
    rfl
  case pinsKept =>
    cases lostPins node part with
    | nil =>
        rw [pure_eq_ok_iff, eq_self, true_and]
    | cons lost rest => simp [throw, throwThe, MonadExceptOf.throw]

/-! ## Channels -/

theorem createChannel_eq_ok_iff
    {request : CreateChannel} :
    graph.createChannel request = .ok next ↔
      ∃ firstPin, graph.pin? request.first = some firstPin ∧
        ∃ secondPin, graph.pin? request.second = some secondPin ∧
        graph.binding? request.first = none ∧ graph.binding? request.second = none ∧
        nameFault request.name = none ∧ graph.channel? request.name = none ∧
        request.first.node ≠ request.second.node ∧
        firstPin.type = request.type ∧ secondPin.type = request.type ∧
        firstPin.direction ≠ secondPin.direction ∧
        next = graph.addChannel request := by
  simp only [createChannel, bind_eq_ok_iff, ite_throw_eq_ok_iff, pure_eq_ok_iff,
    requirePin_eq_ok_iff, requireUnbound_eq_ok_iff, requireName_eq_ok_iff,
    requireType_eq_ok_iff, exists_const, Bool.not_eq_true, Table.contains_eq_false_iff]
  rfl

theorem connectPin_eq_ok_iff
    {request : ConnectPin} :
    graph.connectPin request = .ok next ↔
      ∃ pin, graph.pin? request.endpoint = some pin ∧
        ∃ found, graph.channel? request.channel = some found ∧
        graph.binding? request.endpoint = none ∧
        (∀ other, found.ends.contains other = true → other.node ≠ request.endpoint.node) ∧
        pin.type = found.type ∧
        next = graph.attach request.endpoint request.channel := by
  simp only [connectPin, bind_eq_ok_iff, requirePin_eq_ok_iff]
  refine exists_congr fun pin => and_congr_right fun _ => ?_
  cases graph.channel? request.channel with
  | none => simp [throw, throwThe, MonadExceptOf.throw]
  | some found =>
      simp only [bind_eq_ok_iff, ite_throw_eq_ok_iff, pure_eq_ok_iff,
        requireUnbound_eq_ok_iff, requireType_eq_ok_iff, exists_const,
        Bool.not_eq_true, List.any_eq_false, decide_eq_true_eq, KeySet.mem_toList_iff,
        Option.some.injEq, exists_eq_left']

theorem disconnectPin_eq_ok_iff
    {endpoint : Endpoint} :
    graph.disconnectPin endpoint = .ok next ↔
      (graph.pin? endpoint).isSome = true ∧
        next =
          match graph.binding? endpoint with
          | none => graph
          | some channel => graph.detach endpoint channel := by
  simp only [disconnectPin, bind_eq_ok_iff, requirePin_eq_ok_iff, Option.isSome_iff_exists,
    exists_and_right]
  refine and_congr_right fun _ => ?_
  cases graph.binding? endpoint <;> exact pure_eq_ok_iff

theorem deleteChannel_eq_ok_iff
    {channel : String} :
    graph.deleteChannel channel = .ok next ↔
      (graph.channel? channel).isSome = true ∧ next = graph.removeChannel channel := by
  rw [deleteChannel]
  have same : graph.channels.contains channel = (graph.channel? channel).isSome := rfl
  rw [same]
  cases (graph.channel? channel).isSome <;> simp [eq_comm]

/-! ## What granted changes show -/

section Attach

variable (graph : Graph) (endpoint : Endpoint) (channel : String)

@[simp] theorem bareNode?_attach
    (name : String) :
    (graph.attach endpoint channel).bareNode? name = graph.bareNode? name := by
  rw [attach, bareNode?_changeEnds, bareNode?_bind]

@[simp] theorem pin?_attach
    (other : Endpoint) :
    (graph.attach endpoint channel).pin? other = graph.pin? other := by
  rw [attach, pin?_changeEnds, pin?_bind]

@[simp] theorem bareChannel?_attach
    (name : String) :
    (graph.attach endpoint channel).bareChannel? name = graph.bareChannel? name := by
  rw [attach, bareChannel?_changeEnds, bareChannel?_bind]

theorem binding?_attach
    {graph : Graph} {endpoint : Endpoint}
    (present : (graph.pin? endpoint).isSome = true) (channel : String) (other : Endpoint) :
    (graph.attach endpoint channel).binding? other =
      if other = endpoint then some channel else graph.binding? other := by
  rw [attach, binding?_changeEnds, binding?_bind_of_pin? _ _ _ _ present]

theorem lists_attach_iff
    {graph : Graph} {channel : String}
    (present : (graph.channel? channel).isSome = true) (endpoint : Endpoint)
    (name : String) (other : Endpoint) :
    (graph.attach endpoint channel).lists name other = true ↔
      (name = channel ∧ other = endpoint) ∨ graph.lists name other = true := by
  rw [attach, lists_changeEnds, lists_bind]
  by_cases same : name = channel
  · subst same
    obtain ⟨found, foundPresent⟩ := Option.isSome_iff_exists.mp present
    have boundPresent : (graph.bind endpoint (some name)).channel? name = some found :=
      foundPresent
    rw [if_pos rfl, boundPresent, lists_of_channel? foundPresent]
    simp
  · simp [same]

end Attach

section AddChannel

variable {graph : Graph} {request : CreateChannel}

@[simp] theorem bareNode?_addChannel
    (name : String) :
    (graph.addChannel request).bareNode? name = graph.bareNode? name := by
  rw [addChannel, bareNode?_putChannel, bareNode?_bind, bareNode?_bind]

@[simp] theorem pin?_addChannel
    (endpoint : Endpoint) :
    (graph.addChannel request).pin? endpoint = graph.pin? endpoint := by
  rw [pin?_eq, pin?_eq, bareNode?_addChannel]

theorem bareChannel?_addChannel
    (name : String) :
    (graph.addChannel request).bareChannel? name =
      if name = request.name then some request.channel.bare else graph.bareChannel? name := by
  rw [addChannel, bareChannel?_putChannel, bareChannel?_bind, bareChannel?_bind]

theorem binding?_addChannel
    (firstPresent : (graph.pin? request.first).isSome = true)
    (secondPresent : (graph.pin? request.second).isSome = true) (endpoint : Endpoint) :
    (graph.addChannel request).binding? endpoint =
      if endpoint = request.first ∨ endpoint = request.second then some request.name
      else graph.binding? endpoint := by
  rw [binding?_eq, addChannel, connection?_putChannel, ← binding?_eq,
    binding?_bind_of_pin? _ _ _ _ (by rw [pin?_bind]; exact secondPresent),
    binding?_bind_of_pin? _ _ _ _ firstPresent]
  by_cases atSecond : endpoint = request.second
  · simp [atSecond]
  · simp [atSecond]

theorem lists_addChannel_iff
    (name : String) (endpoint : Endpoint) :
    (graph.addChannel request).lists name endpoint = true ↔
      if name = request.name then endpoint = request.first ∨ endpoint = request.second
      else graph.lists name endpoint = true := by
  rw [addChannel, lists_putChannel, lists_bind, lists_bind, CreateChannel.channel]
  split
  · rw [KeySet.contains_ofList, decide_eq_true_eq]
    simp
  · rfl

end AddChannel

section Place

variable {graph : Graph} {request : SetPosition}

theorem node?_place
    (name : String) :
    (graph.place request).node? name =
      if name = request.node then
        (graph.node? request.node).map fun node => { node with x := request.x, y := request.y }
      else graph.node? name :=
  Table.get?_modify graph.nodes request.node name _

/-- A question about a node that does not ask where it is has the same answer elsewhere. -/
theorem node?_place_bind
    (graph : Graph) (request : SetPosition) {α : Type} (ask : Node → Option α)
    (placeless : ∀ node : Node, ask { node with x := request.x, y := request.y } = ask node)
    (name : String) :
    ((graph.place request).node? name).bind ask = (graph.node? name).bind ask := by
  rw [node?_place]
  split
  · rename_i same
    rw [same]
    cases graph.node? request.node with
    | none => rfl
    | some node => exact placeless node
  · rfl

@[simp] theorem pin?_place
    (endpoint : Endpoint) :
    (graph.place request).pin? endpoint = graph.pin? endpoint :=
  node?_place_bind graph request (fun node => node.part.pin? endpoint.pin) (fun _ => rfl)
    endpoint.node

@[simp] theorem connection?_place
    (endpoint : Endpoint) :
    (graph.place request).connection? endpoint = graph.connection? endpoint :=
  node?_place_bind graph request (fun node => node.connections.get? endpoint.pin)
    (fun _ => rfl) endpoint.node

@[simp] theorem binding?_place
    (endpoint : Endpoint) :
    (graph.place request).binding? endpoint = graph.binding? endpoint :=
  node?_place_bind graph request (fun node => node.binding? endpoint.pin) (fun _ => rfl)
    endpoint.node

@[simp] theorem bareChannel?_place
    (name : String) :
    (graph.place request).bareChannel? name = graph.bareChannel? name := rfl

@[simp] theorem lists_place
    (name : String) (endpoint : Endpoint) :
    (graph.place request).lists name endpoint = graph.lists name endpoint := rfl

end Place

end Graph

end Pipework
