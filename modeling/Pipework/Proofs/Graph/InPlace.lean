import Pipework.Graph.InPlace

/-!
# Changes in place

A change in place ends as the changed graph or the error of `Graph.apply` says, and after an error
the graph is what it was (`InPlace.apply_on`): a check that fails has nothing before it but other
checks, and what stands behind the checks cannot fail.
-/

namespace Pipework.InPlace

variable {α β : Type} {graph : Graph}

/-! ## Work step by step -/

theorem on_bind
    (work : InPlace α) (next : α → InPlace β) (graph : Graph) :
    (work >>= next).on graph =
      match work.on graph with
      | (.ok value, left) => (next value).on left
      | (.error error, left) => (.error error, left) := by
  have inTurn : (work >>= next).on graph =
      (ExceptT.bindCont next (work.on graph).1).run (work.on graph).2 := rfl
  rw [inTurn]
  rcases work.on graph with ⟨error | value, left⟩ <;> rfl

theorem on_get_bind
    (next : Graph → InPlace α) (graph : Graph) :
    (get >>= next).on graph = (next graph).on graph := rfl

theorem on_bind_of_done
    {work : InPlace Unit} {left : Graph} (done : work.on graph = (.ok (), left))
    (next : Unit → InPlace α) :
    (work >>= next).on graph = (next ()).on left := by
  rw [on_bind, done]

/-- Writes that cannot fail are made one after the other. -/
theorem on_forM
    {work : α → InPlace Unit} {change : Graph → α → Graph}
    (each : ∀ item graph, (work item).on graph = (.ok (), change graph item))
    (items : List α) (graph : Graph) :
    (items.forM work).on graph = (.ok (), items.foldl change graph) := by
  induction items generalizing graph with
  | nil => rfl
  | cons item rest inductionHypothesis =>
      rw [List.foldl_cons, ← inductionHypothesis (change graph item)]
      exact on_bind_of_done (each item graph) fun _ => rest.forM work

/-! ## Writes -/

theorem removeChannel_on
    (channel : String) (graph : Graph) :
    (removeChannel channel).on graph = (.ok (), graph.removeChannel channel) := by
  rw [removeChannel, on_get_bind, Graph.removeChannel]
  cases graph.channel? channel with
  | none => rfl
  | some found =>
      exact on_forM (fun endpoint current => rfl) found.ends.toList _

theorem detach_on
    (endpoint : Endpoint) (channel : String) (graph : Graph) :
    (detach endpoint channel).on graph = (.ok (), graph.detach endpoint channel) := by
  let loose := (graph.bind endpoint none).changeEnds channel fun ends => ends.erase endpoint
  have onLoose : (detach endpoint channel).on graph =
      (if loose.isViable channel then pure () else removeChannel channel : InPlace Unit).on
        loose := rfl
  rw [onLoose, Graph.detach]
  by_cases viable : loose.isViable channel = true
  · rw [if_pos viable, if_pos viable]
    rfl
  · rw [if_neg viable, if_neg viable]
    exact removeChannel_on channel loose

theorem renameEnds_on
    (bound : List (String × String)) (old new : String) (graph : Graph) :
    (renameEnds bound old new).on graph = (.ok (), graph.renameEnds bound old new) :=
  on_forM (fun _ _ => rfl) bound graph

/-- The ends of channels can be renamed before or after a node is dropped. -/
theorem renameEnds_dropNode
    (graph : Graph) (bound : List (String × String)) (old new name : String) :
    (graph.dropNode name).renameEnds bound old new =
      (graph.renameEnds bound old new).dropNode name :=
  List.foldl_hom (fun current : Graph => current.dropNode name) fun _ _ => rfl

theorem replaceNode_on
    (request : SetNodeProperties) (node : Node) (graph : Graph) :
    (replaceNode request node).on graph = (.ok (), graph.replaceNode request node) := by
  have onDropped : (replaceNode request node).on graph =
      (if request.name ≠ request.node then
          renameEnds node.boundPins request.node request.name >>= fun _ =>
            modify fun current => current.putNode request.name node
        else modify fun current => current.putNode request.name node : InPlace Unit).on
          (graph.dropNode request.node) := rfl
  rw [onDropped, Graph.replaceNode]
  by_cases renamed : request.name ≠ request.node
  · rw [if_pos renamed, if_pos renamed, on_bind_of_done (renameEnds_on _ _ _ _),
      renameEnds_dropNode]
    rfl
  · rw [if_neg renamed, if_neg renamed]
    rfl

/-! ## Checks before writes -/

/-- How a change ends that is granted or refused as a whole: with the changed graph, or with an
error and the graph as it was. -/
def settled (graph : Graph) : Except Error Graph → Except Error Unit × Graph
  | .ok changed => (.ok (), changed)
  | .error error => (.error error, graph)

section Checks

variable {work : α → InPlace Unit} {result : α → Except Error Graph}

theorem check_on
    {check : Except Error α}
    (passed : ∀ value, check = .ok value →
      (work value).on graph = settled graph (result value)) :
    (liftM check >>= work).on graph = settled graph (check >>= result) := by
  cases isChecked : check with
  | error error => rfl
  | ok value => exact passed value isChecked

/-- A check may look at the graph as it is by then. -/
theorem look_on
    {check : Graph → Except Error α} {work : Graph → α → InPlace Unit}
    (passed : ∀ value, check graph = .ok value →
      (work graph value).on graph = settled graph (result value)) :
    (get >>= fun current => liftM (check current) >>= work current).on graph =
      settled graph (check graph >>= result) :=
  check_on passed

theorem refuse_on
    {condition : Prop} [Decidable condition] {error : Error}
    {otherwise : InPlace Unit} {unrefused : Except Error Graph}
    (passed : ¬ condition → otherwise.on graph = settled graph unrefused) :
    (if condition then throw error >>= work else otherwise).on graph =
      settled graph (if condition then throw error >>= result else unrefused) := by
  by_cases refused : condition
  · rw [if_pos refused, if_pos refused]
    rfl
  · rw [if_neg refused, if_neg refused]
    exact passed refused

end Checks

/-! ## Changes -/

theorem createNode_on
    (registry : Registry) (request : CreateNode) (graph : Graph) :
    (createNode registry request).on graph =
      settled graph (graph.createNode registry request) := by
  refine check_on fun _ _ => ?_
  refine refuse_on fun _ => ?_
  refine check_on fun _ _ => ?_
  refine check_on fun _ _ => ?_
  rfl

theorem createChannel_on
    (request : CreateChannel) (graph : Graph) :
    (createChannel request).on graph = settled graph (graph.createChannel request) := by
  refine look_on fun firstPin _ => ?_
  refine look_on fun secondPin _ => ?_
  refine look_on fun _ _ => ?_
  refine look_on fun _ _ => ?_
  refine check_on fun _ _ => ?_
  refine refuse_on fun _ => ?_
  refine refuse_on fun _ => ?_
  refine check_on fun _ _ => ?_
  refine check_on fun _ _ => ?_
  refine refuse_on fun _ => ?_
  rfl

theorem connectPin_on
    (request : ConnectPin) (graph : Graph) :
    (connectPin request).on graph = settled graph (graph.connectPin request) := by
  refine look_on fun pin _ => ?_
  rw [on_get_bind]
  cases graph.channel? request.channel with
  | none => rfl
  | some channel =>
      refine look_on fun _ _ => ?_
      refine refuse_on fun _ => ?_
      refine check_on fun _ _ => ?_
      rfl

theorem disconnectPin_on
    (endpoint : Endpoint) (graph : Graph) :
    (disconnectPin endpoint).on graph = settled graph (graph.disconnectPin endpoint) := by
  refine look_on fun pin _ => ?_
  rw [on_get_bind]
  cases graph.binding? endpoint with
  | none => rfl
  | some channel => exact detach_on endpoint channel graph

theorem deleteChannel_on
    (channel : String) (graph : Graph) :
    (deleteChannel channel).on graph = settled graph (graph.deleteChannel channel) := by
  rw [deleteChannel, on_get_bind, Graph.deleteChannel]
  by_cases present : graph.channels.contains channel = true
  · rw [if_pos present, if_pos present]
    exact removeChannel_on channel graph
  · rw [if_neg present, if_neg present]
    rfl

theorem deleteNode_on
    (name : String) (graph : Graph) :
    (deleteNode name).on graph = settled graph (graph.deleteNode name) := by
  refine look_on fun node _ => ?_
  have detached := on_forM
    (fun (bound : String × String) current => detach_on ⟨name, bound.1⟩ bound.2 current)
    node.boundPins graph
  exact on_bind_of_done detached fun _ => modify fun current => current.dropNode name

theorem setNodeProperties_on
    (registry : Registry) (request : SetNodeProperties) (graph : Graph) :
    (setNodeProperties registry request).on graph =
      settled graph (graph.setNodeProperties registry request) := by
  refine look_on fun node present => ?_
  refine check_on fun _ _ => ?_
  refine refuse_on fun _ => ?_
  refine check_on fun _ _ => ?_
  refine check_on fun part _ => ?_
  cases Graph.lostPins node part with
  | cons lost rest => rfl
  | nil =>
      -- Nothing was written since the node was found, so it is found again.
      have again (next : Node → InPlace Unit) :
          (get >>= fun current => liftM (current.requireNode request.node) >>= next).on graph =
            (next node).on graph := by
        rw [on_get_bind, present]
        rfl
      exact (again _).trans (replaceNode_on request (request.outcome node part) graph)

theorem setPosition_on
    (request : SetPosition) (graph : Graph) :
    (setPosition request).on graph = settled graph (graph.setPosition request) := by
  refine look_on fun _ _ => ?_
  rfl

/-- A change in place ends with the graph that the request makes of it, or with an error and the
graph as it was. -/
theorem apply_on
    (registry : Registry) (request : Request) (graph : Graph) :
    (apply registry request).on graph = settled graph (graph.apply registry request) := by
  cases request with
  | createNode request => exact createNode_on registry request graph
  | createChannel request => exact createChannel_on request graph
  | connectPin request => exact connectPin_on request graph
  | disconnectPin endpoint => exact disconnectPin_on endpoint graph
  | deleteNode name => exact deleteNode_on name graph
  | deleteChannel channel => exact deleteChannel_on channel graph
  | setNodeProperties request => exact setNodeProperties_on registry request graph
  | setGraphProperties request => rfl
  | setPosition request => exact setPosition_on request graph
  | save => rfl

end Pipework.InPlace
