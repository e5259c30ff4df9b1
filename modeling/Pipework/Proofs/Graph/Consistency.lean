import Mathlib.Data.List.Nodup
import Pipework.Proofs.Graph.Mirror

/-!
# What the check of a graph means

`Graph.problems` goes through nodes, pins, channels and ends and lists what it finds. Here each
of its parts is read as a condition on the views of the graph, and all of them together as
`Graph.Consistent`: the two sides agree, and every channel that has an end is viable.
-/

namespace Pipework

theorem problemIf_eq_nil_iff
    {condition : Bool} {problem : Problem} :
    problemIf condition problem = [] ↔ condition = false := by
  rw [problemIf]
  cases condition <;> simp

namespace Graph

/-- The two sides of a graph agree, and its channels have no end or pass values. -/
structure Consistent (graph : Graph) : Prop extends Mirrored graph where
  viable : ∀ {channel : String} {endpoint : Endpoint},
    graph.lists channel endpoint = true → graph.isViable channel = true

/-! ## Nodes -/

section Nodes

variable {graph : Graph} {node : Node} {key : String}

theorem bindingProblems_eq_nil_iff
    {pin channel : String} :
    graph.bindingProblems node pin channel = [] ↔
      graph.lists channel ⟨node.name, pin⟩ = true := by
  rw [bindingProblems, lists]
  cases graph.channel? channel with
  | none => simp
  | some found =>
      simp only [problemIf_eq_nil_iff, Bool.not_eq_false', Option.any_some]

theorem pinNames_eq_keys_iff :
    (KeySet.ofList (node.part.pins.map Pin.name)).toList = node.connections.keys ↔
      ∀ pin, node.connections.contains pin = true ↔ pin ∈ node.part.pins.map Pin.name := by
  rw [KeySet.toList, Table.keys_eq_iff]
  refine forall_congr' fun pin => ?_
  rw [KeySet.contains_ofList, Bool.eq_iff_iff, decide_eq_true_eq]
  exact Iff.comm

theorem nodeProblems_eq_nil_iff :
    graph.nodeProblems key node = [] ↔
      key = node.name ∧
        (∀ pin, node.connections.contains pin = true ↔ pin ∈ node.part.pins.map Pin.name) ∧
        ∀ pin channel, node.binding? pin = some channel →
          graph.lists channel ⟨node.name, pin⟩ = true := by
  simp only [nodeProblems, List.append_eq_nil_iff, problemIf_eq_nil_iff,
    decide_eq_false_iff_not, Decidable.not_not, ne_eq, and_assoc]
  refine and_congr_right fun _ => and_congr pinNames_eq_keys_iff ?_
  rw [List.flatMap_eq_nil_iff]
  constructor
  · intro listed pin channel bound
    have unproblematic := listed (pin, channel) (Node.mem_boundPins_iff.mpr bound)
    exact bindingProblems_eq_nil_iff.mp unproblematic
  · intro listed entry member
    obtain ⟨pin, channel⟩ := entry
    exact bindingProblems_eq_nil_iff.mpr
      (listed pin channel (Node.mem_boundPins_iff.mp member))

end Nodes

/-! ## Channels -/

section Channels

variable {graph : Graph} {channel : Channel}

theorem endProblems_eq_nil_iff
    {endpoint : Endpoint} :
    graph.endProblems channel endpoint = [] ↔
      graph.binding? endpoint = some channel.name ∧
        ∃ pin, graph.pin? endpoint = some pin ∧ pin.type = channel.type := by
  rw [endProblems, binding?, pin?]
  cases graph.node? endpoint.node with
  | none => simp
  | some node =>
      rw [List.append_eq_nil_iff, problemIf_eq_nil_iff, decide_eq_false_iff_not, ne_eq,
        Decidable.not_not, Option.bind_some, Option.bind_some]
      refine and_congr_right fun _ => ?_
      cases node.part.pin? endpoint.pin with
      | none => simp
      | some pin => simp [problemIf_eq_nil_iff]

/-- The nodes of ends that are checked in turn are new each time exactly when none of them was
seen before and none stands twice. -/
theorem endsProblems_eq_nil_iff
    {seen : List String} {ends : List Endpoint} :
    graph.endsProblems channel seen ends = [] ↔
      (∀ endpoint ∈ ends, endpoint.node ∉ seen) ∧ (ends.map Endpoint.node).Nodup ∧
        ∀ endpoint ∈ ends, graph.endProblems channel endpoint = [] := by
  induction ends generalizing seen with
  | nil => simp [endsProblems]
  | cons first rest inductionHypothesis =>
      simp only [endsProblems, List.append_eq_nil_iff, problemIf_eq_nil_iff,
        decide_eq_false_iff_not, inductionHypothesis, List.forall_mem_cons, List.map_cons,
        List.nodup_cons]
      simp only [List.mem_cons, not_or]
      constructor
      · intro right
        obtain ⟨⟨firstNew, firstRight⟩, restNew, restNodup, restRight⟩ := right
        refine ⟨⟨firstNew, fun endpoint member => (restNew endpoint member).2⟩,
          ⟨?_, restNodup⟩, firstRight, restRight⟩
        intro inRest
        obtain ⟨endpoint, member, sameNode⟩ := List.mem_map.mp inRest
        exact (restNew endpoint member).1 sameNode
      · intro right
        obtain ⟨⟨firstNew, restNew⟩, ⟨firstAlone, restNodup⟩, firstRight, restRight⟩ := right
        refine ⟨⟨firstNew, firstRight⟩, ?_, restNodup, restRight⟩
        intro endpoint member
        refine ⟨?_, restNew endpoint member⟩
        intro sameNode
        exact firstAlone (List.mem_map.mpr ⟨endpoint, member, sameNode⟩)

theorem keys_nodup_of_ends
    (channel : Channel) :
    channel.ends.toList.Nodup :=
  Table.keys_nodup channel.ends

/-- What the check asks of a channel that is stored under a key. -/
theorem channelProblems_eq_nil_iff
    {key : String} (present : graph.channel? key = some channel) :
    graph.channelProblems key channel = [] ↔
      key = channel.name ∧
        ∀ first, graph.lists key first = true →
          graph.isViable key = true ∧
            (∀ second, graph.lists key second = true → first.node = second.node →
              first = second) ∧
            graph.binding? first = some channel.name ∧
            ∃ pin, graph.pin? first = some pin ∧ pin.type = channel.type := by
  have listed_iff (endpoint : Endpoint) :
      graph.lists key endpoint = true ↔ endpoint ∈ channel.ends.toList := by
    rw [lists_of_channel? present, KeySet.mem_toList_iff]
  have viable_iff :
      graph.isViable key = true ↔
        2 ≤ channel.ends.toList.length ∧ graph.isTwoWay channel.ends.toList = true := by
    rw [isViable, present, Bool.and_eq_true, decide_eq_true_eq, KeySet.toList, Table.keys,
      List.length_map]
    rfl
  simp only [channelProblems, listed_iff, viable_iff, List.append_eq_nil_iff,
    problemIf_eq_nil_iff, decide_eq_false_iff_not, ne_eq, Decidable.not_not]
  refine and_congr_right fun _ => ?_
  -- Without ends nothing is asked; with an end the whole list is checked, so any end stands for it.
  cases ends : channel.ends.toList with
  | nil => simp
  | cons head rest =>
      have nodup := keys_nodup_of_ends channel
      rw [ends] at nodup
      simp only [List.isEmpty_cons, Bool.false_eq_true, if_false, List.append_eq_nil_iff,
        problemIf_eq_nil_iff, decide_eq_false_iff_not, Nat.not_lt, Bool.not_eq_false',
        endsProblems_eq_nil_iff, endProblems_eq_nil_iff, List.not_mem_nil, not_false_eq_true,
        implies_true, true_and, List.nodup_map_iff_inj_on nodup]
      constructor
      · intro right first member
        obtain ⟨⟨several, apart, right⟩, twoWay⟩ := right
        exact ⟨⟨several, twoWay⟩, apart first member, right first member⟩
      · intro each
        obtain ⟨⟨several, twoWay⟩, _⟩ := each head List.mem_cons_self
        exact ⟨⟨several, fun first member => (each first member).2.1,
          fun first member => (each first member).2.2⟩, twoWay⟩

end Channels

/-! ## The whole graph -/

/-- A graph has no problem exactly when none of its nodes and none of its channels has one. -/
theorem problems_eq_nil_iff_each
    {graph : Graph} :
    graph.problems = [] ↔
      (∀ name node, graph.node? name = some node → graph.nodeProblems name node = []) ∧
        ∀ name channel, graph.channel? name = some channel →
          graph.channelProblems name channel = [] := by
  rw [problems, List.append_eq_nil_iff, List.flatMap_eq_nil_iff, List.flatMap_eq_nil_iff,
    Prod.forall, Prod.forall]
  simp only [Table.mem_entries_iff, node?, channel?]

theorem consistent_of_problems
    {graph : Graph} (unproblematic : graph.problems = []) :
    graph.Consistent := by
  obtain ⟨nodesRight, channelsRight⟩ := problems_eq_nil_iff_each.mp unproblematic
  have nodeRight {name : String} {node : Node} (present : graph.node? name = some node) :=
    nodeProblems_eq_nil_iff.mp (nodesRight name node present)
  have channelRight {name : String} {channel : Channel}
      (present : graph.channel? name = some channel) :=
    (channelProblems_eq_nil_iff present).mp (channelsRight name channel present)
  refine ⟨⟨?_, ?_, ?_, ?_, ?_, ?_⟩, ?_⟩
  · intro name node present
    exact (nodeRight present).1.symm
  · intro name channel present
    exact (channelRight present).1.symm
  · intro name node present
    exact (nodeRight present).2.1
  · intro endpoint channel
    constructor
    · intro bound
      rw [binding?, Option.bind_eq_some_iff] at bound
      obtain ⟨node, present, nodeBound⟩ := bound
      obtain ⟨named, _, listed⟩ := nodeRight present
      rw [← named] at listed
      exact listed endpoint.pin channel nodeBound
    · intro listed
      obtain ⟨found, present, _⟩ := lists_iff.mp listed
      obtain ⟨named, right⟩ := channelRight present
      rw [named]
      exact (right endpoint listed).2.2.1
  · intro channel first second inFirst inSecond
    obtain ⟨found, present, _⟩ := lists_iff.mp inFirst
    exact ((channelRight present).2 first inFirst).2.1 second inSecond
  · intro name channel endpoint present listed
    exact ((channelRight present).2 endpoint listed).2.2.2
  · intro name endpoint listed
    obtain ⟨found, present, _⟩ := lists_iff.mp listed
    exact ((channelRight present).2 endpoint listed).1

theorem Consistent.problems_eq_nil
    {graph : Graph} (consistent : graph.Consistent) :
    graph.problems = [] := by
  rw [problems_eq_nil_iff_each]
  constructor
  · intro name node present
    have named := consistent.nodeNamed present
    refine nodeProblems_eq_nil_iff.mpr ⟨named.symm, consistent.connected present, ?_⟩
    intro pin channel bound
    rw [← consistent.bound_iff, named, binding?, present, Option.bind_some]
    exact bound
  · intro name channel present
    have named := consistent.channelNamed present
    refine (channelProblems_eq_nil_iff present).mpr ⟨named.symm, ?_⟩
    intro endpoint listed
    refine ⟨consistent.viable listed, fun other => consistent.oneOnNode listed, ?_,
      consistent.sameType present listed⟩
    rw [named]
    exact (consistent.bound_iff endpoint name).mpr listed

/-- A graph has no problem exactly when it is consistent. -/
theorem problems_eq_nil_iff
    {graph : Graph} :
    graph.problems = [] ↔ graph.Consistent :=
  ⟨consistent_of_problems, Consistent.problems_eq_nil⟩

end Graph

end Pipework
