import Pipework.Proofs.Graph.Consistency
import Pipework.Proofs.Graph.Evolve

/-!
# Runs of requests

A run makes some requests in turn, of which some may be refused. What holds of a graph and is
kept by every granted request holds after every run (`Graph.run_induction`). From an empty graph
no run leads to a problem, and every channel of every graph on the way passes values
(`Graph.run_empty_sound`).
-/

namespace Pipework

namespace Graph

/-- The graph after some requests in turn. -/
def run (registry : Registry) (graph : Graph) (requests : List Request) : Graph :=
  requests.foldl (step registry) graph

theorem run_cons
    (registry : Registry) (graph : Graph) (request : Request) (rest : List Request) :
    graph.run registry (request :: rest) = (graph.step registry request).run registry rest := rfl

theorem run_concat
    (registry : Registry) (graph : Graph) (requests : List Request) (request : Request) :
    graph.run registry (requests ++ [request]) =
      (graph.run registry requests).step registry request := by
  rw [run, run, List.foldl_append, List.foldl_cons, List.foldl_nil]

theorem run_induction
    {motive : Graph → Prop} {registry : Registry} {graph : Graph}
    (start : motive graph)
    (kept : ∀ {current next : Graph} {request : Request}, motive current →
      current.apply registry request = .ok next → motive next)
    (requests : List Request) :
    motive (graph.run registry requests) := by
  induction requests generalizing graph with
  | nil => exact start
  | cons first rest inductionHypothesis =>
      have afterFirst : motive (graph.step registry first) :=
        step_induction start first fun granted => kept start granted
      exact inductionHypothesis afterFirst

/-! ## Graphs that requests build -/

/-- What holds of every graph that requests build from an empty one: the two sides agree, every
channel passes values, and names, multiplicities and parts are as they may be. -/
structure Built (registry : Registry) (graph : Graph) : Prop extends Mirrored graph where
  viable : ∀ channel, graph.isViable channel = true
  legal : Legal registry graph

/-- Where every channel passes values, none is without ends. -/
theorem not_spoils_of_viable
    {graph : Graph} (viable : ∀ channel, graph.isViable channel = true) (request : Request) :
    ¬ graph.Spoils request := by
  intro spoils
  cases spoils with
  | @connectPin request _ _ _ _ present _ endless =>
      obtain ⟨endpoint, listed, _⟩ :=
        hasEnd_of_isViable present (viable request.channel) .input
      rw [(isEmpty_eq_false_iff present).mpr ⟨endpoint, listed⟩] at endless
      exact Bool.noConfusion endless

theorem nameFault_eq_none_iff
    {name : String} :
    nameFault name = none ↔ Text.isBlank name = false ∧ name ≠ unboundWord := by
  rw [nameFault]
  cases Text.isBlank name with
  | true => simp
  | false => by_cases reserved : name = unboundWord <;> simp [reserved]

namespace Built

variable {registry : Registry} {graph : Graph}

theorem empty
    (registry : Registry) (name packagePath : String) (isCommand : Bool) :
    Built registry (Graph.empty name packagePath isCommand) where
  toMirrored := Mirrored.empty name packagePath isCommand
  viable _ := isViable_of_missing rfl
  legal := Legal.empty registry name packagePath isCommand

theorem of_apply
    (built : Built registry graph) {request : Request} {next : Graph}
    (granted : graph.apply registry request = .ok next) :
    Built registry next where
  toMirrored := built.toMirrored.of_apply granted
  viable channel :=
    (Evolves.of_apply built.toMirrored granted (not_spoils_of_viable built.viable request)).viable
      (built.viable channel)
  legal := built.legal.of_apply granted

theorem step
    (built : Built registry graph) (request : Request) :
    Built registry (graph.step registry request) :=
  step_induction built request fun granted => built.of_apply granted

theorem consistent
    (built : Built registry graph) :
    graph.Consistent where
  toMirrored := built.toMirrored
  viable _ := built.viable _

/-- A channel that is there has an end of each direction, and as many nodes as ends. -/
theorem channel_ends
    (built : Built registry graph) {name : String} {channel : Channel}
    (present : graph.channel? name = some channel) :
    2 ≤ channel.ends.size ∧ (channel.ends.toList.map Endpoint.node).Nodup ∧
      ∀ direction, ∃ endpoint ∈ channel.ends.toList, ∃ pin,
        graph.pin? endpoint = some pin ∧ pin.direction = direction := by
  have both := hasEnd_of_isViable present (built.viable name)
  have listed_iff (endpoint : Endpoint) :
      endpoint ∈ channel.ends.toList ↔ graph.lists name endpoint = true := by
    rw [lists_of_channel? present, KeySet.mem_toList_iff]
  refine ⟨two_le_size_of_hasEnd present both, ?_, ?_⟩
  · rw [List.nodup_map_iff_inj_on (keys_nodup_of_ends channel)]
    intro first inFirst second inSecond sameNode
    exact built.oneOnNode ((listed_iff first).mp inFirst) ((listed_iff second).mp inSecond)
      sameNode
  · intro direction
    obtain ⟨endpoint, listed, pin, pinPresent, isDirection⟩ := both direction
    exact ⟨endpoint, (listed_iff endpoint).mpr listed, pin, pinPresent, isDirection⟩

theorem channel_named
    (built : Built registry graph) {key : String} {channel : Channel}
    (present : graph.channel? key = some channel) :
    Text.isBlank channel.name = false ∧ channel.name ≠ "nil" := by
  rw [built.channelNamed present]
  exact nameFault_eq_none_iff.mp (built.legal.channel_named present)

theorem node_named
    (built : Built registry graph) {key : String} {node : Node}
    (present : graph.node? key = some node) :
    Text.isBlank node.name = false ∧ node.name ≠ "nil" ∧ 1 ≤ node.multiplicity := by
  have fits := built.legal.node (bareNode?_eq_some present)
  obtain ⟨notBlank, notReserved⟩ := nameFault_eq_none_iff.mp fits.named
  rw [built.nodeNamed present]
  exact ⟨notBlank, notReserved, one_le_iff_ne_zero.mpr fits.instances⟩

/-- All of this holds of what requests build from an empty graph. -/
theorem run
    (registry : Registry) (name packagePath : String) (isCommand : Bool)
    (requests : List Request) :
    Built registry ((Graph.empty name packagePath isCommand).run registry requests) :=
  run_induction (Built.empty registry name packagePath isCommand)
    (fun current granted => current.of_apply granted) requests

end Built

/-- Whatever is asked of an empty graph, and in which order, the check finds nothing; every
channel has two ends or more, on different nodes and of both directions; names are neither blank
nor the word for an unbound pin, and every node has an instance. A run may stop at any request,
so all of this holds after each step. -/
theorem run_empty_sound
    (registry : Registry) (name packagePath : String) (isCommand : Bool)
    (requests : List Request) :
    let graph := (Graph.empty name packagePath isCommand).run registry requests
    graph.problems = [] ∧
      (∀ {key : String} {channel : Channel}, graph.channel? key = some channel →
        2 ≤ channel.ends.size ∧ (channel.ends.toList.map Endpoint.node).Nodup ∧
          ∀ direction, ∃ endpoint ∈ channel.ends.toList, ∃ pin,
            graph.pin? endpoint = some pin ∧ pin.direction = direction) ∧
      (∀ {key : String} {channel : Channel}, graph.channel? key = some channel →
        Text.isBlank channel.name = false ∧ channel.name ≠ "nil") ∧
      ∀ {key : String} {node : Node}, graph.node? key = some node →
        Text.isBlank node.name = false ∧ node.name ≠ "nil" ∧ 1 ≤ node.multiplicity := by
  intro graph
  have built : Built registry graph :=
    run_induction (Built.empty registry name packagePath isCommand)
      (fun current granted => current.of_apply granted) requests
  exact ⟨problems_eq_nil_iff.mpr built.consistent, built.channel_ends, built.channel_named,
    built.node_named⟩

end Graph

end Pipework
