import Mathlib.Data.List.Nodup
import Pipework.Wiring
import Pipework.Proofs.Go.Ident
import Pipework.Proofs.Graph.Consistency

/-!
# What the pins of a program are given

A live channel gives its variable to its readers and to its only writer, or a private variable to
each of several writers. No pin is an end of two channels and none both reads and writes, so the
entries of `Graph.arguments` have different keys, and a look-up finds exactly what some live
channel gives (`Graph.get?_arguments_iff`).
-/

namespace Pipework

/-! ## Writers -/

theorem writerVariables_fst
    (channel : String) (writers : List Endpoint) :
    (writerVariables channel writers).map Prod.fst = writers := by
  rcases writers with _ | ⟨first, _ | ⟨second, rest⟩⟩
  · rfl
  · rfl
  · simp only [writerVariables, List.map_map]
    exact List.zipIdx_map_fst 0 (first :: second :: rest)

theorem writerVariables_snd_of_several
    (channel : String) {writers : List Endpoint} (several : 2 ≤ writers.length) :
    (writerVariables channel writers).map Prod.snd = privateVariables channel writers := by
  rcases writers with _ | ⟨first, _ | ⟨second, rest⟩⟩
  · simp at several
  · simp at several
  · have numbers : (first :: second :: rest).zipIdx.map Prod.snd =
        List.range (first :: second :: rest).length := by
      rw [List.zipIdx_map_snd, List.range_eq_range']
    simp only [writerVariables, privateVariables, ← numbers, List.map_map]
    rfl

theorem privateVariables_eq
    (channel : String) {writers : List Endpoint} (several : 2 ≤ writers.length) :
    privateVariables channel writers =
      (List.range writers.length).map fun writer => Go.channelVariable channel (some writer) := by
  rcases writers with _ | ⟨first, _ | ⟨second, rest⟩⟩
  · simp at several
  · simp at several
  · rfl

theorem privateVariables_of_few
    (channel : String) {writers : List Endpoint} (few : ¬ 2 ≤ writers.length) :
    privateVariables channel writers = [] := by
  rcases writers with _ | ⟨first, _ | ⟨second, rest⟩⟩
  · rfl
  · rfl
  · simp only [List.length_cons] at few
    omega

/-- There is one writer, which is given the variable of the channel, or there are several. -/
theorem one_or_several
    {writers : List Endpoint} (nonempty : writers ≠ []) :
    (∃ only, writers = [only]) ∨ 2 ≤ writers.length := by
  rcases writers with _ | ⟨first, _ | ⟨second, rest⟩⟩
  · exact absurd rfl nonempty
  · exact Or.inl ⟨first, rfl⟩
  · refine Or.inr ?_
    simp only [List.length_cons]
    omega

theorem writerVariables_snd
    (channel : String) {writers : List Endpoint} (nonempty : writers ≠ []) :
    (writerVariables channel writers).map Prod.snd =
      if privateVariables channel writers = [] then [Go.channelIdent channel]
      else privateVariables channel writers := by
  rcases one_or_several nonempty with ⟨only, rfl⟩ | several
  · rfl
  · have private_ne : privateVariables channel writers ≠ [] := by
      rw [privateVariables_eq channel several, ne_eq, List.map_eq_nil_iff, List.range_eq_nil]
      omega
    rw [if_neg private_ne, writerVariables_snd_of_several channel several]

theorem two_le_length_privateVariables
    {channel : String} {writers : List Endpoint}
    (private_ne : privateVariables channel writers ≠ []) :
    2 ≤ (privateVariables channel writers).length := by
  by_cases several : 2 ≤ writers.length
  · rw [privateVariables_eq channel several, List.length_map, List.length_range]
    exact several
  · exact absurd (privateVariables_of_few channel several) private_ne

theorem privateVariables_nodup
    (channel : String) (writers : List Endpoint) :
    (privateVariables channel writers).Nodup := by
  by_cases several : 2 ≤ writers.length
  · rw [privateVariables_eq channel several]
    refine List.nodup_range.map ?_
    intro first second same
    exact Option.some.inj (Go.channelVariable_injective same).2
  · rw [privateVariables_of_few channel several]
    exact List.nodup_nil

theorem mem_privateVariables
    {channel ident : String} {writers : List Endpoint}
    (member : ident ∈ privateVariables channel writers) :
    ∃ writer, ident = Go.channelVariable channel (some writer) := by
  by_cases several : 2 ≤ writers.length
  · rw [privateVariables_eq channel several] at member
    obtain ⟨writer, _, same⟩ := List.mem_map.mp member
    exact ⟨writer, same.symm⟩
  · rw [privateVariables_of_few channel several] at member
    exact absurd member List.not_mem_nil

theorem writerVariables_snd_nodup
    (channel : String) {writers : List Endpoint} (nonempty : writers ≠ []) :
    ((writerVariables channel writers).map Prod.snd).Nodup := by
  rw [writerVariables_snd channel nonempty]
  split
  · exact List.nodup_singleton _
  · exact privateVariables_nodup channel writers

namespace Graph

/-! ## Live channels -/

section Views

variable {graph : Graph} {name : String} {channel : Channel}

theorem mem_activeEnds_iff
    (present : graph.channel? name = some channel) {direction : Direction}
    {endpoint : Endpoint} :
    endpoint ∈ graph.activeEnds channel direction ↔
      ∃ pin, graph.lists name endpoint = true ∧ graph.isEnabled endpoint.node = true ∧
        graph.pin? endpoint = some pin ∧ pin.direction = direction := by
  rw [activeEnds, List.mem_filter, KeySet.mem_toList_iff, lists_of_channel? present,
    Bool.and_eq_true, Option.any_eq_true]
  simp only [decide_eq_true_eq, exists_and_left]

theorem isLive_iff_forall :
    graph.isLive channel = true ↔
      ∀ direction, ∃ endpoint, endpoint ∈ graph.activeEnds channel direction := by
  rw [isLive, Bool.and_eq_true, Bool.not_eq_true', Bool.not_eq_true', writers, readers,
    List.isEmpty_eq_false_iff_exists_mem, List.isEmpty_eq_false_iff_exists_mem]
  constructor
  · intro both direction
    cases direction with
    | input => exact both.2
    | output => exact both.1
  · intro both
    exact ⟨both .output, both .input⟩

theorem isLive_iff
    (present : graph.channel? name = some channel) :
    graph.isLive channel = true ↔
      ∀ direction, ∃ endpoint pin, graph.lists name endpoint = true ∧
        graph.isEnabled endpoint.node = true ∧ graph.pin? endpoint = some pin ∧
          pin.direction = direction := by
  rw [isLive_iff_forall]
  exact forall_congr' fun _ => exists_congr fun _ => mem_activeEnds_iff present

theorem activeEnds_ne_nil
    (live : graph.isLive channel = true) (direction : Direction) :
    graph.activeEnds channel direction ≠ [] := by
  obtain ⟨endpoint, member⟩ := isLive_iff_forall.mp live direction
  exact List.ne_nil_of_mem member

theorem writers_ne_nil
    (live : graph.isLive channel = true) :
    graph.writers channel ≠ [] :=
  activeEnds_ne_nil live .output

theorem readers_ne_nil
    (live : graph.isLive channel = true) :
    graph.readers channel ≠ [] :=
  activeEnds_ne_nil live .input

theorem activeEnds_nodup
    (direction : Direction) :
    (graph.activeEnds channel direction).Nodup :=
  (keys_nodup_of_ends channel).filter _

end Views

section Mirrored

variable {graph : Graph}

theorem mem_liveChannels_iff
    (mirrored : graph.Mirrored) {channel : Channel} :
    channel ∈ graph.liveChannels ↔
      graph.channel? channel.name = some channel ∧ graph.isLive channel = true := by
  rw [liveChannels, List.mem_filter, Table.mem_values_iff_get? mirrored.channelNamed]
  rfl

theorem liveChannels_names_nodup
    (mirrored : graph.Mirrored) :
    (graph.liveChannels.map Channel.name).Nodup :=
  (Table.nodup_map_values mirrored.channelNamed).sublist (List.filter_sublist.map Channel.name)

theorem liveChannel_eq_of_name
    (mirrored : graph.Mirrored) {left right : Channel}
    (leftLive : left ∈ graph.liveChannels) (rightLive : right ∈ graph.liveChannels)
    (sameName : left.name = right.name) :
    left = right :=
  List.inj_on_of_nodup_map (liveChannels_names_nodup mirrored) leftLive rightLive sameName

/-! ## Arguments -/

theorem channelArguments_fst
    (channel : Channel) :
    (graph.channelArguments channel).map Prod.fst =
      graph.readers channel ++ graph.writers channel := by
  rw [channelArguments, List.map_append, writerVariables_fst, List.map_map]
  congr 1
  exact List.map_id _

theorem active_of_mem
    (mirrored : graph.Mirrored) {channel : Channel} (live : channel ∈ graph.liveChannels)
    {direction : Direction} {endpoint : Endpoint}
    (member : endpoint ∈ graph.activeEnds channel direction) :
    ∃ pin, graph.lists channel.name endpoint = true ∧ graph.isEnabled endpoint.node = true ∧
      graph.pin? endpoint = some pin ∧ pin.direction = direction :=
  (mem_activeEnds_iff ((mem_liveChannels_iff mirrored).mp live).1).mp member

theorem arguments_fst_nodup
    (mirrored : graph.Mirrored) :
    ((graph.liveChannels.flatMap graph.channelArguments).map Prod.fst).Nodup := by
  rw [List.map_flatMap, List.nodup_flatMap]
  constructor
  · intro channel live
    rw [channelArguments_fst, List.nodup_append']
    refine ⟨activeEnds_nodup .input, activeEnds_nodup .output, ?_⟩
    intro endpoint reads writes
    obtain ⟨input, _, _, inputPresent, isInput⟩ := active_of_mem mirrored live reads
    obtain ⟨output, _, _, outputPresent, isOutput⟩ := active_of_mem mirrored live writes
    rw [inputPresent] at outputPresent
    rw [Option.some.inj outputPresent, isOutput] at isInput
    exact Direction.noConfusion isInput
  · have namesDiffer := List.pairwise_map.mp (liveChannels_names_nodup mirrored)
    refine namesDiffer.imp_of_mem ?_
    intro left right leftLive rightLive differ
    have listed {channel : Channel} (live : channel ∈ graph.liveChannels) {endpoint : Endpoint}
        (member : endpoint ∈ (graph.channelArguments channel).map Prod.fst) :
        graph.lists channel.name endpoint = true := by
      rw [channelArguments_fst, List.mem_append] at member
      rcases member with reads | writes
      · obtain ⟨_, isListed, _⟩ := active_of_mem mirrored live reads
        exact isListed
      · obtain ⟨_, isListed, _⟩ := active_of_mem mirrored live writes
        exact isListed
    intro endpoint inLeft inRight
    exact differ (mirrored.lists_unique (listed leftLive inLeft) (listed rightLive inRight))

/-- A pin is given a variable exactly when a live channel gives it: its own variable to a reader,
and what its writers are given to a writer. -/
theorem get?_arguments_iff
    (mirrored : graph.Mirrored) {endpoint : Endpoint} {given : String} :
    graph.arguments.get? endpoint = some given ↔
      ∃ channel ∈ graph.liveChannels,
        (endpoint ∈ graph.readers channel ∧ given = Go.channelIdent channel.name) ∨
          (endpoint, given) ∈ writerVariables channel.name (graph.writers channel) := by
  rw [arguments, Table.get?_ofList_eq_some_iff (arguments_fst_nodup mirrored), List.mem_flatMap]
  refine exists_congr fun channel => and_congr_right fun _ => ?_
  rw [channelArguments, List.mem_append, List.mem_map]
  refine or_congr_left ?_
  constructor
  · intro found
    obtain ⟨reader, reads, same⟩ := found
    injection same with sameEndpoint sameGiven
    exact ⟨sameEndpoint ▸ reads, sameGiven.symm⟩
  · intro both
    exact ⟨endpoint, both.1, by rw [both.2]⟩

end Mirrored

end Graph

end Pipework
