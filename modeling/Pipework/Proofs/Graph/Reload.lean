import Mathlib.Data.List.Induction
import Pipework.Package
import Pipework.Proofs.Graph.Document

/-!
# Runs from what has been read

A document may declare a channel without ends, and a graph with such a channel is consistent.
Attaching a pin to it is granted and leaves a single end (`Graph.not_consistent_of_spoils`).
Nothing else breaks a consistent graph (`Graph.consistent_step_iff`), so a run from a graph that
was read is without problems at every step exactly when none of its requests does this
(`Graph.run_read_sound_iff`).
-/

namespace Pipework

namespace Graph

variable {registry : Registry} {graph : Graph} {request : Request}

/-! ## One request -/

/-- A request that spoils a graph is granted: it has no end to disagree with. -/
theorem Spoils.granted
    (registry : Registry) (spoils : graph.Spoils request) :
    ∃ next, graph.apply registry request = .ok next := by
  cases spoils with
  | @connectPin request pin channel pinPresent unbound present sameType endless =>
      refine ⟨graph.attach request.endpoint request.channel, connectPin_eq_ok_iff.mpr
        ⟨pin, pinPresent, channel, present, unbound, ?_, sameType, rfl⟩⟩
      intro other contained
      have ended : channel.ends.isEmpty = false := by
        refine (isEmpty_eq_false_iff present).mpr ⟨other, ?_⟩
        rw [lists_of_channel? present]
        exact contained
      rw [endless] at ended
      exact Bool.noConfusion ended

/-- A channel without ends does not pass values once it gets an end: this is its only one. -/
theorem isViable_attach_endless
    {name : String} {channel : Channel} (endpoint : Endpoint)
    (present : graph.channel? name = some channel) (endless : channel.ends.isEmpty = true) :
    (graph.attach endpoint name).isViable name = false := by
  have isPresent : (graph.channel? name).isSome = true := Option.isSome_of_eq_some present
  have stillPresent : ((graph.attach endpoint name).bareChannel? name).isSome = true := by
    rw [bareChannel?_attach, bareChannel?_isSome, isPresent]
  have onlyEnd {place : Endpoint}
      (listed : (graph.attach endpoint name).lists name place = true) :
      place = endpoint := by
    rcases (lists_attach_iff isPresent endpoint name place).mp listed with ⟨_, same⟩ | before
    · exact same
    · rw [(isEmpty_eq_false_iff present).mpr ⟨place, before⟩] at endless
      exact Bool.noConfusion endless
  rw [Bool.eq_false_iff]
  intro viable
  have both := isViable_iff.mp viable stillPresent
  obtain ⟨receiver, receiverListed, receiverPin, receiverPresent, isInput⟩ := both .input
  obtain ⟨sender, senderListed, senderPin, senderPresent, isOutput⟩ := both .output
  -- Receiver and sender are the one end, whose pin has one direction.
  rw [onlyEnd receiverListed] at receiverPresent
  rw [onlyEnd senderListed, receiverPresent] at senderPresent
  rw [← Option.some.inj senderPresent, isInput] at isOutput
  exact Direction.noConfusion isOutput

theorem not_consistent_of_spoils
    {next : Graph} (spoils : graph.Spoils request)
    (granted : graph.apply registry request = .ok next) :
    ¬ next.Consistent := by
  intro consistent
  cases spoils with
  | @connectPin request pin channel pinPresent unbound present sameType endless =>
      obtain ⟨_, _, _, _, _, _, _, rfl⟩ := connectPin_eq_ok_iff.mp granted
      have isPresent : (graph.channel? request.channel).isSome = true :=
        Option.isSome_of_eq_some present
      have listed : (graph.attach request.endpoint request.channel).lists request.channel
          request.endpoint = true :=
        (lists_attach_iff isPresent _ _ _).mpr (Or.inl ⟨rfl, rfl⟩)
      have viable := consistent.viable listed
      rw [isViable_attach_endless request.endpoint present endless] at viable
      exact Bool.noConfusion viable

/-- A granted request that does not spoil a consistent graph leaves a consistent one. -/
theorem Consistent.of_apply
    {next : Graph} (consistent : graph.Consistent)
    (granted : graph.apply registry request = .ok next) (sound : ¬ graph.Spoils request) :
    next.Consistent where
  toMirrored := consistent.toMirrored.of_apply granted
  viable {channel endpoint} listed := by
    have evolves := Evolves.of_apply consistent.toMirrored granted sound
    rcases evolves.ended listed with viable | ⟨other, wasListed⟩
    · exact viable
    · exact evolves.viable (consistent.viable wasListed)

/-- A consistent graph stays consistent exactly when the request does not spoil it. -/
theorem consistent_step_iff
    (registry : Registry) (consistent : graph.Consistent) (request : Request) :
    (graph.step registry request).Consistent ↔ ¬ graph.Spoils request := by
  constructor
  · intro after spoils
    obtain ⟨next, granted⟩ := spoils.granted registry
    rw [step_of_granted granted] at after
    exact not_consistent_of_spoils spoils granted after
  · intro sound
    exact step_induction consistent request fun granted => consistent.of_apply granted sound

/-! ## Runs -/

/-- A run from a consistent graph is consistent at every step exactly when none of its requests
spoils the graph that it finds. -/
theorem consistent_run_iff
    (registry : Registry) (consistent : graph.Consistent) (requests : List Request) :
    (∀ done, done <+: requests → (graph.run registry done).Consistent) ↔
      ∀ done request, done ++ [request] <+: requests →
        ¬ (graph.run registry done).Spoils request := by
  constructor
  · intro always done request isPrefix
    have before := always done ((List.prefix_append done [request]).trans isPrefix)
    have after := always (done ++ [request]) isPrefix
    rw [run_concat] at after
    exact (consistent_step_iff registry before request).mp after
  · intro sound done
    -- The induction is on the requests that were made, from the first to the last of them.
    induction done using List.reverseRecOn with
    | nil => exact fun _ => consistent
    | append_singleton done request inductionHypothesis =>
        intro isPrefix
        have before :=
          inductionHypothesis ((List.prefix_append done [request]).trans isPrefix)
        rw [run_concat]
        exact (consistent_step_iff registry before request).mpr (sound done request isPrefix)

/-! ## Runs from a document -/

theorem package_of_no_problems
    (unproblematic : graph.problems = []) :
    ∃ package, graph.package = .ok package := by
  simp only [package, requireConsistent, unproblematic]
  exact ⟨_, rfl⟩

theorem package_of_problems
    (problematic : graph.problems ≠ []) :
    graph.package = .error (.inconsistent graph.name graph.problems) := by
  obtain ⟨first, rest, found⟩ := List.exists_cons_of_ne_nil problematic
  simp only [package, requireConsistent, found]
  rfl

/-- A run from a graph that was read shows no problem at any step exactly when none of its
requests attaches a pin to a channel without ends. The text of the graph that a run leaves, which
a save writes, is read as this graph, and a package is made of it, when it has no problem; when
it has one, both are refused with what the check found. -/
theorem run_read_sound_iff
    (registry : Registry) {bytes : ByteArray} (requests : List Request)
    (read : Graph.read registry bytes = .ok graph) :
    let final := graph.run registry requests
    ((∀ done, done <+: requests → (graph.run registry done).problems = []) ↔
      ∀ done request, done ++ [request] <+: requests →
        ¬ (graph.run registry done).Spoils request) ∧
      (final.problems = [] →
        Graph.read registry final.text.toUTF8 = .ok final ∧
          ∃ package, final.package = .ok package) ∧
      (final.problems ≠ [] →
        Graph.read registry final.text.toUTF8 =
            .error (.inconsistent final.name final.problems) ∧
          final.package = .error (.inconsistent final.name final.problems)) := by
  intro final
  obtain ⟨unproblematic, legal⟩ := legal_of_read read
  have consistent := problems_eq_nil_iff.mp unproblematic
  have finalMirrored : final.Mirrored :=
    run_induction consistent.toMirrored (fun mirrored granted => mirrored.of_apply granted)
      requests
  have finalLegal : Legal registry final :=
    run_induction legal (fun legal granted => legal.of_apply granted) requests
  have again := read_text_eq finalMirrored finalLegal
  refine ⟨?_, ?_, ?_⟩
  · simp only [problems_eq_nil_iff]
    exact consistent_run_iff registry consistent requests
  · intro finalRight
    rw [finalRight] at again
    exact ⟨again, package_of_no_problems finalRight⟩
  · intro finalWrong
    refine ⟨?_, package_of_problems finalWrong⟩
    obtain ⟨first, rest, found⟩ := List.exists_cons_of_ne_nil finalWrong
    rw [found] at again ⊢
    exact again

/-- A sink beside a channel of its type that has no ends. -/
def spareChannel : Graph :=
  let drain : CreateNode := ⟨"drain", "Sink", .null, true, true, 1, 0, 0⟩
  let spare : Channel := ⟨"spare", "int", 0, false, Table.empty⟩
  ((empty "g" "p" false).putNode "drain" (drain.node (.sink ⟨"int"⟩))).putChannel "spare" spare

theorem run_read_sound_iff_spareChannel :
    let request := Request.connectPin ⟨⟨"drain", "input"⟩, "spare"⟩
    let spoiled := spareChannel.run Registry.builtin [request]
    Graph.read Registry.builtin spareChannel.text.toUTF8 = .ok spareChannel ∧
      spareChannel.Spoils request ∧
      spoiled.problems = [.fewEnds "spare", .oneWay "spare"] ∧
      Graph.read Registry.builtin spoiled.text.toUTF8 =
        .error (.inconsistent "g" [.fewEnds "spare", .oneWay "spare"]) := by
  intro request spoiled
  have legal : Legal Registry.builtin spareChannel := by
    have fits : LegalNode Registry.builtin "drain"
        (CreateNode.node ⟨"drain", "Sink", .null, true, true, 1, 0, 0⟩ (.sink ⟨"int"⟩)) :=
      ⟨by decide, by decide, "Sink", .object [("type", .string "int")], rfl⟩
    exact ((Legal.empty _ "g" "p" false).putNode fits).putChannel _ (by decide)
  have consistent : spareChannel.Consistent := problems_eq_nil_iff.mp (by decide)
  have loaded := read_text_of_consistent consistent legal
  have found : spoiled.problems = [.fewEnds "spare", .oneWay "spare"] := by decide
  obtain ⟨_, _, refused⟩ := run_read_sound_iff Registry.builtin [request] loaded
  obtain ⟨readRefused, _⟩ := refused (by rw [found]; simp)
  exact ⟨loaded, .connectPin rfl rfl rfl rfl rfl, found, found ▸ readRefused⟩

end Graph

end Pipework
