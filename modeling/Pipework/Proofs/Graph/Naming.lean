import Pipework.Proofs.Graph.Document
import Pipework.Proofs.Graph.Run
import Pipework.Proofs.Part.Pins
import Pipework.Workspace.Edit

/-!
# Pins by their names

The command line names a pin by its node, a dot and the pin. Nodes may have dots in their names,
pins may not, so the last dot parts the two: what is written for a pin of a graph is read as this
pin, and no two pins of a graph are written alike (`Graph.endpoints_named_apart`).
-/

namespace Pipework

/-! ## Written pins -/

namespace Endpoint

variable {text : String} {endpoint : Endpoint}

theorem toList_text
    (endpoint : Endpoint) :
    endpoint.text.toList = endpoint.node.toList ++ '.' :: endpoint.pin.toList := by
  rw [Endpoint.text, String.toList_append, String.toList_append, List.append_assoc]
  rfl

/-- A text names the pin whose node stands before its last dot, unless a side is empty. -/
theorem ofText?_eq_some_iff :
    ofText? text = some endpoint ↔
      text = endpoint.text ∧ '.' ∉ endpoint.pin.toList ∧ endpoint.node ≠ "" ∧
        endpoint.pin ≠ "" := by
  have isSplit_iff : Text.splitAtLast? '.' text.toList =
        some (endpoint.node.toList, endpoint.pin.toList) ↔
      text = endpoint.text ∧ '.' ∉ endpoint.pin.toList := by
    rw [Text.splitAtLast?_eq_some_iff, ← toList_text, String.toList_inj]
  rw [← and_assoc, ← isSplit_iff, ofText?]
  cases Text.splitAtLast? '.' text.toList with
  | none => exact iff_of_false nofun fun both => nomatch both.1
  | some sides =>
      obtain ⟨front, back⟩ := sides
      obtain ⟨node, pin⟩ := endpoint
      by_cases isBare : front = [] ∨ back = []
      · simp only [isBare, if_true, Option.some.injEq, Prod.mk.injEq]
        refine iff_of_false nofun ?_
        rintro ⟨⟨rfl, rfl⟩, nodeFilled, pinFilled⟩
        rcases isBare with noNode | noPin
        · exact nodeFilled (String.toList_eq_nil_iff.mp noNode)
        · exact pinFilled (String.toList_eq_nil_iff.mp noPin)
      · simp only [isBare, if_false, Option.some.injEq, Prod.mk.injEq, Endpoint.mk.injEq]
        constructor
        · rintro ⟨rfl, rfl⟩
          simpa [not_or] using isBare
        · rintro ⟨⟨rfl, rfl⟩, _⟩
          exact ⟨String.ofList_toList, String.ofList_toList⟩

/-- A text names no pin when it has no dot, or nothing on a side of its last dot. -/
theorem ofText?_eq_none_iff :
    ofText? text = none ↔
      '.' ∉ text.toList ∨ ∃ front back, text.toList = front ++ '.' :: back ∧ '.' ∉ back ∧
        (front = [] ∨ back = []) := by
  rw [ofText?]
  cases isSplit : Text.splitAtLast? '.' text.toList with
  | none => exact iff_of_true rfl (Or.inl ((Text.splitAtLast?_eq_none_iff _ _).mp isSplit))
  | some sides =>
      obtain ⟨front, back⟩ := sides
      obtain ⟨isText, noDot⟩ := Text.splitAtLast?_eq_some_iff.mp isSplit
      by_cases isBare : front = [] ∨ back = []
      · simp only [isBare, if_true, true_iff]
        exact Or.inr ⟨front, back, isText, noDot, isBare⟩
      · simp only [isBare, if_false, reduceCtorEq, false_iff]
        rintro (without | ⟨other, more, isTextToo, noDotToo, isBareToo⟩)
        · exact without (isText ▸ List.mem_append_right front List.mem_cons_self)
        · have same := Text.splitAtLast?_eq_some_iff.mpr ⟨isTextToo, noDotToo⟩
          rw [isSplit] at same
          obtain ⟨rfl, rfl⟩ := Prod.mk.inj (Option.some.inj same)
          exact isBare isBareToo

/-- The names that nodes and pins can have are told apart by the last dot. -/
theorem ofText?_text
    (isNode : nameFault endpoint.node = none) (isPin : pinNameFault endpoint.pin = none) :
    ofText? endpoint.text = some endpoint := by
  have isName := (pinNameFault_eq_none_iff.mp isPin).1
  have filled : endpoint.node ≠ "" := fun empty => by
    rw [empty] at isNode
    exact absurd isNode (by decide)
  refine ofText?_eq_some_iff.mpr ⟨rfl, fun dot => ?_, filled, fun empty => ?_⟩
  · exact absurd (Go.isNamePart_of_isGoName isName dot) (by decide)
  · rw [empty] at isName
    exact absurd isName (by decide)

end Endpoint

/-! ## Graphs that come about -/

namespace Graph

/-- The graphs that come about: empty ones, those that are read, and what requests make of them. -/
inductive Arises (registry : Registry) : Graph → Prop where
  | empty (name packagePath : String) (isCommand : Bool) :
      Arises registry (Graph.empty name packagePath isCommand)
  | read {bytes : ByteArray} {graph : Graph} (isRead : Graph.read registry bytes = .ok graph) :
      Arises registry graph
  | apply {graph next : Graph} {request : Request} (arises : Arises registry graph)
      (granted : graph.apply registry request = .ok next) : Arises registry next

theorem Arises.legal
    {registry : Registry} {graph : Graph} (arises : Arises registry graph) :
    Legal registry graph := by
  induction arises with
  | empty name packagePath isCommand => exact Legal.empty registry name packagePath isCommand
  | read isRead => exact (legal_of_read isRead).2
  | apply _ granted inductionHypothesis => exact inductionHypothesis.of_apply granted

/-- A node has a name that nodes can have, and its pins have names that pins can have. -/
theorem Legal.faults_of_pin?
    {registry : Registry} {graph : Graph} (legal : Legal registry graph) {endpoint : Endpoint}
    {pin : Pin} (isPin : graph.pin? endpoint = some pin) :
    nameFault endpoint.node = none ∧ pinNameFault endpoint.pin = none := by
  rw [pin?_eq] at isPin
  obtain ⟨node, isNode, isFound⟩ := Option.bind_eq_some_iff.mp isPin
  have fits := legal.node isNode
  obtain ⟨key, config, made⟩ := fits.made
  obtain ⟨nodup, sound⟩ := pinsFault_eq_none_iff.mp (Registry.pinsFault_eq_none_of_construct made)
  obtain ⟨member, named⟩ := (findPin_eq_some_iff nodup).mp isFound
  exact ⟨fits.named, named ▸ (Pin.sound_iff.mp (sound pin member)).1⟩

/-- What is written for a pin is read as this pin, whatever dots the name of its node has; so no
two pins of a graph that came about are written alike. Only a text without a dot, or with nothing
on a side of the last one, is refused. -/
theorem endpoints_named_apart
    (registry : Registry) :
    (∀ endpoint : Endpoint, nameFault endpoint.node = none →
      pinNameFault endpoint.pin = none → readEndpoint endpoint.text = .ok endpoint) ∧
    (∀ graph : Graph, Arises registry graph →
      (∀ endpoint, (graph.pin? endpoint).isSome = true →
        readEndpoint endpoint.text = .ok endpoint) ∧
      ∀ first second, (graph.pin? first).isSome = true → (graph.pin? second).isSome = true →
        first.text = second.text → first = second) ∧
    ∀ text, (∃ failure, readEndpoint text = .error failure) ↔
      '.' ∉ text.toList ∨ ∃ front back, text.toList = front ++ '.' :: back ∧ '.' ∉ back ∧
        (front = [] ∨ back = []) := by
  have reads {endpoint : Endpoint} (isNode : nameFault endpoint.node = none)
      (isPin : pinNameFault endpoint.pin = none) : readEndpoint endpoint.text = .ok endpoint := by
    rw [readEndpoint, Endpoint.ofText?_text isNode isPin]
  have ofGraph {graph : Graph} (arises : Arises registry graph) {endpoint : Endpoint}
      (isPresent : (graph.pin? endpoint).isSome = true) :
      readEndpoint endpoint.text = .ok endpoint := by
    obtain ⟨pin, isPin⟩ := Option.isSome_iff_exists.mp isPresent
    obtain ⟨isNode, isPin⟩ := arises.legal.faults_of_pin? isPin
    exact reads isNode isPin
  refine ⟨fun endpoint => reads, fun graph arises => ⟨fun endpoint => ofGraph arises, ?_⟩, ?_⟩
  · intro first second isFirst isSecond same
    have isRead := ofGraph arises isFirst
    rw [same, ofGraph arises isSecond] at isRead
    exact (Except.ok.inj isRead).symm
  · intro text
    rw [← Endpoint.ofText?_eq_none_iff, readEndpoint]
    cases Endpoint.ofText? text with
    | none => exact iff_of_true ⟨_, rfl⟩ rfl
    | some endpoint => exact iff_of_false (fun ⟨_, refused⟩ => nomatch refused) nofun

end Graph

end Pipework
