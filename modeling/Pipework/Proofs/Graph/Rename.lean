import Pipework.Proofs.Graph.Mirror

/-!
# Replacing a node

A node can be given other properties, another part and another name at once. Seen from the
changed graph every endpoint has an origin (`Graph.origin?`): the pins of the node under its new
name come from those under the old one, and the old name is gone. Bindings and ends of the
changed graph are those of the origins.
-/

namespace Pipework

namespace Graph

/-! ## Kept pins -/

section Kept

variable {node : Node} {part : Part}

/-- No bound pin is lost exactly when the other part has each of them with the same type and
direction. -/
theorem lostPins_eq_nil_iff :
    lostPins node part = [] ↔
      ∀ pin channel, node.binding? pin = some channel →
        ∃ old new, node.part.pin? pin = some old ∧ part.pin? pin = some new ∧
          old.type = new.type ∧ old.direction = new.direction := by
  rw [lostPins, List.filter_eq_nil_iff]
  constructor
  · intro kept pin channel bound
    have inNames : pin ∈ node.boundPins.map Prod.fst :=
      List.mem_map.mpr ⟨(pin, channel), Node.mem_boundPins_iff.mpr bound, rfl⟩
    have atPin := kept pin inNames
    cases oldPin : node.part.pin? pin with
    | none => simp [oldPin] at atPin
    | some old =>
        cases newPin : part.pin? pin with
        | none => simp [oldPin, newPin] at atPin
        | some new =>
            simp only [oldPin, newPin, ne_eq, decide_not, Bool.or_eq_true,
              Bool.not_eq_true', decide_eq_false_iff_not, not_or,
              Decidable.not_not] at atPin
            exact ⟨old, new, rfl, rfl, atPin⟩
  · intro kept pin inNames
    obtain ⟨⟨name, channel⟩, member, rfl⟩ := List.mem_map.mp inNames
    obtain ⟨old, new, oldPin, newPin, sameType, sameDirection⟩ :=
      kept name channel (Node.mem_boundPins_iff.mp member)
    simp [oldPin, newPin, sameType, sameDirection]

theorem get?_keptConnections
    (pin : String) :
    (keptConnections node part).get? pin =
      if pin ∈ part.pins.map Pin.name then some (node.binding? pin) else none :=
  Table.get?_ofList_map part.pins Pin.name node.binding? pin

/-- A node that loses no pin is bound as before. -/
theorem binding?_outcome
    {request : SetNodeProperties}
    (kept : lostPins node part = []) (pin : String) :
    (request.outcome node part).binding? pin = node.binding? pin := by
  show ((keptConnections node part).get? pin).join = node.binding? pin
  rw [get?_keptConnections]
  split
  · rfl
  · rename_i absent
    cases bound : node.binding? pin with
    | none => rfl
    | some channel =>
        obtain ⟨_, new, _, newPin, _⟩ := lostPins_eq_nil_iff.mp kept pin channel bound
        have present : (part.pin? pin).isSome = true := by rw [newPin, Option.isSome_some]
        exact absurd (Part.pin?_isSome_iff.mp present) absent

end Kept

/-! ## Renamed ends -/

section RenameEnds

variable (bound : List (String × String)) (old new : String)

theorem node?_renameEnds
    (graph : Graph) (name : String) :
    (graph.renameEnds bound old new).node? name = graph.node? name := by
  induction bound generalizing graph with
  | nil => rfl
  | cons first rest inductionHypothesis =>
      rw [renameEnds, List.foldl_cons]
      exact inductionHypothesis _

theorem bareChannel?_renameEnds
    (graph : Graph) (name : String) :
    (graph.renameEnds bound old new).bareChannel? name = graph.bareChannel? name := by
  induction bound generalizing graph with
  | nil => rfl
  | cons first rest inductionHypothesis =>
      rw [renameEnds, List.foldl_cons]
      refine (inductionHypothesis _).trans ?_
      rw [bareChannel?_changeEnds]

theorem lists_renameEnds_iff
    (different : new ≠ old) (graph : Graph) (channel : String) (endpoint : Endpoint) :
    (graph.renameEnds bound old new).lists channel endpoint = true ↔
      (∃ pin, (pin, channel) ∈ bound ∧ endpoint = ⟨new, pin⟩ ∧
        (graph.bareChannel? channel).isSome = true) ∨
      (graph.lists channel endpoint = true ∧
        ∀ pin, (pin, channel) ∈ bound → endpoint ≠ ⟨old, pin⟩) := by
  induction bound generalizing graph with
  | nil => simp [renameEnds]
  | cons first rest inductionHypothesis =>
      obtain ⟨firstPin, firstChannel⟩ := first
      let next := graph.changeEnds firstChannel fun ends =>
        KeySet.add (Table.erase ends ⟨old, firstPin⟩) ⟨new, firstPin⟩
      have nextLists : next.lists channel endpoint = true ↔
          (channel = firstChannel ∧ endpoint = ⟨new, firstPin⟩ ∧
            (graph.bareChannel? channel).isSome = true) ∨
          (graph.lists channel endpoint = true ∧
            ¬ (channel = firstChannel ∧ endpoint = ⟨old, firstPin⟩)) := by
        rw [lists_changeEnds]
        by_cases same : channel = firstChannel
        · subst same
          rw [if_pos rfl, lists, bareChannel?_isSome]
          cases graph.channel? channel with
          | none => simp
          | some found => simp [and_comm]
        · simp [same]
      have step := inductionHypothesis next
      rw [nextLists, bareChannel?_changeEnds] at step
      refine Iff.trans step ?_
      simp only [List.mem_cons, Prod.mk.injEq]
      constructor
      · intro either
        rcases either with ⟨pin, inRest, atNew, present⟩ |
          ⟨⟨same, atNew, present⟩ | ⟨listed, apart⟩, others⟩
        · exact Or.inl ⟨pin, Or.inr inRest, atNew, present⟩
        · exact Or.inl ⟨firstPin, Or.inl ⟨rfl, same⟩, atNew, present⟩
        · refine Or.inr ⟨listed, ?_⟩
          intro pin either atOld
          rcases either with ⟨samePin, sameChannel⟩ | inRest
          · exact apart ⟨sameChannel, samePin ▸ atOld⟩
          · exact others pin inRest atOld
      · intro either
        rcases either with ⟨pin, ⟨samePin, sameChannel⟩ | inRest, atNew, present⟩ |
          ⟨listed, others⟩
        · refine Or.inr ⟨Or.inl ⟨sameChannel, samePin ▸ atNew, present⟩, ?_⟩
          intro other _ atOld
          rw [atNew] at atOld
          injection atOld with sameNode _
          exact different sameNode
        · exact Or.inl ⟨pin, inRest, atNew, present⟩
        · refine Or.inr ⟨Or.inr ⟨listed, ?_⟩, fun pin inRest => others pin (Or.inr inRest)⟩
          intro both
          obtain ⟨sameChannel, atOld⟩ := both
          exact others firstPin (Or.inl ⟨rfl, sameChannel⟩) atOld

end RenameEnds

/-! ## Origins -/

/-- Where an endpoint was before a node got a new name. -/
def origin? (old new : String) (endpoint : Endpoint) : Option Endpoint :=
  if endpoint.node = new then some ⟨old, endpoint.pin⟩
  else if endpoint.node = old then none
  else some endpoint

section Origin

variable {old new : String}

theorem origin?_injective
    {first second origin : Endpoint}
    (isFirst : origin? old new first = some origin)
    (isSecond : origin? old new second = some origin)
    (sameNode : first.node = second.node) :
    first = second := by
  obtain ⟨firstNode, firstPin⟩ := first
  obtain ⟨secondNode, secondPin⟩ := second
  simp only at sameNode
  subst sameNode
  rw [← isSecond, origin?, origin?] at isFirst
  split at isFirst
  · simpa using isFirst
  · split at isFirst
    · rename_i notNew atOld
      rw [origin?, if_neg notNew, if_pos atOld] at isSecond
      simp at isSecond
    · simpa using isFirst

theorem origin?_node_congr
    {first second firstOrigin secondOrigin : Endpoint}
    (isFirst : origin? old new first = some firstOrigin)
    (isSecond : origin? old new second = some secondOrigin)
    (sameNode : first.node = second.node) :
    firstOrigin.node = secondOrigin.node := by
  rw [origin?] at isFirst isSecond
  rw [← sameNode] at isSecond
  split at isFirst
  · rename_i atNew
    rw [if_pos atNew] at isSecond
    rw [← Option.some.inj isFirst, ← Option.some.inj isSecond]
  · rename_i notNew
    rw [if_neg notNew] at isSecond
    split at isFirst
    · simp at isFirst
    · rename_i notOld
      rw [if_neg notOld] at isSecond
      rw [← Option.some.inj isFirst, ← Option.some.inj isSecond, sameNode]

end Origin

section Replace

variable {graph : Graph} {request : SetNodeProperties} {node : Node} {part : Part}

theorem bareChannel?_replaceNode
    (name : String) :
    (graph.replaceNode request node).bareChannel? name = graph.bareChannel? name := by
  rw [replaceNode, bareChannel?_putNode, bareChannel?_dropNode]
  split
  · rw [bareChannel?_renameEnds]
  · rfl

theorem node?_replaceNode
    (name : String) :
    (graph.replaceNode request node).node? name =
      if name = request.name then some node
      else if name = request.node then none
      else graph.node? name := by
  rw [replaceNode, node?_putNode, node?_dropNode]
  split
  · rfl
  · split
    · rfl
    · split
      · rw [node?_renameEnds]
      · rfl

theorem pin?_replaceNode
    (endpoint : Endpoint) :
    (graph.replaceNode request node).pin? endpoint =
      if endpoint.node = request.name then node.part.pin? endpoint.pin
      else if endpoint.node = request.node then none
      else graph.pin? endpoint := by
  rw [pin?, pin?, node?_replaceNode]
  split
  · rfl
  · split <;> rfl

theorem connection?_replaceNode
    (endpoint : Endpoint) :
    (graph.replaceNode request node).connection? endpoint =
      if endpoint.node = request.name then node.connections.get? endpoint.pin
      else if endpoint.node = request.node then none
      else graph.connection? endpoint := by
  rw [connection?, connection?, node?_replaceNode]
  split
  · rfl
  · split <;> rfl

theorem binding?_replaceNode
    (present : graph.node? request.node = some node)
    (kept : lostPins node part = []) (endpoint : Endpoint) :
    (graph.replaceNode request (request.outcome node part)).binding? endpoint =
      (origin? request.node request.name endpoint).bind graph.binding? := by
  rw [binding?, node?_replaceNode, origin?]
  split
  · rw [Option.bind_some, Option.bind_some, binding?_outcome kept, binding?, present,
      Option.bind_some]
  · split
    · rfl
    · rfl

theorem lists_replaceNode
    (mirrored : graph.Mirrored)
    (present : graph.node? request.node = some node)
    (free : request.name = request.node ∨ graph.node? request.name = none)
    (kept : lostPins node part = []) (channel : String) (endpoint : Endpoint) :
    (graph.replaceNode request (request.outcome node part)).lists channel endpoint = true ↔
      ∃ origin, origin? request.node request.name endpoint = some origin ∧
        graph.lists channel origin = true := by
  obtain ⟨name, pin⟩ := endpoint
  rw [replaceNode, lists_putNode, lists_dropNode, origin?]
  -- Ends move only when the name changes, and then the new name was free, so nothing is there yet.
  by_cases renamed : request.name ≠ request.node
  · have nameFree : graph.node? request.name = none := free.resolve_left renamed
    have bound_iff (pin : String) :
        (pin, channel) ∈ (request.outcome node part).boundPins ↔
          graph.lists channel ⟨request.node, pin⟩ = true := by
      rw [Node.mem_boundPins_iff, binding?_outcome kept, ← mirrored.bound_iff, binding?,
        present, Option.bind_some]
    rw [if_pos renamed, lists_renameEnds_iff _ _ _ renamed]
    simp only [bound_iff]
    by_cases atNew : name = request.name
    · subst atNew
      have unlisted : graph.lists channel ⟨request.name, pin⟩ = false := by
        apply mirrored.lists_eq_false_of_unbound
        rw [binding?, nameFree, Option.bind_none]
      constructor
      · intro either
        rcases either with ⟨origin, listed, same, _⟩ | ⟨listed, _⟩
        · injection same with _ samePin
          exact ⟨⟨request.node, pin⟩, by simp, samePin ▸ listed⟩
        · rw [unlisted] at listed
          exact Bool.noConfusion listed
      · intro moved
        obtain ⟨origin, isOrigin, listed⟩ := moved
        rw [if_pos rfl] at isOrigin
        have same := Option.some.inj isOrigin
        subst same
        refine Or.inl ⟨pin, listed, rfl, ?_⟩
        obtain ⟨found, channelPresent, _⟩ := lists_iff.mp listed
        rw [bareChannel?_isSome, channelPresent, Option.isSome_some]
    · by_cases atOld : name = request.node
      · subst atOld
        simp only [atNew, if_false, if_true, reduceCtorEq, false_and, exists_false, iff_false]
        intro either
        rcases either with ⟨_, _, same, _⟩ | ⟨listed, others⟩
        · injection same with sameName _
          exact atNew sameName
        · exact others pin listed rfl
      · simp only [atNew, atOld, if_false, Endpoint.mk.injEq, false_and, and_false,
          exists_false, false_or, Option.some.injEq, exists_eq_left']
        simp [atOld]
  · rw [if_neg renamed]
    have same : request.name = request.node := Decidable.not_not.mp renamed
    rw [same]
    by_cases atNode : name = request.node
    · simp [atNode]
    · simp [atNode]

/-- An end of the graph before is the origin of an endpoint. -/
theorem exists_origin?
    (mirrored : graph.Mirrored)
    (free : request.name = request.node ∨ graph.node? request.name = none)
    {channel : String} {origin : Endpoint}
    (listed : graph.lists channel origin = true) :
    ∃ endpoint, origin? request.node request.name endpoint = some origin := by
  obtain ⟨node, pin⟩ := origin
  by_cases atOld : node = request.node
  · exact ⟨⟨request.name, pin⟩, by simp [origin?, atOld]⟩
  · have notNew : node ≠ request.name := by
      intro same
      have nameFree := free.resolve_left fun unchanged => atOld (same.trans unchanged)
      exact mirrored.node_ne_of_lists nameFree listed same
    exact ⟨⟨node, pin⟩, by simp [origin?, atOld, notNew]⟩

/-- An end of the changed graph has a pin of the type and direction of its origin. -/
theorem pin?_replaceNode_of_origin
    (mirrored : graph.Mirrored)
    (present : graph.node? request.node = some node)
    (kept : lostPins node part = [])
    {channel : String} {endpoint origin : Endpoint} {pin : Pin}
    (isOrigin : origin? request.node request.name endpoint = some origin)
    (listed : graph.lists channel origin = true)
    (pinPresent : graph.pin? origin = some pin) :
    ∃ new, (graph.replaceNode request (request.outcome node part)).pin? endpoint = some new ∧
      pin.type = new.type ∧ pin.direction = new.direction := by
  rw [pin?_replaceNode]
  rw [origin?] at isOrigin
  split at isOrigin
  · rename_i atNew
    have same := Option.some.inj isOrigin
    subst same
    have bound := (mirrored.bound_iff _ _).mpr listed
    rw [binding?, present, Option.bind_some] at bound
    obtain ⟨old, new, oldPin, newPin, sameType, sameDirection⟩ :=
      lostPins_eq_nil_iff.mp kept _ _ bound
    rw [pin?, present, Option.bind_some, oldPin] at pinPresent
    rw [← Option.some.inj pinPresent, if_pos atNew]
    exact ⟨new, newPin, sameType, sameDirection⟩
  · rename_i notNew
    split at isOrigin
    · simp at isOrigin
    · rename_i notOld
      rw [if_neg notNew, if_neg notOld, Option.some.inj isOrigin]
      exact ⟨pin, pinPresent, rfl, rfl⟩

end Replace

end Graph

end Pipework
