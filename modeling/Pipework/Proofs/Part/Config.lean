import Pipework.Proofs.Except
import Pipework.Proofs.Json.Record
import Pipework.Registry

/-!
# Configurations of parts

A part that was made is made again from its own configuration (`Part.ofConfig_config`), and a
configuration is a value that is kept and that a document has room for. So is a part that any
registry made made by every registry that knows its kind (`Registry.construct_config`).
-/

namespace Pipework

open Json (Decoder Fields Value)

/-! ## Reading a configuration -/

section Read

variable {α : Type} {decoder : Decoder α} {check : α → Option PartFault} {config : Value}
  {part : α}

/-- What is made has been checked. -/
theorem check_of_readConfig
    (made : readConfig decoder check config = .ok part) :
    check part = none := by
  simp only [readConfig] at made
  split at made
  · simp at made
  · rename_i found _
    cases faulty : check found with
    | some fault => simp [faulty] at made
    | none =>
        simp only [faulty, Except.ok.injEq] at made
        rw [← made, faulty]

theorem readConfig_object_eq_ok_iff
    {members : List (String × Value)} {made : α}
    (decoded : decoder (Value.object members).reading = .ok part) :
    readConfig decoder check (.object members) = .ok made ↔ check part = none ∧ made = part := by
  simp only [readConfig, decoded]
  cases check part <;> simp [eq_comm]

end Read

/-! ## Each kind of part -/

theorem Pin.decoder_value
    (pin : Pin) :
    Pin.decoder pin.value.reading = .ok pin := by
  obtain ⟨name, type, direction⟩ := pin
  cases direction <;> rfl

namespace Part

open Json.Fields.Reads (required optional)

theorem Broadcast.ofConfig_config_eq_ok_iff
    {part made : Broadcast} :
    Broadcast.ofConfig part.config = .ok made ↔ part.fault = none ∧ made = part := by
  refine readConfig_object_eq_ok_iff (Fields.record_reading _ _ (by simp) ?_)
  exact ((optional rfl (Decoder.text_reading part.type)).map Broadcast.mk).seq
    (optional rfl (Decoder.count_reading part.outputs))

theorem Join.ofConfig_config_eq_ok_iff
    {part made : Join} :
    Join.ofConfig part.config = .ok made ↔ part.fault = none ∧ made = part := by
  refine readConfig_object_eq_ok_iff (Fields.record_reading _ _ (by simp) ?_)
  exact ((optional rfl (Decoder.text_reading part.type)).map Join.mk).seq
    (optional rfl (Decoder.count_reading part.inputs))

theorem Filter.ofConfig_config_eq_ok_iff
    {part made : Filter} :
    Filter.ofConfig part.config = .ok made ↔ part.fault = none ∧ made = part := by
  refine readConfig_object_eq_ok_iff (Fields.record_reading _ _ (by simp) ?_)
  exact ((optional rfl (Decoder.text_reading part.type)).map Filter.mk).seq
    (required rfl (Decoder.text_reading part.predicate))

theorem Sink.ofConfig_config_eq_ok_iff
    {part made : Sink} :
    Sink.ofConfig part.config = .ok made ↔ part.fault = none ∧ made = part := by
  refine readConfig_object_eq_ok_iff (Fields.record_reading _ _ (by simp) ?_)
  exact (optional rfl (Decoder.text_reading part.type)).map Sink.mk

theorem HttpServer.ofConfig_config_eq_ok_iff
    {part made : HttpServer} :
    HttpServer.ofConfig part.config = .ok made ↔ part.fault = none ∧ made = part := by
  refine readConfig_object_eq_ok_iff (Fields.record_reading _ _ (by simp) ?_)
  exact (optional rfl (Decoder.text_reading part.address)).map HttpServer.mk

theorem Code.ofConfig_config_eq_ok_iff
    {code made : Code} :
    Code.ofConfig code.config = .ok made ↔ code.fault = none ∧ made = code := by
  have imports : Decoder.list Decoder.text (Value.array (code.imports.map Value.string)).reading =
      .ok code.imports :=
    Decoder.list_reading fun _ _ => rfl
  have pins : Decoder.list Pin.decoder (Value.array (code.pins.map Pin.value)).reading =
      .ok code.pins :=
    Decoder.list_reading fun pin _ => pin.decoder_value
  refine readConfig_object_eq_ok_iff (Fields.record_reading _ _ (by simp) ?_)
  exact (((((optional rfl imports).map Code.mk).seq
    (optional rfl (Decoder.text_reading code.head))).seq
    (optional rfl (Decoder.text_reading code.body))).seq
    (optional rfl (Decoder.text_reading code.tail))).seq
    (optional rfl pins)

/-- A part that was made is made again from its own configuration. -/
theorem ofConfig_config
    {kind : PartKind} {config : Value} {part : Part}
    (made : ofConfig kind config = .ok part) :
    part.kind = kind ∧ ofConfig kind part.config = .ok part := by
  cases kind with
  | broadcast =>
      obtain ⟨found, foundMade, rfl⟩ := map_eq_ok_iff.mp made
      have again := Broadcast.ofConfig_config_eq_ok_iff.mpr ⟨check_of_readConfig foundMade, rfl⟩
      exact ⟨rfl, map_eq_ok_iff.mpr ⟨found, again, rfl⟩⟩
  | code =>
      obtain ⟨found, foundMade, rfl⟩ := map_eq_ok_iff.mp made
      have again := Code.ofConfig_config_eq_ok_iff.mpr ⟨check_of_readConfig foundMade, rfl⟩
      exact ⟨rfl, map_eq_ok_iff.mpr ⟨found, again, rfl⟩⟩
  | filter =>
      obtain ⟨found, foundMade, rfl⟩ := map_eq_ok_iff.mp made
      have again := Filter.ofConfig_config_eq_ok_iff.mpr ⟨check_of_readConfig foundMade, rfl⟩
      exact ⟨rfl, map_eq_ok_iff.mpr ⟨found, again, rfl⟩⟩
  | httpServer =>
      obtain ⟨found, foundMade, rfl⟩ := map_eq_ok_iff.mp made
      have again := HttpServer.ofConfig_config_eq_ok_iff.mpr ⟨check_of_readConfig foundMade, rfl⟩
      exact ⟨rfl, map_eq_ok_iff.mpr ⟨found, again, rfl⟩⟩
  | join =>
      obtain ⟨found, foundMade, rfl⟩ := map_eq_ok_iff.mp made
      have again := Join.ofConfig_config_eq_ok_iff.mpr ⟨check_of_readConfig foundMade, rfl⟩
      exact ⟨rfl, map_eq_ok_iff.mpr ⟨found, again, rfl⟩⟩
  | sink =>
      obtain ⟨found, foundMade, rfl⟩ := map_eq_ok_iff.mp made
      have again := Sink.ofConfig_config_eq_ok_iff.mpr ⟨check_of_readConfig foundMade, rfl⟩
      exact ⟨rfl, map_eq_ok_iff.mpr ⟨found, again, rfl⟩⟩

/-- The configuration of a part makes this part or none. -/
theorem eq_of_ofConfig_config
    {part made : Part} (isMade : ofConfig part.kind part.config = .ok made) :
    made = part := by
  cases part with
  | broadcast part =>
      obtain ⟨found, foundMade, rfl⟩ := map_eq_ok_iff.mp isMade
      rw [(Broadcast.ofConfig_config_eq_ok_iff.mp foundMade).2]
  | code code =>
      obtain ⟨found, foundMade, rfl⟩ := map_eq_ok_iff.mp isMade
      rw [(Code.ofConfig_config_eq_ok_iff.mp foundMade).2]
  | filter part =>
      obtain ⟨found, foundMade, rfl⟩ := map_eq_ok_iff.mp isMade
      rw [(Filter.ofConfig_config_eq_ok_iff.mp foundMade).2]
  | httpServer part =>
      obtain ⟨found, foundMade, rfl⟩ := map_eq_ok_iff.mp isMade
      rw [(HttpServer.ofConfig_config_eq_ok_iff.mp foundMade).2]
  | join part =>
      obtain ⟨found, foundMade, rfl⟩ := map_eq_ok_iff.mp isMade
      rw [(Join.ofConfig_config_eq_ok_iff.mp foundMade).2]
  | sink part =>
      obtain ⟨found, foundMade, rfl⟩ := map_eq_ok_iff.mp isMade
      rw [(Sink.ofConfig_config_eq_ok_iff.mp foundMade).2]

/-! ## What a configuration looks like -/

theorem keptItems_map
    {α : Type} {encode : α → Value} (each : ∀ item, (encode item).Kept) (items : List α) :
    Json.KeptItems (items.map encode) := by
  rw [Json.keptItems_iff, List.forall_mem_map]
  exact fun item _ => each item

theorem ordered_of_keys
    (keys : List String) {members : List (String × Value)}
    (same : members.map Prod.fst = keys) (ordered : keys.Pairwise (· < ·)) :
    members.Pairwise (fun first second => first.1 < second.1) := by
  rw [← same, List.pairwise_map] at ordered
  exact ordered

theorem config_kept
    (part : Part) :
    part.config.Kept := by
  have textKept (text : String) : (Value.string text).Kept := trivial
  have pinKept (pin : Pin) : pin.value.Kept :=
    ⟨ordered_of_keys ["direction", "name", "type"] rfl (by decide), trivial, trivial, trivial,
      trivial⟩
  cases part with
  | broadcast part =>
      exact ⟨ordered_of_keys ["outputs", "type"] rfl (by decide), trivial, trivial, trivial⟩
  | code code =>
      exact ⟨ordered_of_keys ["body", "head", "imports", "pins", "tail"] rfl (by decide),
        trivial, trivial, keptItems_map textKept code.imports, keptItems_map pinKept code.pins,
        trivial, trivial⟩
  | filter part =>
      exact ⟨ordered_of_keys ["predicate", "type"] rfl (by decide), trivial, trivial, trivial⟩
  | httpServer part =>
      exact ⟨ordered_of_keys ["addr"] rfl (by decide), trivial, trivial⟩
  | join part =>
      exact ⟨ordered_of_keys ["inputs", "type"] rfl (by decide), trivial, trivial, trivial⟩
  | sink part => exact ⟨ordered_of_keys ["type"] rfl (by decide), trivial, trivial⟩

theorem fitsItems_map
    {α : Type} {encode : α → Value} {room : Nat} (each : ∀ item, (encode item).Fits room)
    (items : List α) :
    Json.FitsItems room (items.map encode) := by
  rw [Json.fitsItems_iff, List.forall_mem_map]
  exact fun item _ => each item

/-- A configuration nests three deep at most: pins stand in an array. -/
theorem config_fits
    (part : Part) (room : Nat) :
    part.config.Fits (room + 3) := by
  have textFits (text : String) : (Value.string text).Fits (room + 1) := trivial
  have pinFits (pin : Pin) : pin.value.Fits (room + 1) :=
    ⟨Nat.succ_pos room, trivial, trivial, trivial, trivial⟩
  cases part with
  | broadcast part =>
      exact ⟨Nat.succ_pos _, Json.isWhole_count part.outputs, trivial, trivial⟩
  | code code =>
      exact ⟨Nat.succ_pos _, trivial, trivial,
        ⟨Nat.succ_pos _, fitsItems_map textFits code.imports⟩,
        ⟨Nat.succ_pos _, fitsItems_map pinFits code.pins⟩, trivial, trivial⟩
  | filter part => exact ⟨Nat.succ_pos _, trivial, trivial, trivial⟩
  | httpServer part => exact ⟨Nat.succ_pos _, trivial, trivial⟩
  | join part => exact ⟨Nat.succ_pos _, Json.isWhole_count part.inputs, trivial, trivial⟩
  | sink part => exact ⟨Nat.succ_pos _, trivial, trivial⟩

end Part

/-! ## Registries -/

theorem PartKind.key_injective
    {first second : PartKind} (sameKey : first.key = second.key) :
    first = second := by
  revert sameKey
  cases first <;> cases second <;> decide

namespace Registry

variable {registry : Registry}

theorem find?_eq_some_iff
    {key : String} {kind : PartKind} :
    registry.find? key = some kind ↔ kind.key = key ∧ registry.knows kind = true := by
  have inAll (kind : PartKind) : kind ∈ PartKind.all := by
    cases kind <;> decide
  constructor
  · intro found
    have sameKey := List.find?_some found
    have member := List.mem_of_find?_eq_some found
    exact ⟨of_decide_eq_true sameKey, (List.mem_filter.mp member).2⟩
  · intro found
    obtain ⟨rfl, known⟩ := found
    have member : kind ∈ registry.kinds := List.mem_filter.mpr ⟨inAll kind, known⟩
    cases found : registry.find? kind.key with
    | none =>
        have different := List.find?_eq_none.mp found kind member
        simp at different
    | some other =>
        have sameKey := List.find?_some found
        rw [PartKind.key_injective (of_decide_eq_true sameKey)]

theorem construct_eq_ok_iff
    {key : String} {config : Value} {part : Part} :
    registry.construct key config = .ok part ↔
      ∃ kind, registry.find? key = some kind ∧ Part.ofConfig kind config = .ok part := by
  rw [construct]
  cases registry.find? key with
  | none => simp
  | some kind =>
      simp only [Option.some.injEq, exists_eq_left']
      cases made : Part.ofConfig kind config <;> simp

/-- Every registry that knows the kind of a part that was made makes it again from its own
configuration. -/
theorem construct_config
    {maker : Registry} {key : String} {config : Value} {part : Part}
    (made : maker.construct key config = .ok part) (known : registry.knows part.kind = true) :
    registry.construct part.kind.key part.config = .ok part := by
  obtain ⟨kind, _, ofKind⟩ := construct_eq_ok_iff.mp made
  obtain ⟨sameKind, again⟩ := Part.ofConfig_config ofKind
  refine construct_eq_ok_iff.mpr ⟨part.kind, find?_eq_some_iff.mpr ⟨rfl, known⟩, ?_⟩
  rw [sameKind]
  exact again

theorem knows_of_construct
    {key : String} {config : Value} {part : Part}
    (made : registry.construct key config = .ok part) :
    registry.knows part.kind = true := by
  obtain ⟨kind, found, ofKind⟩ := construct_eq_ok_iff.mp made
  rw [(Part.ofConfig_config ofKind).1]
  exact (find?_eq_some_iff.mp found).2

/-- The key and the configuration of a part make nothing else, and they make it whenever something
makes it. -/
theorem construct_key_config_eq_ok_iff
    {part made : Part} :
    registry.construct part.kind.key part.config = .ok made ↔
      (∃ key config, registry.construct key config = .ok part) ∧ made = part := by
  constructor
  · intro isMade
    obtain ⟨kind, found, ofKind⟩ := construct_eq_ok_iff.mp isMade
    have sameKind := PartKind.key_injective (find?_eq_some_iff.mp found).1
    rw [sameKind] at ofKind
    obtain rfl := Part.eq_of_ofConfig_config ofKind
    exact ⟨⟨_, _, isMade⟩, rfl⟩
  · rintro ⟨⟨key, config, isMade⟩, rfl⟩
    exact construct_config isMade (knows_of_construct isMade)

end Registry

end Pipework
