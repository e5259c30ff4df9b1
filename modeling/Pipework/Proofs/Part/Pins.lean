import Mathlib.Data.List.Nodup
import Pipework.Proofs.Go.Clash
import Pipework.Proofs.Graph.View
import Pipework.Proofs.Part.Config

/-!
# Pins of made parts

The pins of a part become the parameters of a function, so each needs a name that can be a
parameter, a type, and no two may have one name. Only user-written pins are checked for that when
a part is made. The others have fixed or numbered names, which pass the same check whatever the
numbers are: the pins of every part that a registry makes are sound
(`Registry.pins_sound_of_construct`).
-/

namespace Pipework

open Json (Value)

/-! ## Pins by their names -/

theorem findPin_of_mem
    {pins : List Pin} (nodup : (pins.map Pin.name).Nodup) {pin : Pin} (member : pin ∈ pins) :
    findPin pins pin.name = some pin := by
  rw [findPin]
  obtain ⟨found, isFound⟩ : ∃ found, pins.find? (fun other => other.name = pin.name) = some found :=
    Option.isSome_iff_exists.mp (List.find?_isSome.mpr ⟨pin, member, by simp⟩)
  have sameName : found.name = pin.name := by simpa using List.find?_some isFound
  have inside : found ∈ pins := List.mem_of_find?_eq_some isFound
  rw [isFound, List.inj_on_of_nodup_map nodup inside member sameName]

/-- Where names differ, the pin with a name is the one pin that has it. -/
theorem findPin_eq_some_iff
    {pins : List Pin} (nodup : (pins.map Pin.name).Nodup) {name : String} {pin : Pin} :
    findPin pins name = some pin ↔ pin ∈ pins ∧ pin.name = name := by
  constructor
  · intro isFound
    exact ⟨List.mem_of_find?_eq_some isFound, by simpa using List.find?_some isFound⟩
  · intro both
    obtain ⟨member, rfl⟩ := both
    exact findPin_of_mem nodup member

/-! ## Checked pins -/

/-- A pin whose name can be a parameter of a node's function, and that has a type. -/
structure Pin.Sound (pin : Pin) : Prop where
  isName : isGoName pin.name = true
  noKeyword : pin.name ∉ goKeywords
  notReserved : pin.name ∉ reservedPinNames
  notPredeclared : pin.name ∉ goPredeclared
  typed : Text.isBlank pin.type = false

theorem pinNameFault_eq_none_iff
    {name : String} :
    pinNameFault name = none ↔
      isGoName name = true ∧ name ∉ goKeywords ∧ name ∉ reservedPinNames ∧
        name ∉ goPredeclared := by
  rw [pinNameFault]
  by_cases isName : isGoName name = true
  · by_cases taken : name ∈ goKeywords ∨ name ∈ reservedPinNames
    · simp only [isName, Bool.not_true, Bool.false_eq_true, if_false, Bool.or_eq_true,
        decide_eq_true_eq, taken, if_true]
      exact iff_of_false nofun fun free => taken.elim free.2.1 free.2.2.1
    · have free := not_or.mp taken
      by_cases hides : name ∈ goPredeclared <;> simp [isName, free, hides]
  · simp [isName]

theorem Pin.sound_iff
    {pin : Pin} :
    pin.Sound ↔ pinNameFault pin.name = none ∧ Text.isBlank pin.type = false := by
  rw [pinNameFault_eq_none_iff]
  exact ⟨fun ⟨isName, noKeyword, notReserved, notPredeclared, typed⟩ =>
      ⟨⟨isName, noKeyword, notReserved, notPredeclared⟩, typed⟩,
    fun ⟨⟨isName, noKeyword, notReserved, notPredeclared⟩, typed⟩ =>
      ⟨isName, noKeyword, notReserved, notPredeclared, typed⟩⟩

theorem pinsFaultFrom_cons_eq_none_iff
    {seen : List String} {pin : Pin} {rest : List Pin} :
    pinsFaultFrom seen (pin :: rest) = none ↔
      pin.Sound ∧ pin.name ∉ seen ∧ pinsFaultFrom (pin.name :: seen) rest = none := by
  rw [pinsFaultFrom, Pin.sound_iff]
  cases pinNameFault pin.name with
  | some fault => simp
  | none =>
      cases Text.isBlank pin.type with
      | true => simp
      | false => by_cases listed : pin.name ∈ seen <;> simp [listed]

theorem pinsFaultFrom_eq_none_iff
    {seen : List String} {pins : List Pin} :
    pinsFaultFrom seen pins = none ↔
      (pins.map Pin.name).Nodup ∧ ∀ pin ∈ pins, pin.Sound ∧ pin.name ∉ seen := by
  induction pins generalizing seen with
  | nil => exact iff_of_true rfl ⟨List.nodup_nil, by simp⟩
  | cons first rest inductionHypothesis =>
      rw [pinsFaultFrom_cons_eq_none_iff, inductionHypothesis, List.map_cons, List.nodup_cons,
        List.forall_mem_cons]
      constructor
      · rintro ⟨sound, fresh, restNodup, restSound⟩
        refine ⟨⟨fun member => ?_, restNodup⟩, ⟨sound, fresh⟩, fun pin inRest => ?_⟩
        · obtain ⟨pin, inRest, sameName⟩ := List.mem_map.mp member
          exact (restSound pin inRest).2 (sameName ▸ List.mem_cons_self)
        · exact ⟨(restSound pin inRest).1,
            fun listed => (restSound pin inRest).2 (List.mem_cons_of_mem _ listed)⟩
      · rintro ⟨⟨firstAlone, restNodup⟩, ⟨sound, fresh⟩, restSound⟩
        refine ⟨sound, fresh, restNodup, fun pin inRest => ⟨(restSound pin inRest).1, ?_⟩⟩
        intro listed
        rcases List.mem_cons.mp listed with sameName | inSeen
        · exact firstAlone (sameName ▸ List.mem_map_of_mem inRest)
        · exact (restSound pin inRest).2 inSeen

/-- Pins pass the check when no two have one name and each is sound. -/
theorem pinsFault_eq_none_iff
    {pins : List Pin} :
    pinsFault pins = none ↔ (pins.map Pin.name).Nodup ∧ ∀ pin ∈ pins, pin.Sound := by
  rw [pinsFault, pinsFaultFrom_eq_none_iff]
  exact and_congr_right fun _ => forall₂_congr fun pin _ => and_iff_left List.not_mem_nil

/-- Pins of known names pass the check when the names do and each pin has a type. -/
theorem pinsFault_eq_none_of_names
    {pins : List Pin} {names : List String} (areNames : pins.map Pin.name = names)
    (nodup : names.Nodup) (sound : ∀ name ∈ names, pinNameFault name = none)
    (typed : ∀ pin ∈ pins, Text.isBlank pin.type = false) :
    pinsFault pins = none := by
  subst areNames
  exact pinsFault_eq_none_iff.mpr ⟨nodup, fun pin member =>
    Pin.sound_iff.mpr ⟨sound pin.name (List.mem_map_of_mem member), typed pin member⟩⟩

/-! ## Numbered pins -/

theorem numberedNames_nodup
    (stem : String) (count : Nat) :
    (numberedNames stem count).Nodup := by
  refine List.nodup_range.map ?_
  intro first second same
  have sameText := congrArg String.toList same
  rw [String.toList_append, String.toList_append] at sameText
  exact Go.toString_injective (String.toList_inj.mp (List.append_cancel_left sameText))

/-- A numbered name begins with its stem. -/
theorem not_mem_numberedNames
    {stem name : String} {count : Nat} (foreign : ¬ stem.toList <+: name.toList) :
    name ∉ numberedNames stem count := by
  intro member
  obtain ⟨index, _, rfl⟩ := List.mem_map.mp member
  rw [String.toList_append] at foreign
  exact foreign (List.prefix_append _ _)

theorem isGoName_append
    {front back : String} (isName : isGoName front = true)
    (areParts : ∀ character ∈ back.toList, isNamePart character = true) :
    isGoName (front ++ back) = true := by
  rw [isGoName] at isName ⊢
  rw [String.toList_append]
  cases isFront : front.toList with
  | nil =>
      rw [isFront] at isName
      exact absurd isName Bool.false_ne_true
  | cons first rest =>
      simp only [isFront, Bool.and_eq_true] at isName
      simp only [List.cons_append, List.all_append, Bool.and_eq_true]
      exact ⟨isName.1, isName.2, List.all_eq_true.mpr areParts⟩

/-- A stem that begins no word which a pin cannot have makes names that pins can have. -/
theorem pinNameFault_of_mem_numberedNames
    {stem name : String} {count : Nat} (isName : isGoName stem = true)
    (apart : ∀ word ∈ goKeywords ++ reservedPinNames ++ goPredeclared,
      ¬ stem.toList <+: word.toList)
    (member : name ∈ numberedNames stem count) :
    pinNameFault name = none := by
  have free : name ∉ goKeywords ++ reservedPinNames ++ goPredeclared := fun taken =>
    not_mem_numberedNames (apart name taken) member
  rw [List.mem_append, List.mem_append, not_or, not_or] at free
  refine pinNameFault_eq_none_iff.mpr ⟨?_, free.1.1, free.1.2, free.2⟩
  obtain ⟨index, _, rfl⟩ := List.mem_map.mp member
  exact isGoName_append isName fun _ => Go.isNamePart_of_mem_toString

/-! ## Pins of each kind -/

namespace Part

/-- Where a blank type is a fault, parts without faults have a type. -/
theorem isBlank_eq_false_of_fault
    {type : String} {fault : PartFault} {others : Option PartFault}
    (sound : (if Text.isBlank type then some fault else others) = none) :
    Text.isBlank type = false := by
  split_ifs at sound with isBlank
  exact Bool.eq_false_iff.mpr isBlank

theorem Code.pinsFault_eq_none
    {code : Code} (sound : code.fault = none) :
    pinsFault code.pins = none := by
  rw [fault] at sound
  split at sound
  · cases sound
  · assumption

theorem Broadcast.pins_map_name
    (part : Broadcast) :
    part.pins.map Pin.name = "input" :: part.outputNames := by
  rw [pins, List.map_cons, List.map_map]
  exact congrArg _ (List.map_id _)

theorem Broadcast.pinsFault_eq_none
    {part : Broadcast} (sound : part.fault = none) :
    pinsFault part.pins = none := by
  have typed := isBlank_eq_false_of_fault sound
  refine pinsFault_eq_none_of_names part.pins_map_name
    (List.nodup_cons.mpr ⟨not_mem_numberedNames (by decide), numberedNames_nodup _ _⟩)
    (List.forall_mem_cons.mpr ⟨by decide, fun name =>
      pinNameFault_of_mem_numberedNames (by decide) (by decide +kernel)⟩) ?_
  refine List.forall_mem_cons.mpr ⟨typed, ?_⟩
  intro pin member
  obtain ⟨name, _, rfl⟩ := List.mem_map.mp member
  exact typed

theorem Join.pins_map_name
    (part : Join) :
    part.pins.map Pin.name = part.inputNames ++ ["output"] := by
  rw [pins, List.map_append, List.map_map]
  exact congrArg (· ++ ["output"]) (List.map_id _)

theorem Join.pinsFault_eq_none
    {part : Join} (sound : part.fault = none) :
    pinsFault part.pins = none := by
  have typed := isBlank_eq_false_of_fault sound
  have nodup : (part.inputNames ++ ["output"]).Nodup := by
    refine List.nodup_append'.mpr
      ⟨numberedNames_nodup _ _, List.nodup_singleton _, fun name member atOutput => ?_⟩
    rw [List.mem_singleton.mp atOutput] at member
    exact not_mem_numberedNames (by decide) member
  refine pinsFault_eq_none_of_names part.pins_map_name nodup ?_ ?_
  · intro name member
    rcases List.mem_append.mp member with isInput | isOutput
    · exact pinNameFault_of_mem_numberedNames (by decide) (by decide +kernel) isInput
    · rw [List.mem_singleton.mp isOutput]
      decide
  · intro pin member
    rcases List.mem_append.mp member with isInput | isOutput
    · obtain ⟨name, _, rfl⟩ := List.mem_map.mp isInput
      exact typed
    · rw [List.mem_singleton.mp isOutput]
      exact typed

theorem Filter.pinsFault_eq_none
    {part : Filter} (sound : part.fault = none) :
    pinsFault part.pins = none := by
  have typed := isBlank_eq_false_of_fault sound
  have areNames : part.pins.map Pin.name = ["input", "match", "nomatch"] := rfl
  refine pinsFault_eq_none_of_names areNames (by decide) (by decide) ?_
  simp only [pins, List.forall_mem_cons, List.not_mem_nil, false_implies, implies_true, and_true]
  exact ⟨typed, typed, typed⟩

theorem Sink.pinsFault_eq_none
    {part : Sink} (sound : part.fault = none) :
    pinsFault part.pins = none := by
  have typed := isBlank_eq_false_of_fault sound
  have isName : part.pins.map Pin.name = ["input"] := rfl
  exact pinsFault_eq_none_of_names isName (by decide) (by decide)
    (List.forall_mem_singleton.mpr typed)

theorem HttpServer.pinsFault_eq_none :
    pinsFault HttpServer.pins = none := by
  decide

/-! ## Made parts -/

/-- The pins of a part that is made pass the check, whether or not they are checked. -/
theorem pinsFault_eq_none_of_ofConfig
    {kind : PartKind} {config : Value} {part : Part}
    (made : Part.ofConfig kind config = .ok part) :
    pinsFault part.pins = none := by
  cases kind with
  | broadcast =>
      obtain ⟨found, foundMade, rfl⟩ := map_eq_ok_iff.mp made
      exact Broadcast.pinsFault_eq_none (check_of_readConfig foundMade)
  | code =>
      obtain ⟨found, foundMade, rfl⟩ := map_eq_ok_iff.mp made
      exact Code.pinsFault_eq_none (check_of_readConfig foundMade)
  | filter =>
      obtain ⟨found, foundMade, rfl⟩ := map_eq_ok_iff.mp made
      exact Filter.pinsFault_eq_none (check_of_readConfig foundMade)
  | httpServer =>
      obtain ⟨found, _, rfl⟩ := map_eq_ok_iff.mp made
      exact HttpServer.pinsFault_eq_none
  | join =>
      obtain ⟨found, foundMade, rfl⟩ := map_eq_ok_iff.mp made
      exact Join.pinsFault_eq_none (check_of_readConfig foundMade)
  | sink =>
      obtain ⟨found, foundMade, rfl⟩ := map_eq_ok_iff.mp made
      exact Sink.pinsFault_eq_none (check_of_readConfig foundMade)

end Part

namespace Registry

variable {registry : Registry} {key : String} {config : Value} {part : Part}

theorem pinsFault_eq_none_of_construct
    (made : registry.construct key config = .ok part) :
    pinsFault part.pins = none := by
  obtain ⟨kind, _, ofKind⟩ := construct_eq_ok_iff.mp made
  exact Part.pinsFault_eq_none_of_ofConfig ofKind

/-- The pins of a part that a registry makes have different names. -/
theorem pins_nodup_of_construct
    (made : registry.construct key config = .ok part) :
    (part.pins.map Pin.name).Nodup :=
  (pinsFault_eq_none_iff.mp (pinsFault_eq_none_of_construct made)).1

/-- Each pin has one entry in the connections of a new node. -/
theorem keys_unbound_perm
    (nodup : (part.pins.map Pin.name).Nodup) :
    (Node.unbound part).keys.Perm (part.pins.map Pin.name) := by
  refine (List.perm_ext_iff_of_nodup (Table.keys_nodup _) nodup).mpr fun name => ?_
  rw [Table.mem_keys_iff, Table.contains, Node.get?_unbound]
  split_ifs with listed <;> simp [listed]

/-- The pins of a part that a registry makes are sound and have different names. So a new node has
one entry for each of them, and each is found by its name. -/
theorem pins_sound_of_construct
    (made : registry.construct key config = .ok part) :
    pinsFault part.pins = none ∧
      ((part.pins.map Pin.name).Nodup ∧ ∀ pin ∈ part.pins, pin.Sound) ∧
      (Node.unbound part).keys.Perm (part.pins.map Pin.name) ∧
      ∀ pin ∈ part.pins,
        (Node.unbound part).get? pin.name = some none ∧ part.pin? pin.name = some pin := by
  have noFault := pinsFault_eq_none_of_construct made
  have sound := pinsFault_eq_none_iff.mp noFault
  refine ⟨noFault, sound, keys_unbound_perm sound.1, fun pin member => ⟨?_, ?_⟩⟩
  · rw [Node.get?_unbound, if_pos (List.mem_map_of_mem member)]
  · exact findPin_of_mem sound.1 member

/-- A join with twelve inputs. -/
theorem pins_sound_of_construct_join :
    let part := Part.join ⟨"int", 12⟩
    builtin.construct "Join" (.object [("inputs", .whole 12), ("type", .string "int")]) =
        .ok part ∧
      pinsFault part.pins = none ∧ part.pin? "input11" = some (.input "input11" "int") := by
  intro part
  have made : builtin.construct "Join" (.object [("inputs", .whole 12), ("type", .string "int")]) =
      .ok part := by
    rfl
  obtain ⟨noFault, _, _, found⟩ := pins_sound_of_construct made
  exact ⟨made, noFault, (found (.input "input11" "int") (by decide +kernel)).2⟩

end Registry

end Pipework
