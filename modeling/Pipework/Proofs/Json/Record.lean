import Pipework.Proofs.Table
import Pipework.Proofs.Json.Text
import Pipework.Json.Shape

/-!
# Values and records read back

A tree that was read from a written value gives the value again when its objects have their
members in key order, without repetition, which is the form of every value that is kept
(`Value.Kept`). A list or map of records is read back when each record is, and a record
is put together from the members that stand in the object.
-/

namespace Pipework.Json

/-! ## Kept values -/

mutual

/-- The members of each object of a value stand in key order, none twice. -/
def Value.Kept : Value → Prop
  | .array items => KeptItems items
  | .object members =>
      members.Pairwise (fun first second => first.1 < second.1) ∧ KeptMembers members
  | .null => True
  | .bool _ => True
  | .number _ => True
  | .string _ => True

/-- Each item is a kept value. -/
def KeptItems : List Value → Prop
  | [] => True
  | item :: rest => item.Kept ∧ KeptItems rest

/-- The value of each member is a kept value. -/
def KeptMembers : List (String × Value) → Prop
  | [] => True
  | (_, value) :: rest => value.Kept ∧ KeptMembers rest

end

theorem keptItems_iff
    {items : List Value} :
    KeptItems items ↔ ∀ item ∈ items, item.Kept := by
  induction items with
  | nil => simp [KeptItems]
  | cons item rest inductionHypothesis =>
      rw [KeptItems, inductionHypothesis, List.forall_mem_cons]

theorem insertMember_last
    {key : String} {value : Value} {members : List (String × Value)}
    (last : ∀ member ∈ members, member.1 < key) :
    Value.insertMember key value members = members ++ [(key, value)] := by
  induction members with
  | nil => rfl
  | cons head rest inductionHypothesis =>
      obtain ⟨headKey, found⟩ := head
      obtain ⟨headBefore, restBefore⟩ := List.forall_mem_cons.mp last
      have notBefore : ¬ key < headKey := String.lt_asymm headBefore
      have different : key ≠ headKey := by
        intro same
        subst same
        exact String.lt_irrefl key headBefore
      rw [Value.insertMember, if_neg notBefore, if_neg different,
        inductionHypothesis restBefore]
      rfl

theorem foldl_insertMember
    {front back : List (String × Value)}
    (ordered : (front ++ back).Pairwise (fun first second => first.1 < second.1)) :
    back.foldl (fun sorted member => Value.insertMember member.1 member.2 sorted) front =
      front ++ back := by
  induction back generalizing front with
  | nil => rw [List.foldl_nil, List.append_nil]
  | cons head rest inductionHypothesis =>
      have last : ∀ member ∈ front, member.1 < head.1 := by
        intro member inFront
        exact (List.pairwise_append.mp ordered).2.2 member inFront head List.mem_cons_self
      rw [List.foldl_cons, insertMember_last last, inductionHypothesis, List.append_assoc]
      · rfl
      · rw [List.append_assoc]
        exact ordered

/-- Members in key order are sorted already. -/
theorem sortMembers_of_ordered
    {members : List (String × Value)}
    (ordered : members.Pairwise (fun first second => first.1 < second.1)) :
    Value.sortMembers members = members :=
  foldl_insertMember (by rw [List.nil_append]; exact ordered)

mutual

theorem value_reading :
    ∀ {value : Value}, value.Kept → value.reading.value = .ok value
  | .null, _ => rfl
  | .bool _, _ => rfl
  | .number _, _ => rfl
  | .string _, _ => rfl
  | .array items, kept => by
      simp only [Value.reading, Reading.value, valueItems_reading kept]
  | .object members, kept => by
      obtain ⟨ordered, membersKept⟩ := kept
      simp only [Value.reading, Reading.value, valueMembers_reading membersKept,
        sortMembers_of_ordered ordered]

theorem valueItems_reading :
    ∀ {items : List Value}, KeptItems items → valueItems (readingItems items) = .ok items
  | [], _ => rfl
  | item :: rest, kept => by
      rw [readingItems, valueItems, value_reading kept.1, valueItems_reading kept.2]

theorem valueMembers_reading :
    ∀ {members : List (String × Value)}, KeptMembers members →
      valueMembers (readingMembers members) = .ok members
  | [], _ => rfl
  | (key, value) :: rest, kept => by
      rw [readingMembers, valueMembers, value_reading kept.1, valueMembers_reading kept.2]

end

namespace Decoder

/-! ## Single values, lists and maps -/

theorem text_reading
    (text : String) :
    Decoder.text (Value.string text).reading = .ok text := rfl

theorem flag_reading
    (flag : Bool) :
    Decoder.flag (Value.bool flag).reading = .ok flag := rfl

theorem any_reading
    {value : Value} (kept : value.Kept) :
    Decoder.any value.reading = .ok value := by
  rw [any, value_reading kept]

theorem wholeBetween_reading
    {low high value : Int} (expected : String) (inRange : low ≤ value ∧ value ≤ high) :
    Decoder.wholeBetween low high expected (Value.whole value).reading = .ok value := by
  show (if low ≤ value ∧ value ≤ high then _ else _) = _
  rw [if_pos inRange]

theorem unsigned32_reading
    (value : UInt32) :
    Decoder.unsigned32 (Value.whole value.toNat).reading = .ok value := by
  have below := value.toNat_lt
  have size : UInt32.size = 2 ^ 32 := rfl
  rw [unsigned32, wholeBetween_reading "u32" ⟨by omega, by omega⟩]
  simp [Except.map]

theorem count_reading
    (value : UInt64) :
    Decoder.count (Value.whole value.toNat).reading = .ok value := by
  have below := value.toNat_lt
  have size : UInt64.size = 2 ^ 64 := rfl
  rw [count, wholeBetween_reading "usize" ⟨by omega, by omega⟩]
  simp [Except.map]

theorem signed64_reading
    (value : Int64) :
    Decoder.signed64 (Value.whole value.toInt).reading = .ok value := by
  rw [signed64, wholeBetween_reading "i64" ⟨value.minValue_le_toInt, value.toInt_le⟩]
  simp [Except.map]

variable {α : Type} {decoder : Decoder α} {encode : α → Value}

/-- A list of records is read back when each record is. -/
theorem list_reading
    {items : List α} (each : ∀ item ∈ items, decoder (encode item).reading = .ok item) :
    Decoder.list decoder (Value.array (items.map encode)).reading = .ok items := by
  rw [Value.reading, list]
  induction items with
  | nil => rfl
  | cons item rest inductionHypothesis =>
      obtain ⟨first, others⟩ := List.forall_mem_cons.mp each
      rw [List.map_cons, readingItems, Decoder.items, first, inductionHypothesis others]

/-- A map of records is read back when each record is. -/
theorem map_reading
    {entries : List (String × α)}
    (each : ∀ entry ∈ entries, decoder (encode entry.2).reading = .ok entry.2) :
    Decoder.map decoder
        (Value.object (entries.map fun entry => (entry.1, encode entry.2))).reading =
      .ok entries := by
  rw [Value.reading, map]
  induction entries with
  | nil => rfl
  | cons entry rest inductionHypothesis =>
      obtain ⟨first, others⟩ := List.forall_mem_cons.mp each
      rw [List.map_cons, readingMembers, Decoder.members, first, inductionHypothesis others]

end Decoder

/-! ## Records -/

mutual

/-- A tree that was read from a value has no fault for whoever passes it over. -/
theorem skipError_reading :
    ∀ value : Value, value.reading.skipError = none
  | .null => rfl
  | .bool _ => rfl
  | .number _ => rfl
  | .string _ => rfl
  | .array items => by
      simp only [Value.reading, Reading.skipError, skipErrorItems_reading items, Option.bind_none]
  | .object members => by
      simp only [Value.reading, Reading.skipError, skipErrorMembers_reading members,
        Option.bind_none]

theorem skipErrorItems_reading :
    ∀ items : List Value, skipErrorItems (readingItems items) = none
  | [] => rfl
  | item :: rest => by
      rw [readingItems, skipErrorItems, skipError_reading item, skipErrorItems_reading rest]

theorem skipErrorMembers_reading :
    ∀ members : List (String × Value), skipErrorMembers (readingMembers members) = none
  | [] => rfl
  | (key, value) :: rest => by
      rw [readingMembers, skipErrorMembers, skipError_reading value,
        skipErrorMembers_reading rest]

end

namespace Fields

variable {α β : Type}

theorem find_readingMembers
    (members : List (String × Value)) (name : String) :
    find (readingMembers members) name = (Table.lookup name members).map Value.reading := by
  induction members with
  | nil => rfl
  | cons head rest inductionHypothesis =>
      obtain ⟨key, value⟩ := head
      rw [readingMembers, find, List.find?_cons, Table.lookup]
      by_cases same : name = key
      · simp [same]
      · have notFound : decide (some key = some name) = false := by
          simp [eq_comm, same]
        rw [if_neg same, ← inductionHypothesis, find]
        simp only [notFound]

/-- The members of an object give a value of a record: those that the record knows are right,
and the record is put together from them. -/
structure Reads (fields : Fields α) (members : List (String × Value)) (value : α) : Prop where
  checked : ∀ spec ∈ fields.specs, ∀ found, Table.lookup spec.name members = some found →
    spec.check found.reading = none
  built : fields.build (find (readingMembers members)) = .ok value

namespace Reads

variable {members : List (String × Value)} {name : String} {decoder : Decoder α}
  {found : Value} {value default : α}

theorem check_eq_none
    (decoded : decoder found.reading = .ok value) :
    checkWith decoder found.reading = none := by
  rw [checkWith, decoded]

theorem required
    (present : Table.lookup name members = some found)
    (decoded : decoder found.reading = .ok value) :
    (Fields.required name decoder).Reads members value where
  checked spec isSpec other otherPresent := by
    rw [List.mem_singleton.mp isSpec] at otherPresent ⊢
    rw [present] at otherPresent
    rw [← Option.some.inj otherPresent]
    exact check_eq_none decoded
  built := by
    simp only [Fields.required, find_readingMembers, present, Option.map_some]
    exact decoded

theorem optional
    (present : Table.lookup name members = some found)
    (decoded : decoder found.reading = .ok value) :
    (Fields.optional name decoder default).Reads members value where
  checked spec isSpec other otherPresent := by
    rw [List.mem_singleton.mp isSpec] at otherPresent ⊢
    rw [present] at otherPresent
    rw [← Option.some.inj otherPresent]
    exact check_eq_none decoded
  built := by
    simp only [Fields.optional, find_readingMembers, present, Option.map_some]
    exact decoded

theorem absent
    (missing : Table.lookup name members = none) :
    (Fields.optional name decoder default).Reads members default where
  checked spec isSpec found present := by
    rw [List.mem_singleton.mp isSpec, missing] at present
    simp at present
  built := by
    simp only [Fields.optional, find_readingMembers, missing, Option.map_none]

theorem seq
    {first : Fields (α → β)} {second : Fields α} {combine : α → β}
    (firstReads : first.Reads members combine) (secondReads : second.Reads members value) :
    (first <*> second).Reads members (combine value) where
  checked spec isSpec := by
    rcases List.mem_append.mp isSpec with inFirst | inSecond
    · exact firstReads.checked spec inFirst
    · exact secondReads.checked spec inSecond
  built := by
    show (do
      let combine ← first.build _
      let value ← second.build _
      return combine value) = _
    rw [firstReads.built, secondReads.built]
    rfl

theorem map
    {fields : Fields α} (combine : α → β) (reads : fields.Reads members value) :
    (combine <$> fields).Reads members (combine value) := by
  have nothing : (Fields.pure combine).Reads members combine :=
    ⟨fun _ isSpec => absurd isSpec List.not_mem_nil, rfl⟩
  exact seq nothing reads

end Reads

theorem checkMembers_reading
    {specs : List FieldSpec} {seen : List String} {members : List (String × Value)}
    (keysNodup : (members.map Prod.fst).Nodup)
    (fresh : ∀ member ∈ members, member.1 ∉ seen)
    (checked : ∀ spec ∈ specs, ∀ found, (spec.name, found) ∈ members →
      spec.check found.reading = none) :
    checkMembers specs seen (readingMembers members) = none := by
  induction members generalizing seen with
  | nil => rfl
  | cons head rest inductionHypothesis =>
      obtain ⟨key, value⟩ := head
      obtain ⟨keyFresh, restNodup⟩ := List.nodup_cons.mp keysNodup
      obtain ⟨keyNew, restNew⟩ := List.forall_mem_cons.mp fresh
      have restChecked : ∀ spec ∈ specs, ∀ found, (spec.name, found) ∈ rest →
          spec.check found.reading = none :=
        fun spec isSpec found member =>
          checked spec isSpec found (List.mem_cons_of_mem _ member)
      rw [readingMembers, checkMembers]
      -- A key that no field has is only passed over; the others join those that were seen.
      cases known : specs.find? fun spec => spec.name = key with
      | none =>
          simp only [skipError_reading]
          exact inductionHypothesis restNodup restNew restChecked
      | some spec =>
          have isSpec := List.mem_of_find?_eq_some known
          have named : spec.name = key := by
            have fits := List.find?_some known
            exact of_decide_eq_true fits
          have right := checked spec isSpec value (named ▸ List.mem_cons_self)
          simp only [keyNew, if_false, right]
          refine inductionHypothesis restNodup ?_ restChecked
          intro member inRest
          rw [List.mem_cons, not_or]
          refine ⟨?_, restNew member inRest⟩
          intro same
          subst same
          exact keyFresh (List.mem_map.mpr ⟨member, inRest, rfl⟩)

/-- An object without repeated members is read as the record that its members give. -/
theorem record_reading
    {fields : Fields α} {members : List (String × Value)} {value : α}
    (name : String) (surplus : Nat → Nat → DecodeError)
    (keysNodup : (members.map Prod.fst).Nodup) (reads : fields.Reads members value) :
    fields.record name surplus (Value.object members).reading = .ok value := by
  have checked : checkMembers fields.specs [] (readingMembers members) = none := by
    refine checkMembers_reading keysNodup (fun _ _ => List.not_mem_nil) ?_
    intro spec isSpec found member
    exact reads.checked spec isSpec found (Table.lookup_of_mem keysNodup member)
  simp only [Value.reading, record, ofMembers, checked]
  exact reads.built

end Fields

end Pipework.Json
