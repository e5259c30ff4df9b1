import Mathlib.Data.List.Permutation
import Pipework.Proofs.Except
import Pipework.Proofs.Json.Depth
import Pipework.Request.Json

/-!
# Requests written and read again

Whatever form a request was read from, it is written as the object of all its members, and that
object is read as the same request (`Request.ofText_value_inverse`). The only member that needs
care is the part of a node, an arbitrary value: it was read from a text, so it is in the form in
which values are kept and nests no deeper than a reader allows
(`Request.writable_part_of_ofText`).
-/

namespace Pipework

open Json (Decoder Document Fields Reading Value)
open Json.Fields.Reads (required optional)

/-! ## Records that were read -/

namespace Json.Fields

variable {α β : Type} {find : String → Option Reading}

theorem build_seq_eq_ok_iff
    {first : Fields (α → β)} {second : Fields α} {value : β} :
    (first <*> second).build find = .ok value ↔
      ∃ combine, first.build find = .ok combine ∧
        ∃ argument, second.build find = .ok argument ∧ value = combine argument := by
  show (do
    let combine ← first.build find
    let argument ← second.build find
    return combine argument) = _ ↔ _
  simp only [bind_eq_ok_iff, pure_eq_ok_iff]

theorem build_map_eq_ok_iff
    {fields : Fields α} {combine : α → β} {value : β} :
    (combine <$> fields).build find = .ok value ↔
      ∃ argument, fields.build find = .ok argument ∧ value = combine argument := by
  show ((Fields.pure combine : Fields (α → β)) <*> fields).build find = _ ↔ _
  rw [build_seq_eq_ok_iff]
  constructor
  · rintro ⟨_, same, argument, built, rfl⟩
    rw [← Except.ok.inj same]
    exact ⟨argument, built, rfl⟩
  · rintro ⟨argument, built, rfl⟩
    exact ⟨combine, rfl, argument, built, rfl⟩

theorem mem_of_nameItems
    {wrongLength surplus : Nat → DecodeError} {stop : Option Fault} {index : Nat}
    {specs : List FieldSpec} {items : List Reading} {named : List (Option String × Reading)}
    (isNamed : nameItems wrongLength surplus stop index specs items = .ok named) :
    ∀ member ∈ named, member.2 ∈ items := by
  induction specs generalizing index items named with
  | nil =>
      cases items with
      | nil =>
          cases stop with
          | some fault => exact nomatch isNamed
          | none =>
              rw [← Except.ok.inj isNamed]
              exact fun _ member => absurd member List.not_mem_nil
      | cons item rest => exact nomatch isNamed
  | cons spec specs inductionHypothesis =>
      cases items with
      | nil =>
          rw [nameItems.eq_def] at isNamed
          cases stop with
          | some fault => exact nomatch isNamed
          | none =>
              by_cases leftOff : spec.optional = true
              · simp only [leftOff, if_true] at isNamed
                exact inductionHypothesis isNamed
              · simp only [leftOff] at isNamed
                exact nomatch isNamed
      | cons item rest =>
          rw [nameItems] at isNamed
          cases checked : spec.check item with
          | some error =>
              rw [checked] at isNamed
              exact nomatch isNamed
          | none =>
              simp only [checked] at isNamed
              cases others : nameItems wrongLength surplus stop (index + 1) specs rest with
              | error error =>
                  rw [others] at isNamed
                  exact nomatch isNamed
              | ok more =>
                  rw [others] at isNamed
                  rw [← Except.ok.inj isNamed]
                  refine List.forall_mem_cons.mpr ⟨List.mem_cons_self, ?_⟩
                  intro member inMore
                  exact List.mem_cons_of_mem _ (inductionHypothesis others member inMore)

/-- The trees that a record is put together from stand one level below its own. -/
theorem build_of_record
    {fields : Fields α} {name : String} {surplus : Nat → Nat → DecodeError} {tree : Reading}
    {room : Nat} {value : α} (within : tree.Within room)
    (read : fields.record name surplus tree = .ok value) :
    ∃ find : String → Option Reading,
      (∀ key found, find key = some found → found.Within (room - 1)) ∧
        fields.build find = .ok value := by
  have found_mem {members : List (Option String × Reading)} {key : String} {found : Reading}
      (isFound : Fields.find members key = some found) : ∃ member ∈ members, member.2 = found := by
    obtain ⟨member, present, same⟩ := Option.map_eq_some_iff.mp isFound
    exact ⟨member, List.mem_of_find?_eq_some present, same⟩
  cases tree with
  | object members stop =>
      have each := withinMembers_iff.mp within.2
      rw [record, ofMembers.eq_def] at read
      split at read
      · cases read
      · cases read
      · refine ⟨Fields.find members, ?_, read⟩
        intro key found isFound
        obtain ⟨member, inMembers, rfl⟩ := found_mem isFound
        exact each member inMembers
  | array items stop =>
      have each := withinItems_iff.mp within.2
      rw [record, ofItems] at read
      split at read
      · cases read
      · rename_i named isNamed
        refine ⟨Fields.find named, ?_, read⟩
        intro key found isFound
        obtain ⟨member, inNamed, rfl⟩ := found_mem isFound
        exact each member.2 (mem_of_nameItems isNamed member inNamed)
  | null => cases read
  | bool value => cases read
  | number value => cases read
  | string value => cases read
  | unreadable fault => cases read

end Json.Fields

/-! ## The part of a request -/

open Json.Fields (build_map_eq_ok_iff build_of_record build_seq_eq_ok_iff)

/-- The part in a request that has one. -/
def Request.part? : Request → Option Value
  | .createNode request => some request.part
  | .setNodeProperties request => some request.part
  | .createChannel _ => none
  | .connectPin _ => none
  | .disconnectPin _ => none
  | .deleteNode _ => none
  | .deleteChannel _ => none
  | .setGraphProperties _ => none
  | .setPosition _ => none
  | .save => none

/-- A value is in the form in which values are kept, and as far as its numbers are whole it can
be written with so much room. -/
structure Writable (room : Nat) (value : Value) : Prop where
  kept : value.Kept
  fits : value.isIntegral = true → value.Fits room

theorem writable_of_build
    {find : String → Option Reading} {room : Nat} {part : Value}
    (within : ∀ key found, find key = some found → found.Within room)
    (built : (Fields.optional "part" Decoder.any .null).build find = .ok part) :
    Writable room part := by
  simp only [Fields.optional] at built
  cases present : find "part" with
  | none =>
      rw [present] at built
      rw [← Except.ok.inj built]
      exact ⟨trivial, fun _ => trivial⟩
  | some tree =>
      simp only [present, Decoder.any] at built
      cases isValue : tree.value with
      | error error =>
          rw [isValue] at built
          cases built
      | ok value =>
          rw [isValue] at built
          rw [← Except.ok.inj built]
          exact ⟨Json.kept_of_value isValue, Json.fits_of_value (within "part" tree present) isValue⟩

theorem CreateNode.writable_part
    {find : String → Option Reading} {room : Nat} {request : CreateNode}
    (within : ∀ key found, find key = some found → found.Within room)
    (built : CreateNode.fields.build find = .ok request) :
    Writable room request.part := by
  obtain ⟨_, untilX, _, _, rfl⟩ := build_seq_eq_ok_iff.mp built
  obtain ⟨_, untilMultiplicity, _, _, rfl⟩ := build_seq_eq_ok_iff.mp untilX
  obtain ⟨_, untilWait, _, _, rfl⟩ := build_seq_eq_ok_iff.mp untilMultiplicity
  obtain ⟨_, untilEnabled, _, _, rfl⟩ := build_seq_eq_ok_iff.mp untilWait
  obtain ⟨_, untilPart, _, _, rfl⟩ := build_seq_eq_ok_iff.mp untilEnabled
  obtain ⟨_, untilType, part, partBuilt, rfl⟩ := build_seq_eq_ok_iff.mp untilPart
  obtain ⟨_, named, _, _, rfl⟩ := build_seq_eq_ok_iff.mp untilType
  obtain ⟨_, _, rfl⟩ := build_map_eq_ok_iff.mp named
  exact writable_of_build within partBuilt

theorem SetNodeProperties.writable_part
    {find : String → Option Reading} {room : Nat} {request : SetNodeProperties}
    (within : ∀ key found, find key = some found → found.Within room)
    (built : SetNodeProperties.fields.build find = .ok request) :
    Writable room request.part := by
  obtain ⟨_, untilX, _, _, rfl⟩ := build_seq_eq_ok_iff.mp built
  obtain ⟨_, untilPart, _, _, rfl⟩ := build_seq_eq_ok_iff.mp untilX
  obtain ⟨_, untilType, part, partBuilt, rfl⟩ := build_seq_eq_ok_iff.mp untilPart
  obtain ⟨_, untilMultiplicity, _, _, rfl⟩ := build_seq_eq_ok_iff.mp untilType
  obtain ⟨_, untilWait, _, _, rfl⟩ := build_seq_eq_ok_iff.mp untilMultiplicity
  obtain ⟨_, untilEnabled, _, _, rfl⟩ := build_seq_eq_ok_iff.mp untilWait
  obtain ⟨_, untilName, _, _, rfl⟩ := build_seq_eq_ok_iff.mp untilEnabled
  obtain ⟨_, named, _, _, rfl⟩ := build_seq_eq_ok_iff.mp untilName
  obtain ⟨_, _, rfl⟩ := build_map_eq_ok_iff.mp named
  exact writable_of_build within partBuilt

namespace Request

theorem behindTag_eq_ok_iff
    {α : Type} {name : String} {fields : Fields α} {make : α → Request} {tree : Reading}
    {request : Request} :
    behindTag name fields make tree = .ok request ↔
      ∃ value, fields.record name Json.surplusBehindTag tree = .ok value ∧
        make value = request := by
  rw [behindTag, map_eq_ok_iff]

theorem eq_save_of_saveDecoder
    {tree : Reading} {request : Request} (read : saveDecoder tree = .ok request) :
    request = .save := by
  unfold saveDecoder at read
  split at read
  · exact nomatch read
  · exact (Except.ok.inj read).symm

theorem writable_part_of_known
    {entry : String × Decoder Request} (known : entry ∈ decoders) {tree : Reading} {room : Nat}
    (within : tree.Within room) {request : Request} (read : entry.2 tree = .ok request)
    {part : Value} (holds : request.part? = some part) :
    Writable (room - 1) part := by
  have partless {α : Type} {name : String} {fields : Fields α} {make : α → Request}
      (noPart : ∀ value, (make value).part? = none)
      (read : behindTag name fields make tree = .ok request) : Writable (room - 1) part := by
    obtain ⟨value, _, rfl⟩ := behindTag_eq_ok_iff.mp read
    rw [noPart] at holds
    exact nomatch holds
  simp only [decoders, List.mem_cons, List.not_mem_nil, or_false] at known
  rcases known with rfl | rfl | rfl | rfl | rfl | rfl | rfl | rfl | rfl | rfl
  · obtain ⟨value, isRecord, rfl⟩ := behindTag_eq_ok_iff.mp read
    obtain ⟨find, eachWithin, built⟩ := build_of_record within isRecord
    rw [← Option.some.inj holds]
    exact value.writable_part eachWithin built
  · exact partless (fun _ => rfl) read
  · exact partless (fun _ => rfl) read
  · exact partless (fun _ => rfl) read
  · exact partless (fun _ => rfl) read
  · exact partless (fun _ => rfl) read
  · obtain ⟨value, isRecord, rfl⟩ := behindTag_eq_ok_iff.mp read
    obtain ⟨find, eachWithin, built⟩ := build_of_record within isRecord
    rw [← Option.some.inj holds]
    exact value.writable_part eachWithin built
  · exact partless (fun _ => rfl) read
  · exact partless (fun _ => rfl) read
  · rw [eq_save_of_saveDecoder read] at holds
    exact nomatch holds

theorem known_of_tagDecoder
    {tree : Reading} {content : Decoder Request} (isTag : tagDecoder tree = .ok content) :
    ∃ entry ∈ decoders, entry.2 = content := by
  cases tree with
  | string name =>
      cases found : findDecoder? name with
      | none =>
          simp only [tagDecoder, found] at isTag
          exact nomatch isTag
      | some decoder =>
          simp only [tagDecoder, found] at isTag
          obtain ⟨entry, present, same⟩ := Option.map_eq_some_iff.mp found
          rw [← Except.ok.inj isTag]
          exact ⟨entry, List.mem_of_find?_eq_some present, same⟩
  | null => exact nomatch isTag
  | bool value => exact nomatch isTag
  | number value => exact nomatch isTag
  | array items stop => exact nomatch isTag
  | object members stop => exact nomatch isTag
  | unreadable fault => exact nomatch isTag

theorem known_of_readTag
    {found : Option (Decoder Request)} {members : List (Option String × Reading)}
    {content : Decoder Request} (isTag : readTag found members = .ok (some content)) :
    found = some content ∨ ∃ entry ∈ decoders, entry.2 = content := by
  induction members generalizing found with
  | nil => exact .inl (Except.ok.inj isTag)
  | cons member rest inductionHypothesis =>
      obtain ⟨key?, tree⟩ := member
      cases key? with
      | none => exact nomatch isTag
      | some key =>
          rw [readTag] at isTag
          by_cases op : key = "op"
          · rw [if_pos op] at isTag
            by_cases twice : found.isSome = true
            · rw [if_pos twice] at isTag
              exact nomatch isTag
            · rw [if_neg twice] at isTag
              cases tag : tagDecoder tree with
              | error error =>
                  rw [tag] at isTag
                  exact nomatch isTag
              | ok decoder =>
                  rw [tag] at isTag
                  rcases inductionHypothesis isTag with same | known
                  · rw [← Option.some.inj same]
                    exact .inr (known_of_tagDecoder tag)
                  · exact .inr known
          · rw [if_neg op] at isTag
            cases isValue : tree.value with
            | error error =>
                rw [isValue] at isTag
                exact nomatch isTag
            | ok value =>
                rw [isValue] at isTag
                exact inductionHypothesis isTag

theorem decoder_object_eq_ok_iff
    {members : List (Option String × Reading)} {stop : Option Json.Fault} {request : Request} :
    decoder (.object members stop) = .ok request ↔
      stop = none ∧ ∃ content, readTag none members = .ok (some content) ∧
        content (.object (members.filter fun member => member.1 ≠ some "op") none) =
          .ok request := by
  cases isTag : readTag none members with
  | error error => simp [decoder, isTag]
  | ok found => cases found <;> cases stop <;> simp [decoder, isTag]

theorem decoder_array_eq_ok_iff
    {tag : Reading} {items : List Reading} {stop : Option Json.Fault} {request : Request} :
    decoder (.array (tag :: items) stop) = .ok request ↔
      ∃ content, tagDecoder tag = .ok content ∧
        (∃ value, (Reading.array items stop).value = .ok value) ∧
        content (.array items none) = .ok request := by
  cases isTag : tagDecoder tag with
  | error error => simp [decoder, isTag]
  | ok content => cases isValue : (Reading.array items stop).value <;> simp [decoder, isTag, isValue]

theorem writable_part_of_decoder
    {tree : Reading} {room : Nat} (within : tree.Within room) {request : Request}
    (read : decoder tree = .ok request) {part : Value} (holds : request.part? = some part) :
    Writable (room - 1) part := by
  cases tree with
  | object members stop =>
      obtain ⟨_, content, isTag, isContent⟩ := decoder_object_eq_ok_iff.mp read
      rcases known_of_readTag isTag with notFound | ⟨entry, known, rfl⟩
      · exact nomatch notFound
      · have eachWithin := Json.withinMembers_iff.mp within.2
        have restWithin : (Reading.object
            (members.filter fun member => member.1 ≠ some "op") none).Within room :=
          ⟨within.1, Json.withinMembers_iff.mpr fun member inRest =>
            eachWithin member (List.mem_filter.mp inRest).1⟩
        exact writable_part_of_known known restWithin isContent holds
  | array items stop =>
      cases items with
      | nil => cases stop <;> exact nomatch read
      | cons tag items =>
          obtain ⟨content, isTag, _, isContent⟩ := decoder_array_eq_ok_iff.mp read
          obtain ⟨entry, known, rfl⟩ := known_of_tagDecoder isTag
          have restWithin : (Reading.array items none).Within room := ⟨within.1, within.2.2⟩
          exact writable_part_of_known known restWithin isContent holds
  | null => exact nomatch read
  | bool value => exact nomatch read
  | number value => exact nomatch read
  | string value => exact nomatch read
  | unreadable fault => exact nomatch read

/-- The part of a request that was read from a text can be written into one. -/
theorem writable_part_of_ofText
    {text : String} {request : Request} (read : ofText text = .ok request) {part : Value}
    (holds : request.part? = some part) :
    Writable (Json.maxDepth - 1) part := by
  rw [ofText, ofDocument] at read
  split at read
  · exact nomatch read
  · exact nomatch read
  · rename_i isRequest _
    rw [Except.ok.inj read] at isRequest
    exact writable_part_of_decoder (Json.ofText_within text) isRequest holds

/-! ## Requests that were written -/

theorem fits_members
    {request : Request} {room : Nat}
    (partFits : ∀ part, request.part? = some part → part.Fits room) :
    Json.FitsMembers room request.members := by
  cases request with
  | createNode request =>
      exact ⟨trivial, trivial, partFits _ rfl, trivial, trivial,
        Json.isWhole_unsigned32 _, Json.isWhole_signed64 _, Json.isWhole_signed64 _, trivial⟩
  | createChannel request =>
      exact ⟨trivial, trivial, Json.isWhole_unsigned32 _, trivial, trivial, trivial, trivial,
        trivial, trivial⟩
  | connectPin request => exact ⟨trivial, trivial, trivial, trivial⟩
  | disconnectPin endpoint => exact ⟨trivial, trivial, trivial⟩
  | deleteNode node => exact ⟨trivial, trivial⟩
  | deleteChannel channel => exact ⟨trivial, trivial⟩
  | setNodeProperties request =>
      exact ⟨trivial, trivial, trivial, trivial, Json.isWhole_unsigned32 _, trivial,
        partFits _ rfl, Json.isWhole_signed64 _, Json.isWhole_signed64 _, trivial⟩
  | setGraphProperties request => exact ⟨trivial, trivial, trivial, trivial⟩
  | setPosition request =>
      exact ⟨trivial, Json.isWhole_signed64 _, Json.isWhole_signed64 _, trivial⟩
  | save => exact trivial

theorem kept_of_members
    {request : Request} (partKept : ∀ part, request.part? = some part → part.Kept) :
    Json.KeptMembers request.members := by
  cases request with
  | createNode request =>
      exact ⟨trivial, trivial, partKept _ rfl, trivial, trivial, trivial, trivial, trivial,
        trivial⟩
  | setNodeProperties request =>
      exact ⟨trivial, trivial, trivial, trivial, trivial, trivial, partKept _ rfl, trivial,
        trivial, trivial⟩
  | createChannel request =>
      exact ⟨trivial, trivial, trivial, trivial, trivial, trivial, trivial, trivial, trivial⟩
  | connectPin request => exact ⟨trivial, trivial, trivial, trivial⟩
  | disconnectPin endpoint => exact ⟨trivial, trivial, trivial⟩
  | deleteNode node => exact ⟨trivial, trivial⟩
  | deleteChannel channel => exact ⟨trivial, trivial⟩
  | setGraphProperties request => exact ⟨trivial, trivial, trivial, trivial⟩
  | setPosition request => exact ⟨trivial, trivial, trivial, trivial⟩
  | save => exact trivial

theorem op_not_mem_members
    (request : Request) :
    ∀ member ∈ request.members, member.1 ≠ "op" := by
  cases request <;> simp [members]

theorem keys_members_nodup
    (request : Request) :
    (request.members.map Prod.fst).Nodup := by
  cases request <;> simp [members]

theorem readTag_members
    {found : Option (Decoder Request)} {members : List (String × Value)}
    (noTag : ∀ member ∈ members, member.1 ≠ "op") (kept : Json.KeptMembers members) :
    readTag found (Json.readingMembers members) = .ok found := by
  induction members with
  | nil => rfl
  | cons member rest inductionHypothesis =>
      obtain ⟨key, value⟩ := member
      obtain ⟨notTag, restNoTag⟩ := List.forall_mem_cons.mp noTag
      rw [Json.readingMembers, readTag, if_neg notTag, Json.value_reading kept.1]
      exact inductionHypothesis restNoTag kept.2

theorem filter_members
    {members : List (String × Value)} (noTag : ∀ member ∈ members, member.1 ≠ "op") :
    (Json.readingMembers members).filter (fun member => member.1 ≠ some "op") =
      Json.readingMembers members := by
  induction members with
  | nil => rfl
  | cons member rest inductionHypothesis =>
      obtain ⟨key, value⟩ := member
      obtain ⟨notTag, restNoTag⟩ := List.forall_mem_cons.mp noTag
      rw [Json.readingMembers, List.filter_cons, inductionHypothesis restNoTag,
        if_pos (by simpa using notTag)]

/-- The tag of a written request leads to the decoder for the members behind it. -/
theorem decoder_value_of_content
    {request : Request} {content : Decoder Request}
    (known : findDecoder? request.op = some content)
    (partKept : ∀ part, request.part? = some part → part.Kept)
    (read : content (Value.object request.members).reading = .ok request) :
    decoder request.value.reading = .ok request := by
  have noTag := op_not_mem_members request
  have tag : tagDecoder (Value.string request.op).reading = .ok content := by
    simp only [Value.reading, tagDecoder, known]
  have found : readTag none (Json.readingMembers (("op", .string request.op) :: request.members)) =
      .ok (some content) := by
    rw [Json.readingMembers, readTag, if_pos rfl, tag]
    exact readTag_members noTag (kept_of_members partKept)
  have behind : (Json.readingMembers (("op", .string request.op) :: request.members)).filter
      (fun member => member.1 ≠ some "op") = Json.readingMembers request.members := by
    rw [Json.readingMembers, List.filter_cons_of_neg (by simp), filter_members noTag]
  refine decoder_object_eq_ok_iff.mpr ⟨rfl, content, found, ?_⟩
  rw [behind]
  exact read

theorem decoder_value_of_reads
    {α : Type} {name : String} {fields : Fields α} {make : α → Request} {value : α}
    (known : findDecoder? (make value).op = some (behindTag name fields make))
    (partKept : ∀ part, (make value).part? = some part → part.Kept)
    (reads : fields.Reads (make value).members value) :
    decoder (make value).value.reading = .ok (make value) := by
  refine decoder_value_of_content known partKept ?_
  rw [behindTag, Fields.record_reading _ _ (keys_members_nodup _) reads]
  rfl

theorem endpoint_reads
    {members : List (String × Value)} {node pin : String} {endpoint : Endpoint}
    (nodePresent : Table.lookup node members = some (.string endpoint.node))
    (pinPresent : Table.lookup pin members = some (.string endpoint.pin)) :
    (Endpoint.fields node pin).Reads members endpoint :=
  ((required nodePresent (Decoder.text_reading endpoint.node)).map Endpoint.mk).seq
    (required pinPresent (Decoder.text_reading endpoint.pin))

/-- A request is read back from the object of its members. -/
theorem decoder_value
    {request : Request} (partKept : ∀ part, request.part? = some part → part.Kept) :
    decoder request.value.reading = .ok request := by
  cases request with
  | createNode request =>
      refine decoder_value_of_reads rfl partKept ?_
      exact ((((((((required rfl (Decoder.text_reading request.name)).map CreateNode.mk).seq
        (required rfl (Decoder.text_reading request.partType))).seq
        (optional rfl (Decoder.any_reading (partKept _ rfl)))).seq
        (optional rfl (Decoder.flag_reading request.enabled))).seq
        (optional rfl (Decoder.flag_reading request.waits))).seq
        (optional rfl (Decoder.unsigned32_reading request.multiplicity))).seq
        (optional rfl (Decoder.signed64_reading request.x))).seq
        (optional rfl (Decoder.signed64_reading request.y))
  | createChannel request =>
      refine decoder_value_of_reads rfl partKept ?_
      exact ((((((required rfl (Decoder.text_reading request.name)).map CreateChannel.mk).seq
        (required rfl (Decoder.text_reading request.type))).seq
        (optional rfl (Decoder.unsigned32_reading request.capacity))).seq
        (optional rfl (Decoder.flag_reading request.anonymous))).seq
        (endpoint_reads rfl rfl)).seq
        (endpoint_reads rfl rfl)
  | connectPin request =>
      refine decoder_value_of_reads rfl partKept ?_
      exact ((endpoint_reads rfl rfl).map ConnectPin.mk).seq
        (required rfl (Decoder.text_reading request.channel))
  | disconnectPin endpoint =>
      refine decoder_value_of_reads rfl partKept ?_
      exact endpoint_reads rfl rfl
  | deleteNode node =>
      refine decoder_value_of_reads rfl partKept ?_
      exact required rfl (Decoder.text_reading node)
  | deleteChannel channel =>
      refine decoder_value_of_reads rfl partKept ?_
      exact required rfl (Decoder.text_reading channel)
  | setNodeProperties request =>
      refine decoder_value_of_reads rfl partKept ?_
      exact (((((((((required rfl (Decoder.text_reading request.node)).map
        SetNodeProperties.mk).seq
        (required rfl (Decoder.text_reading request.name))).seq
        (required rfl (Decoder.flag_reading request.enabled))).seq
        (required rfl (Decoder.flag_reading request.waits))).seq
        (required rfl (Decoder.unsigned32_reading request.multiplicity))).seq
        (required rfl (Decoder.text_reading request.partType))).seq
        (optional rfl (Decoder.any_reading (partKept _ rfl)))).seq
        (optional rfl (Decoder.signed64_reading request.x))).seq
        (optional rfl (Decoder.signed64_reading request.y))
  | setGraphProperties request =>
      refine decoder_value_of_reads rfl partKept ?_
      exact (((required rfl (Decoder.text_reading request.name)).map SetGraphProperties.mk).seq
        (required rfl (Decoder.text_reading request.packagePath))).seq
        (required rfl (Decoder.flag_reading request.isCommand))
  | setPosition request =>
      refine decoder_value_of_reads rfl partKept ?_
      exact (((required rfl (Decoder.text_reading request.node)).map SetPosition.mk).seq
        (required rfl (Decoder.signed64_reading request.x))).seq
        (required rfl (Decoder.signed64_reading request.y))
  | save => exact decoder_value_of_content rfl partKept rfl

/-- Whatever text a request was read from, in either form, the text it is written as is read as the
same request, and the tag in it is the name of what the request asks for. The numbers in its part
have to be whole: others are not written the way they were read. -/
theorem ofText_value_inverse
    {text : String} {request : Request} (read : ofText text = .ok request)
    (integral : ∀ part, request.part? = some part → part.isIntegral = true) :
    ∀ written ∈ [request.value.compact, request.value.pretty],
      ofText written = .ok request ∧
        ∃ members, (Document.ofText written).tree = .object members none ∧
          Fields.find members "op" = some (.string request.op) := by
  have writable (part : Value) (holds : request.part? = some part) :
      Writable (Json.maxDepth - 1) part := writable_part_of_ofText read holds
  have fits : request.value.Fits Json.maxDepth := by
    refine ⟨by decide, trivial, fits_members fun part holds => ?_⟩
    exact (writable part holds).fits (integral part holds)
  have isRequest : decoder request.value.reading = .ok request :=
    decoder_value fun part holds => (writable part holds).kept
  intro written isWritten
  have document : Document.ofText written = ⟨request.value.reading, none⟩ := by
    simp only [List.mem_cons, List.not_mem_nil, or_false] at isWritten
    rcases isWritten with rfl | rfl
    · exact Json.ofText_compact fits
    · exact Json.ofText_pretty fits
  constructor
  · rw [ofText, document, ofDocument]
    simp only [isRequest]
  · rw [document]
    exact ⟨_, rfl, rfl⟩

/-- A request in array form whose last members are left off; the members of its part stand in
another order than values keep them. -/
def arrayForm : String :=
  "[\"CreateNode\",\"n\",\"Code\",\x7b\"b\":[1,-2],\"a\":null\x7d,false]"

/-- The request in array form. -/
def ofArrayForm : Request :=
  .createNode
    { name := "n", partType := "Code"
      part := .object [("a", .null), ("b", .array [.whole 1, .whole (-2)])]
      enabled := false, waits := true, multiplicity := 1, x := 0, y := 0 }

theorem ofText_value_inverse_arrayForm :
    ofText arrayForm = .ok ofArrayForm ∧
      (∀ part, ofArrayForm.part? = some part → part.isIntegral = true) ∧
      ofText ofArrayForm.value.compact = .ok ofArrayForm := by
  have read : ofText arrayForm = .ok ofArrayForm := by cbv
  have integral : ∀ part, ofArrayForm.part? = some part → part.isIntegral = true := by
    intro part holds
    rw [← Option.some.inj holds]
    rfl
  exact ⟨read, integral, (ofText_value_inverse read integral _ List.mem_cons_self).1⟩

end Request

end Pipework
