import Pipework.Proofs.Json.Record

/-!
# Values that were read

Whatever a text is, its tree nests no deeper than a reader allows, and the whole numbers in it are
in range (`Json.readTree_within`). So a value that was read is kept in order
(`Json.kept_of_value`) and, when all its numbers are whole, it can be written and read again
(`Json.fits_of_value`).
-/

namespace Pipework.Json

open Pipework.Text

/-! ## Trees as they are read -/

/-- A whole number is in the range of whole numbers. -/
def Number.InRange : Number → Prop
  | .whole value => IsWhole value
  | .binary _ => True

mutual

/-- The whole numbers of a tree are in range, and it nests at most so deep. -/
def Reading.Within : Nat → Reading → Prop
  | _, .number number => number.InRange
  | room, .array items _ => 0 < room ∧ WithinItems (room - 1) items
  | room, .object members _ => 0 < room ∧ WithinMembers (room - 1) members
  | _, .null => True
  | _, .bool _ => True
  | _, .string _ => True
  | _, .unreadable _ => True

/-- Each item is within. -/
def WithinItems : Nat → List Reading → Prop
  | _, [] => True
  | room, item :: rest => item.Within room ∧ WithinItems room rest

/-- Each member is within. -/
def WithinMembers : Nat → List (Option String × Reading) → Prop
  | _, [] => True
  | room, (_, tree) :: rest => tree.Within room ∧ WithinMembers room rest

end

theorem withinItems_iff
    {room : Nat} {items : List Reading} :
    WithinItems room items ↔ ∀ item ∈ items, item.Within room := by
  induction items with
  | nil => simp [WithinItems]
  | cons item rest inductionHypothesis =>
      rw [WithinItems, inductionHypothesis, List.forall_mem_cons]

theorem withinMembers_iff
    {room : Nat} {members : List (Option String × Reading)} :
    WithinMembers room members ↔ ∀ member ∈ members, member.2.Within room := by
  induction members with
  | nil => simp [WithinMembers]
  | cons member rest inductionHypothesis =>
      obtain ⟨key, tree⟩ := member
      rw [WithinMembers, inductionHypothesis, List.forall_mem_cons]

/-! ## Leaves -/

theorem scaledNumber_inRange
    {literal : NumberLiteral} {significand : Nat} {shift : Int} {number : Number}
    (isNumber : scaledNumber literal significand shift = some number) :
    number.InRange := by
  have binary {found : Option UInt64} (isBinary : found.map Number.binary = some number) :
      number.InRange := by
    obtain ⟨bits, _, rfl⟩ := Option.map_eq_some_iff.mp isBinary
    exact trivial
  rw [scaledNumber.eq_def] at isNumber
  cases exponent : literal.exponent with
  | none =>
      rw [exponent] at isNumber
      exact binary isNumber
  | some signed =>
      obtain ⟨negative, digits⟩ := signed
      simp only [exponent] at isNumber
      by_cases short : digitsValue digits < UInt32.size / 2
      · rw [if_pos short] at isNumber
        exact binary isNumber
      · rw [if_neg short] at isNumber
        by_cases tooLarge : (decide (significand ≠ 0) && !negative) = true
        · rw [if_pos tooLarge] at isNumber
          exact nomatch isNumber
        · rw [if_neg tooLarge] at isNumber
          exact binary isNumber

theorem NumberLiteral.number?_inRange
    {literal : NumberLiteral} {number : Number} (isNumber : literal.number? = some number) :
    number.InRange := by
  have size : UInt64.size = 18446744073709551616 := rfl
  unfold NumberLiteral.number? at isNumber
  by_cases negative : literal.negative = true
  · simp only [negative, if_true, Bool.and_eq_true, decide_eq_true_eq] at isNumber
    split at isNumber
    · rename_i isWhole
      rw [← Option.some.inj isNumber]
      constructor
      · omega
      · omega
    · exact scaledNumber_inRange isNumber
  · simp only [negative, if_false, Bool.false_eq_true, Bool.and_eq_true,
      decide_eq_true_eq] at isNumber
    split at isNumber
    · rename_i isWhole
      rw [← Option.some.inj isNumber]
      constructor
      · omega
      · omega
    · exact scaledNumber_inRange isNumber

theorem readNumber_within
    (input : List Symbol) (room : Nat) :
    (readNumber input).1.Within room := by
  unfold readNumber
  simp only
  split
  · exact trivial
  · split
    · rename_i number isNumber
      exact NumberLiteral.number?_inRange isNumber
    · exact trivial

theorem readWord_within
    {value : Reading} {room : Nat} (within : value.Within room) (word : List Char)
    (input : List Symbol) :
    (readWord value word input).1.Within room := by
  induction word generalizing input with
  | nil => exact within
  | cons expected word inductionHypothesis =>
      cases input with
      | nil => exact trivial
      | cons first rest =>
          rw [readWord]
          split
          · exact inductionHypothesis rest
          · exact trivial

/-- A container that is closed where the level is still allowed has room for its contents. -/
theorem closeContainer_within
    {level : Nat} {tree : Reading} (within : level + 1 ≤ maxDepth → tree.Within (maxDepth - level))
    (rest : Option (List Symbol)) :
    (closeContainer (level + 1) tree rest).1.Within (maxDepth - level) := by
  rw [closeContainer]
  split
  · rename_i shallow
    exact within shallow
  · exact trivial

/-! ## Whole trees -/

mutual

theorem readTree_within :
    ∀ (fuel level : Nat) (input : List Symbol),
      (readTree fuel level input).1.Within (maxDepth - level)
  | 0, _, _ => trivial
  | _ + 1, _, [] => trivial
  | _ + 1, _, .stray _ :: _ => trivial
  | fuel + 1, level, .char first :: rest => by
      have null : Reading.null.Within (maxDepth - level) := trivial
      have bool (value : Bool) : (Reading.bool value).Within (maxDepth - level) := trivial
      rw [readTree]
      split
      · exact readWord_within null _ rest
      split
      · exact readWord_within (bool true) _ rest
      split
      · exact readWord_within (bool false) _ rest
      split
      · split
        · exact trivial
        · exact trivial
      split
      · refine closeContainer_within (fun shallow => ?_) _
        exact ⟨by omega, readItems_within fuel (level + 1) true (skipSpace rest)⟩
      split
      · refine closeContainer_within (fun shallow => ?_) _
        exact ⟨by omega, readMembers_within fuel (level + 1) true (skipSpace rest)⟩
      split
      · exact readNumber_within _ _
      · exact trivial

theorem readItems_within :
    ∀ (fuel level : Nat) (isFirst : Bool) (input : List Symbol),
      WithinItems (maxDepth - level) (readItems fuel level isFirst input).1
  | 0, _, _, _ => trivial
  | _ + 1, _, _, [] => trivial
  | fuel + 1, level, isFirst, first :: rest => by
      rw [readItems.eq_def]
      simp only
      split
      · exact trivial
      split
      · exact trivial
      split
      · exact trivial
      · exact trivial
      · have item := readTree_within fuel level
          (if isFirst = true then first :: rest else skipSpace rest)
        split
        · rename_i read
          rw [read] at item
          exact ⟨item, trivial⟩
        · rename_i more read
          rw [read] at item
          exact ⟨item, readItems_within fuel level false (skipSpace more)⟩

theorem readMembers_within :
    ∀ (fuel level : Nat) (isFirst : Bool) (input : List Symbol),
      WithinMembers (maxDepth - level) (readMembers fuel level isFirst input).1
  | 0, _, _, _ => trivial
  | _ + 1, _, _, [] => trivial
  | fuel + 1, level, isFirst, first :: rest => by
      rw [readMembers.eq_def]
      simp only
      split
      · exact trivial
      split
      · exact trivial
      split
      · exact trivial
      · split
        · exact trivial
        · split
          · exact ⟨trivial, trivial⟩
          · rename_i afterColon _
            have value := readTree_within fuel level (skipSpace afterColon)
            split
            · rename_i read
              rw [read] at value
              exact ⟨value, trivial⟩
            · rename_i more read
              rw [read] at value
              exact ⟨value, readMembers_within fuel level false (skipSpace more)⟩
          · exact ⟨trivial, trivial⟩
      · exact trivial

end

theorem ofText_within
    (text : String) :
    (Document.ofText text).tree.Within maxDepth := by
  have within := readTree_within (2 * (symbolsOf text).length + 2) 0 (skipSpace (symbolsOf text))
  rw [Document.ofText, Document.ofSymbols]
  split
  · rename_i read
    rw [read] at within
    exact within
  · rename_i read
    rw [read] at within
    exact within

/-! ## Sorted members -/

theorem insertMember_eq
    (key : String) (value : Value) (members : List (String × Value)) :
    Value.insertMember key value members = Table.insertEntry key value members := by
  induction members with
  | nil => rfl
  | cons head rest inductionHypothesis =>
      rw [Value.insertMember, Table.insertEntry, inductionHypothesis]

theorem sortMembers_eq
    (members : List (String × Value)) :
    Value.sortMembers members = (Table.ofList members).entries := by
  have general (table : Table String Value) :
      members.foldl (fun sorted member => Value.insertMember member.1 member.2 sorted)
          table.entries =
        (members.foldl (fun current entry => current.insert entry.1 entry.2) table).entries := by
    induction members generalizing table with
    | nil => rfl
    | cons head rest inductionHypothesis =>
        rw [List.foldl_cons, List.foldl_cons, insertMember_eq]
        exact inductionHypothesis (table.insert head.1 head.2)
  exact general Table.empty

theorem mem_of_mem_sortMembers
    {member : String × Value} {members : List (String × Value)}
    (sorted : member ∈ Value.sortMembers members) :
    member ∈ members := by
  obtain ⟨key, value⟩ := member
  rw [sortMembers_eq, Table.mem_entries_iff, Table.get?_ofList] at sorted
  exact List.mem_reverse.mp (Table.mem_of_lookup sorted)

/-! ## Values as they are read -/

theorem keptMembers_iff
    {members : List (String × Value)} :
    KeptMembers members ↔ ∀ member ∈ members, member.2.Kept := by
  induction members with
  | nil => simp [KeptMembers]
  | cons member rest inductionHypothesis =>
      obtain ⟨key, value⟩ := member
      rw [KeptMembers, inductionHypothesis, List.forall_mem_cons]

theorem value_array_eq_ok_iff
    {items : List Reading} {stop : Option Fault} {value : Value} :
    (Reading.array items stop).value = .ok value ↔
      stop = none ∧ ∃ values, valueItems items = .ok values ∧ value = .array values := by
  unfold Reading.value
  cases valueItems items with
  | error error => simp
  | ok values => cases stop <;> simp [eq_comm (a := value)]

theorem value_object_eq_ok_iff
    {members : List (Option String × Reading)} {stop : Option Fault} {value : Value} :
    (Reading.object members stop).value = .ok value ↔
      stop = none ∧ ∃ values, valueMembers members = .ok values ∧
        value = .object (Value.sortMembers values) := by
  unfold Reading.value
  cases valueMembers members with
  | error error => simp
  | ok values => cases stop <;> simp [eq_comm (a := value)]

theorem valueItems_cons_eq_ok_iff
    {item : Reading} {rest : List Reading} {values : List Value} :
    valueItems (item :: rest) = .ok values ↔
      ∃ value, item.value = .ok value ∧ ∃ others, valueItems rest = .ok others ∧
        values = value :: others := by
  rw [valueItems]
  cases item.value with
  | error error => simp
  | ok value => cases valueItems rest <;> simp [eq_comm]

theorem valueMembers_cons_eq_ok_iff
    {key? : Option String} {tree : Reading} {rest : List (Option String × Reading)}
    {values : List (String × Value)} :
    valueMembers ((key?, tree) :: rest) = .ok values ↔
      ∃ key, key? = some key ∧ ∃ value, tree.value = .ok value ∧
        ∃ others, valueMembers rest = .ok others ∧ values = (key, value) :: others := by
  cases key? with
  | none => simp [valueMembers]
  | some key =>
      rw [valueMembers]
      cases tree.value with
      | error error => simp
      | ok value => cases valueMembers rest <;> simp [eq_comm]

mutual

/-- A value that was read is in the form in which values are kept. -/
theorem kept_of_value :
    ∀ {tree : Reading} {value : Value}, tree.value = .ok value → value.Kept
  | .null, _, read => by
      rw [← Except.ok.inj read]
      exact trivial
  | .bool _, _, read => by
      rw [← Except.ok.inj read]
      exact trivial
  | .number _, _, read => by
      rw [← Except.ok.inj read]
      exact trivial
  | .string _, _, read => by
      rw [← Except.ok.inj read]
      exact trivial
  | .array items stop, value, read => by
      obtain ⟨_, values, isRead, rfl⟩ := value_array_eq_ok_iff.mp read
      exact keptItems_iff.mpr (kept_of_valueItems isRead)
  | .object members stop, value, read => by
      obtain ⟨_, values, isRead, rfl⟩ := value_object_eq_ok_iff.mp read
      have eachKept := kept_of_valueMembers isRead
      refine ⟨?_, keptMembers_iff.mpr fun member sorted =>
        eachKept member (mem_of_mem_sortMembers sorted)⟩
      rw [sortMembers_eq]
      exact (Table.ofList values).ordered
  | .unreadable _, _, read => nomatch read

theorem kept_of_valueItems :
    ∀ {items : List Reading} {values : List Value}, valueItems items = .ok values →
      ∀ value ∈ values, value.Kept
  | [], values, read => by
      rw [← Except.ok.inj read]
      exact fun _ member => absurd member List.not_mem_nil
  | item :: rest, values, read => by
      obtain ⟨value, isValue, others, areOthers, rfl⟩ := valueItems_cons_eq_ok_iff.mp read
      exact List.forall_mem_cons.mpr ⟨kept_of_value isValue, kept_of_valueItems areOthers⟩

theorem kept_of_valueMembers :
    ∀ {members : List (Option String × Reading)} {values : List (String × Value)},
      valueMembers members = .ok values → ∀ member ∈ values, member.2.Kept
  | [], values, read => by
      rw [← Except.ok.inj read]
      exact fun _ member => absurd member List.not_mem_nil
  | (key?, tree) :: rest, values, read => by
      obtain ⟨key, _, value, isValue, others, areOthers, rfl⟩ :=
        valueMembers_cons_eq_ok_iff.mp read
      exact List.forall_mem_cons.mpr ⟨kept_of_value isValue, kept_of_valueMembers areOthers⟩

end

/-! ## Values of whole numbers -/

mutual

/-- Whether all numbers of a value are whole. -/
def Value.isIntegral : Value → Bool
  | .number (.whole _) => true
  | .number (.binary _) => false
  | .array items => areIntegral items
  | .object members => membersIntegral members
  | .null => true
  | .bool _ => true
  | .string _ => true

/-- Whether all numbers of some items are whole. -/
def areIntegral : List Value → Bool
  | [] => true
  | item :: rest => item.isIntegral && areIntegral rest

/-- Whether all numbers of some members are whole. -/
def membersIntegral : List (String × Value) → Bool
  | [] => true
  | (_, value) :: rest => value.isIntegral && membersIntegral rest

end

theorem areIntegral_iff
    {items : List Value} :
    areIntegral items = true ↔ ∀ item ∈ items, item.isIntegral = true := by
  induction items with
  | nil => simp [areIntegral]
  | cons item rest inductionHypothesis =>
      rw [areIntegral, Bool.and_eq_true, inductionHypothesis, List.forall_mem_cons]

theorem membersIntegral_iff
    {members : List (String × Value)} :
    membersIntegral members = true ↔ ∀ member ∈ members, member.2.isIntegral = true := by
  induction members with
  | nil => simp [membersIntegral]
  | cons member rest inductionHypothesis =>
      obtain ⟨key, value⟩ := member
      rw [membersIntegral, Bool.and_eq_true, inductionHypothesis, List.forall_mem_cons]

mutual

/-- A value of whole numbers that was read can be written and read again. -/
theorem fits_of_value :
    ∀ {tree : Reading} {room : Nat} {value : Value}, tree.Within room → tree.value = .ok value →
      value.isIntegral = true → value.Fits room
  | .null, _, _, _, read, _ => by
      rw [← Except.ok.inj read]
      exact trivial
  | .bool _, _, _, _, read, _ => by
      rw [← Except.ok.inj read]
      exact trivial
  | .number (.whole _), _, _, within, read, _ => by
      rw [← Except.ok.inj read]
      exact within
  | .number (.binary _), _, _, _, read, integral => by
      rw [← Except.ok.inj read] at integral
      exact nomatch integral
  | .string _, _, _, _, read, _ => by
      rw [← Except.ok.inj read]
      exact trivial
  | .array items stop, room, value, within, read, integral => by
      obtain ⟨_, values, isRead, rfl⟩ := value_array_eq_ok_iff.mp read
      have eachIntegral := areIntegral_iff.mp integral
      exact ⟨within.1, fitsItems_iff.mpr fun item member =>
        fits_of_valueItems within.2 isRead item member (eachIntegral item member)⟩
  | .object members stop, room, value, within, read, integral => by
      obtain ⟨_, values, isRead, rfl⟩ := value_object_eq_ok_iff.mp read
      have eachIntegral := membersIntegral_iff.mp integral
      exact ⟨within.1, fitsMembers_iff.mpr fun member sorted =>
        fits_of_valueMembers within.2 isRead member (mem_of_mem_sortMembers sorted)
          (eachIntegral member sorted)⟩
  | .unreadable _, _, _, _, read, _ => nomatch read

theorem fits_of_valueItems :
    ∀ {items : List Reading} {room : Nat} {values : List Value}, WithinItems room items →
      valueItems items = .ok values →
      ∀ value ∈ values, value.isIntegral = true → value.Fits room
  | [], _, _, _, read => by
      rw [← Except.ok.inj read]
      exact fun _ member => absurd member List.not_mem_nil
  | item :: rest, room, values, within, read => by
      obtain ⟨value, isValue, others, areOthers, rfl⟩ := valueItems_cons_eq_ok_iff.mp read
      exact List.forall_mem_cons.mpr
        ⟨fits_of_value within.1 isValue, fits_of_valueItems within.2 areOthers⟩

theorem fits_of_valueMembers :
    ∀ {members : List (Option String × Reading)} {room : Nat} {values : List (String × Value)},
      WithinMembers room members → valueMembers members = .ok values →
      ∀ member ∈ values, member.2.isIntegral = true → member.2.Fits room
  | [], _, _, _, read => by
      rw [← Except.ok.inj read]
      exact fun _ member => absurd member List.not_mem_nil
  | (key?, tree) :: rest, room, values, within, read => by
      obtain ⟨key, _, value, isValue, others, areOthers, rfl⟩ :=
        valueMembers_cons_eq_ok_iff.mp read
      exact List.forall_mem_cons.mpr
        ⟨fits_of_value within.1 isValue, fits_of_valueMembers within.2 areOthers⟩

end

end Pipework.Json
