import Pipework.Proofs.Json.Leaf

/-!
# Texts read back

A value can be written with any amount of blank space between its tokens (`Json.Layout`), and
both ways of writing it, compact and on indented lines, are cases of that. A value with whole
numbers only, which nests no deeper than readers allow (`Value.Fits`), is read back from each of
them, whatever its keys and strings are.
-/

namespace Pipework.Json

open Pipework.Text

/-! ## Layouts -/

/-- The blank space between the tokens of a text. -/
structure Layout where
  /-- What stands before an item of a nesting level, and before the bracket that closes one. -/
  gap : Nat → List Char
  /-- What stands behind a colon. -/
  space : List Char
  gap_blank : ∀ level, ∀ character ∈ gap level, isSpace (.char character) = true
  space_blank : ∀ character ∈ space, isSpace (.char character) = true

/-- No blank space at all. -/
def Layout.compact : Layout where
  gap _ := []
  space := []
  gap_blank _ _ member := absurd member List.not_mem_nil
  space_blank _ member := absurd member List.not_mem_nil

theorem newLine_blank
    (level : Nat) :
    ∀ character ∈ newLine level, isSpace (.char character) = true := by
  intro character member
  rcases List.mem_cons.mp member with rfl | indentation
  · rfl
  · rw [(List.mem_replicate.mp indentation).2]
    rfl

/-- One line for each item and member. -/
def Layout.lines : Layout where
  gap := newLine
  space := [' ']
  gap_blank := newLine_blank
  space_blank _ member := by
    rw [List.mem_singleton.mp member]
    rfl

/-- What stands before the bracket that closes an array or object; nothing in an empty one. -/
def Layout.closing (layout : Layout) (level : Nat) (isEmpty : Bool) : List Char :=
  if isEmpty then [] else layout.gap level

theorem Layout.closing_blank
    (layout : Layout) (level : Nat) (isEmpty : Bool) :
    ∀ character ∈ layout.closing level isEmpty, isSpace (.char character) = true := by
  rw [closing]
  split
  · intro character member
    exact absurd member List.not_mem_nil
  · exact layout.gap_blank level

mutual

/-- The characters of a value in a layout. -/
def Value.laidOut (layout : Layout) (level : Nat) : Value → List Char
  | .null => "null".toList
  | .bool value => (if value then "true" else "false").toList
  | .number value => value.text.toList
  | .string value => quote value
  | .array items =>
      '[' :: laidOutItems layout (level + 1) true items ++
        (layout.closing level items.isEmpty ++ [']'])
  | .object members =>
      '\x7b' :: laidOutMembers layout (level + 1) true members ++
        (layout.closing level members.isEmpty ++ ['\x7d'])

/-- The items of an array in a layout. -/
def laidOutItems (layout : Layout) (level : Nat) (isFirst : Bool) : List Value → List Char
  | [] => []
  | item :: rest =>
      (if isFirst then [] else [',']) ++ (layout.gap level ++ (item.laidOut layout level ++
        laidOutItems layout level false rest))

/-- The members of an object in a layout. -/
def laidOutMembers (layout : Layout) (level : Nat) (isFirst : Bool) :
    List (String × Value) → List Char
  | [] => []
  | (key, value) :: rest =>
      (if isFirst then [] else [',']) ++ (layout.gap level ++ (quote key ++
        ':' :: (layout.space ++ (value.laidOut layout level ++
          laidOutMembers layout level false rest))))

end

mutual

theorem prettyChars_eq
    (level : Nat) :
    ∀ value : Value, value.prettyChars level = value.laidOut Layout.lines level
  | .null => rfl
  | .bool _ => rfl
  | .number _ => rfl
  | .string _ => rfl
  | .array [] => rfl
  | .object [] => rfl
  | .array (item :: rest) => by
      rw [Value.prettyChars, Value.laidOut, prettyItems_eq, List.append_assoc]
      rfl
  | .object (member :: rest) => by
      rw [Value.prettyChars, Value.laidOut, prettyMembers_eq, List.append_assoc]
      rfl

theorem prettyItems_eq
    (level : Nat) (isFirst : Bool) :
    ∀ items : List Value,
      prettyItems level isFirst items = laidOutItems Layout.lines level isFirst items
  | [] => rfl
  | item :: rest => by
      rw [prettyItems, laidOutItems, prettyChars_eq, prettyItems_eq]
      simp only [List.append_assoc]
      rfl

theorem prettyMembers_eq
    (level : Nat) (isFirst : Bool) :
    ∀ members : List (String × Value),
      prettyMembers level isFirst members = laidOutMembers Layout.lines level isFirst members
  | [] => rfl
  | (key, value) :: rest => by
      rw [prettyMembers, laidOutMembers, prettyChars_eq, prettyMembers_eq]
      simp only [List.append_assoc, List.cons_append]
      rfl

end

mutual

theorem compactChars_eq
    (level : Nat) :
    ∀ value : Value, value.compactChars = value.laidOut Layout.compact level
  | .null => rfl
  | .bool _ => rfl
  | .number _ => rfl
  | .string _ => rfl
  | .array items => by
      rw [Value.compactChars, Value.laidOut, compactItems_eq (level + 1), Layout.closing]
      simp [Layout.compact]
  | .object members => by
      rw [Value.compactChars, Value.laidOut, compactMembers_eq (level + 1), Layout.closing]
      simp [Layout.compact]

theorem compactItems_eq
    (level : Nat) (isFirst : Bool) :
    ∀ items : List Value,
      compactItems isFirst items = laidOutItems Layout.compact level isFirst items
  | [] => rfl
  | item :: rest => by
      rw [compactItems, laidOutItems, compactChars_eq level, compactItems_eq level]
      simp only [List.append_assoc]
      rfl

theorem compactMembers_eq
    (level : Nat) (isFirst : Bool) :
    ∀ members : List (String × Value),
      compactMembers isFirst members = laidOutMembers Layout.compact level isFirst members
  | [] => rfl
  | (key, value) :: rest => by
      rw [compactMembers, laidOutMembers, compactChars_eq level, compactMembers_eq level]
      simp only [List.append_assoc, List.cons_append]
      rfl

end

/-! ## Values that are read back -/

mutual

/-- All numbers of a value are whole, and it nests at most so deep. -/
def Value.Fits : Nat → Value → Prop
  | _, .number (.whole value) => IsWhole value
  | _, .number (.binary _) => False
  | room, .array items => 0 < room ∧ FitsItems (room - 1) items
  | room, .object members => 0 < room ∧ FitsMembers (room - 1) members
  | _, .null => True
  | _, .bool _ => True
  | _, .string _ => True

/-- Each item fits. -/
def FitsItems : Nat → List Value → Prop
  | _, [] => True
  | room, item :: rest => item.Fits room ∧ FitsItems room rest

/-- Each member fits. -/
def FitsMembers : Nat → List (String × Value) → Prop
  | _, [] => True
  | room, (_, value) :: rest => value.Fits room ∧ FitsMembers room rest

end

theorem fitsItems_iff
    {room : Nat} {items : List Value} :
    FitsItems room items ↔ ∀ item ∈ items, item.Fits room := by
  induction items with
  | nil => simp [FitsItems]
  | cons item rest inductionHypothesis =>
      rw [FitsItems, inductionHypothesis, List.forall_mem_cons]

theorem fitsMembers_iff
    {room : Nat} {members : List (String × Value)} :
    FitsMembers room members ↔ ∀ member ∈ members, member.2.Fits room := by
  induction members with
  | nil => simp [FitsMembers]
  | cons member rest inductionHypothesis =>
      obtain ⟨key, value⟩ := member
      rw [FitsMembers, inductionHypothesis, List.forall_mem_cons]

/-! ## Blanks and first characters -/

theorem skipSpace_blank
    {blank : List Char} (areBlank : ∀ character ∈ blank, isSpace (.char character) = true)
    (rest : List Symbol) :
    skipSpace (blank.map Symbol.char ++ rest) = skipSpace rest := by
  apply List.dropWhile_append_of_pos
  intro symbol member
  obtain ⟨character, inBlank, rfl⟩ := List.mem_map.mp member
  exact areBlank character inBlank

theorem skipSpace_cons
    {first : Symbol} (notBlank : isSpace first = false) (rest : List Symbol) :
    skipSpace (first :: rest) = first :: rest := by
  rw [skipSpace, List.dropWhile_cons_of_neg]
  rw [notBlank]
  exact Bool.false_ne_true

theorem mem_breaks_of_isSpace
    {symbol : Symbol} (blank : isSpace symbol = true) :
    symbol ∈ breaks := by
  simp only [isSpace, Bool.or_eq_true, decide_eq_true_eq] at blank
  rcases blank with ((same | same) | same) | same
  all_goals
    rw [same]
    decide

/-- Whether a character can start a value. -/
def StartsValue (character : Char) : Prop :=
  isSpace (.char character) = false ∧ character ≠ ']' ∧ character ≠ '\x7d'

theorem startsValue_digit
    {digit : Char} (isDigit : digit.isDigit = true) :
    StartsValue digit := by
  have notBreak : Symbol.char digit ∉ breaks := by
    intro member
    have noDigit := (not_number_of_breaks _ member).1
    rw [digit?_char isDigit] at noDigit
    simp at noDigit
  refine ⟨?_, ?_, ?_⟩
  · rw [Bool.eq_false_iff]
    exact fun blank => notBreak (mem_breaks_of_isSpace blank)
  · intro same
    subst same
    exact notBreak (by decide)
  · intro same
    subst same
    exact notBreak (by decide)

/-- A whole number starts with a digit or with a minus. -/
theorem wholeText_cons
    (value : Int) :
    ∃ first more, (Number.whole value).text.toList = first :: more ∧
      (first = '-' ∨ first.isDigit = true) := by
  cases value with
  | ofNat value =>
      have spelled : (Number.whole (Int.ofNat value)).text.toList = Nat.toDigits 10 value :=
        Nat.toList_repr
      rw [spelled]
      cases digits : Nat.toDigits 10 value with
      | nil => exact absurd digits Nat.toDigits_ne_nil
      | cons first more =>
          refine ⟨first, more, rfl, Or.inr ?_⟩
          exact isDigit_of_mem_toDigits value (digits ▸ List.mem_cons_self)
  | negSucc value =>
      refine ⟨'-', (value + 1).repr.toList, ?_, Or.inl rfl⟩
      show ("-" ++ (value + 1).repr).toList = _
      rw [String.toList_append]
      rfl

theorem laidOut_cons
    (layout : Layout) (level : Nat) {room : Nat} {value : Value} (fits : value.Fits room) :
    ∃ first more, value.laidOut layout level = first :: more ∧ StartsValue first := by
  match value with
  | .null => exact ⟨'n', _, rfl, by decide, by decide, by decide⟩
  | .bool true => exact ⟨'t', _, rfl, by decide, by decide, by decide⟩
  | .bool false => exact ⟨'f', _, rfl, by decide, by decide, by decide⟩
  | .string _ => exact ⟨'"', _, rfl, by decide, by decide, by decide⟩
  | .array _ => exact ⟨'[', _, rfl, by decide, by decide, by decide⟩
  | .object _ => exact ⟨'\x7b', _, rfl, by decide, by decide, by decide⟩
  | .number (.binary _) => exact absurd fits id
  | .number (.whole value) =>
      obtain ⟨first, more, spelled, start⟩ := wholeText_cons value
      refine ⟨first, more, spelled, ?_⟩
      rcases start with rfl | isDigit
      · exact ⟨by decide, by decide, by decide⟩
      · exact startsValue_digit isDigit

/-! ## Single steps of the reader -/

section Steps

variable {fuel level : Nat} {rest : List Symbol}

theorem readTree_number
    {value : Int} (inRange : IsWhole value) (ends : Breaks rest) :
    readTree (fuel + 1) level ((Number.whole value).text.toList.map Symbol.char ++ rest) =
      (.number (.whole value), some rest) := by
  have read := readNumber_text inRange ends
  obtain ⟨first, more, spelled, start⟩ := wholeText_cons value
  rw [spelled, List.map_cons, List.cons_append] at read ⊢
  rw [readTree]
  rcases start with rfl | isDigit
  · exact read
  · have bounds := Char.isDigit_iff_toNat.mp isDigit
    have low : '0' ≤ first := bounds.1
    have high : first ≤ '9' := bounds.2
    have notMark : first ≠ 'n' ∧ first ≠ 't' ∧ first ≠ 'f' ∧ first ≠ '"' ∧ first ≠ '[' ∧
        first ≠ '\x7b' := by
      refine ⟨?_, ?_, ?_, ?_, ?_, ?_⟩
      all_goals
        intro same
        subst same
        exact absurd isDigit (by decide)
    simp only [notMark, if_false, low, high, decide_true, Bool.and_self, Bool.or_true, if_true]
    exact read

theorem readTree_string
    (text : String) :
    readTree (fuel + 1) level ((quote text).map Symbol.char ++ rest) =
      (.string text, some rest) := by
  have read := readString_quote text rest
  rw [quote, List.map_append, List.map_cons, List.append_assoc, List.cons_append, readTree]
  simp only [Char.reduceEq, if_false, if_true]
  rw [List.map_cons, List.map_nil, List.cons_append, List.nil_append, read]

theorem readTree_array
    {items : List Reading} {start : List Symbol} (shallow : level + 1 ≤ maxDepth)
    (read : readItems fuel (level + 1) true (skipSpace start) = (items, none, some rest)) :
    readTree (fuel + 1) level (.char '[' :: start) = (.array items none, some rest) := by
  rw [readTree]
  simp only [Char.reduceEq, if_false, if_true, read]
  rw [closeContainer, if_pos shallow]

theorem readTree_object
    {members : List (Option String × Reading)} {start : List Symbol}
    (shallow : level + 1 ≤ maxDepth)
    (read : readMembers fuel (level + 1) true (skipSpace start) = (members, none, some rest)) :
    readTree (fuel + 1) level (.char '\x7b' :: start) = (.object members none, some rest) := by
  rw [readTree]
  simp only [Char.reduceEq, if_false, if_true, read]
  rw [closeContainer, if_pos shallow]

/-- What stands in front of an item or member: nothing before the first, and else a comma. -/
def separator (isFirst : Bool) : List Symbol := if isFirst then [] else [.char ',']

theorem readItems_close
    (isFirst : Bool) :
    readItems (fuel + 1) level isFirst (.char ']' :: rest) = ([], none, some rest) := by
  rw [readItems.eq_def]
  simp

theorem readItems_item
    {isFirst : Bool} {first : Char} {gap : List Char} {start behind : List Symbol}
    {item : Reading} {items : List Reading}
    (blank : ∀ character ∈ gap, isSpace (.char character) = true)
    (starts : StartsValue first)
    (read : readTree fuel level (.char first :: start) = (item, some behind))
    (others : readItems fuel level false (skipSpace behind) = (items, none, some rest)) :
    readItems (fuel + 1) level isFirst
        (skipSpace (separator isFirst ++ (gap.map Symbol.char ++ .char first :: start))) =
      (item :: items, none, some rest) := by
  obtain ⟨notBlank, notBracket, _⟩ := starts
  have skipped : skipSpace (gap.map Symbol.char ++ .char first :: start) =
      .char first :: start := by
    rw [skipSpace_blank blank, skipSpace_cons notBlank]
  cases isFirst with
  | true =>
      rw [separator, if_pos rfl, List.nil_append, skipped, readItems.eq_def]
      simp [notBracket, read, others]
  | false =>
      have comma : isSpace (.char ',') = false := rfl
      rw [separator, if_neg Bool.false_ne_true, List.singleton_append, skipSpace_cons comma,
        readItems.eq_def]
      simp [skipped, notBracket, read, others]

theorem readMembers_close
    (isFirst : Bool) :
    readMembers (fuel + 1) level isFirst (.char '\x7d' :: rest) = ([], none, some rest) := by
  rw [readMembers.eq_def]
  simp

theorem readMembers_member
    {isFirst : Bool} {key : String} {first : Char} {gap space : List Char}
    {start behind : List Symbol} {value : Reading} {members : List (Option String × Reading)}
    (gapBlank : ∀ character ∈ gap, isSpace (.char character) = true)
    (spaceBlank : ∀ character ∈ space, isSpace (.char character) = true)
    (starts : StartsValue first)
    (read : readTree fuel level (.char first :: start) = (value, some behind))
    (others : readMembers fuel level false (skipSpace behind) = (members, none, some rest)) :
    readMembers (fuel + 1) level isFirst
        (skipSpace (separator isFirst ++ (gap.map Symbol.char ++
          ((quote key).map Symbol.char ++
            .char ':' :: (space.map Symbol.char ++ .char first :: start))))) =
      ((some key, value) :: members, none, some rest) := by
  have afterColon : skipSpace (space.map Symbol.char ++ .char first :: start) =
      .char first :: start := by
    rw [skipSpace_blank spaceBlank, skipSpace_cons starts.1]
  -- From here on it does not matter what stands behind the colon.
  generalize space.map Symbol.char ++ .char first :: start = content at afterColon
  have colon : isSpace (.char ':') = false := rfl
  have quoteMark : isSpace (.char '"') = false := rfl
  have readKey := readString_quote key (.char ':' :: content)
  have quoted : (quote key).map Symbol.char ++ .char ':' :: content =
      .char '"' :: ((key.toList.flatMap escapeChar).map Symbol.char ++
        .char '"' :: .char ':' :: content) := by
    simp [quote]
  have skipped : skipSpace (gap.map Symbol.char ++ ((quote key).map Symbol.char ++
      .char ':' :: content)) = .char '"' :: ((key.toList.flatMap escapeChar).map Symbol.char ++
        .char '"' :: .char ':' :: content) := by
    rw [skipSpace_blank gapBlank, quoted, skipSpace_cons quoteMark]
  cases isFirst with
  | true =>
      rw [separator, if_pos rfl, List.nil_append, skipped, readMembers.eq_def]
      simp [readKey, skipSpace_cons colon, afterColon, read, others, Except.toOption]
  | false =>
      have comma : isSpace (.char ',') = false := rfl
      rw [separator, if_neg Bool.false_ne_true, List.singleton_append, skipSpace_cons comma,
        readMembers.eq_def]
      simp [skipped, readKey, skipSpace_cons colon, afterColon, read, others, Except.toOption]

end Steps

/-! ## Whole texts -/

theorem map_separated
    (layout : Layout) (level : Nat) (isFirst : Bool) (content : List Char) (rest : List Symbol) :
    ((if isFirst then [] else [',']) ++ (layout.gap level ++ content)).map Symbol.char ++ rest =
      separator isFirst ++ ((layout.gap level).map Symbol.char ++
        (content.map Symbol.char ++ rest)) := by
  cases isFirst with
  | true => simp [separator]
  | false => simp [separator]

/-- Behind an item or member there is a comma, a blank or the closing bracket. -/
theorem breaks_blank
    {blank : List Char} (areBlank : ∀ character ∈ blank, isSpace (.char character) = true)
    {rest : List Symbol} (ends : Breaks rest) :
    Breaks (blank.map Symbol.char ++ rest) := by
  cases blank with
  | nil => exact ends
  | cons first more =>
      exact breaks_cons (mem_breaks_of_isSpace (areBlank first List.mem_cons_self)) _

theorem breaks_items
    (layout : Layout) (level : Nat) (items : List Value) {rest : List Symbol}
    (ends : Breaks rest) :
    Breaks ((laidOutItems layout level false items).map Symbol.char ++ rest) := by
  cases items with
  | nil => exact ends
  | cons item others => exact breaks_cons (by decide) _

theorem breaks_members
    (layout : Layout) (level : Nat) (members : List (String × Value)) {rest : List Symbol}
    (ends : Breaks rest) :
    Breaks ((laidOutMembers layout level false members).map Symbol.char ++ rest) := by
  cases members with
  | nil => exact ends
  | cons member others => exact breaks_cons (by decide) _

mutual

/-- A value that fits is read back from each of its texts, up to where the text ends. Twice the
length of a text is fuel enough: each step of the reader but one for each item or member passes
over a character. -/
theorem readTree_laidOut
    (layout : Layout) :
    ∀ (value : Value) (indent fuel level room : Nat) (rest : List Symbol),
      value.Fits room → level + room ≤ maxDepth →
      2 * (value.laidOut layout indent).length ≤ fuel → Breaks rest →
      readTree fuel level ((value.laidOut layout indent).map Symbol.char ++ rest) =
        (value.reading, some rest)
  | .null, indent, fuel, level, room, rest, _, _, enough, _ => by
      obtain ⟨fuel, rfl⟩ := Nat.exists_eq_add_one_of_ne_zero
        (show fuel ≠ 0 by
          have length : (Value.laidOut layout indent .null).length = 4 := rfl
          omega)
      rfl
  | .bool value, indent, fuel, level, room, rest, _, _, enough, _ => by
      obtain ⟨fuel, rfl⟩ := Nat.exists_eq_add_one_of_ne_zero
        (show fuel ≠ 0 by
          have length : 4 ≤ (Value.laidOut layout indent (.bool value)).length := by
            cases value <;> simp [Value.laidOut]
          omega)
      cases value <;> rfl
  | .number (.binary _), _, _, _, _, _, fits, _, _, _ => absurd fits id
  | .number (.whole value), indent, fuel, level, room, rest, fits, _, enough, ends => by
      obtain ⟨first, more, spelled, _⟩ := wholeText_cons value
      obtain ⟨fuel, rfl⟩ := Nat.exists_eq_add_one_of_ne_zero
        (show fuel ≠ 0 by
          rw [Value.laidOut, spelled, List.length_cons] at enough
          omega)
      exact readTree_number fits ends
  | .string text, indent, fuel, level, room, rest, _, _, enough, _ => by
      obtain ⟨fuel, rfl⟩ := Nat.exists_eq_add_one_of_ne_zero
        (show fuel ≠ 0 by
          rw [Value.laidOut, quote, List.cons_append, List.length_cons] at enough
          omega)
      exact readTree_string text
  | .array items, indent, fuel, level, room, rest, fits, shallow, enough, _ => by
      obtain ⟨positive, itemsFit⟩ := fits
      rw [Value.laidOut, List.length_append, List.length_cons, List.length_append] at enough
      simp only [List.length_singleton] at enough
      obtain ⟨fuel, rfl⟩ := Nat.exists_eq_add_one_of_ne_zero (show fuel ≠ 0 by omega)
      -- One level less is left for the items, which stand one level deeper.
      have read := readItems_laidOut layout items true (indent + 1) fuel (level + 1) (room - 1)
        (layout.closing indent items.isEmpty) rest itemsFit (by omega) (by omega)
        (layout.closing_blank indent items.isEmpty)
        (breaks_blank (layout.closing_blank indent items.isEmpty) (breaks_cons (by decide) rest))
      rw [Value.laidOut, Value.reading]
      simp only [List.cons_append, List.map_cons, List.map_append, List.append_assoc,
        List.map_nil, List.nil_append]
      exact readTree_array (by omega) read
  | .object members, indent, fuel, level, room, rest, fits, shallow, enough, _ => by
      obtain ⟨positive, membersFit⟩ := fits
      rw [Value.laidOut, List.length_append, List.length_cons, List.length_append] at enough
      simp only [List.length_singleton] at enough
      obtain ⟨fuel, rfl⟩ := Nat.exists_eq_add_one_of_ne_zero (show fuel ≠ 0 by omega)
      have read := readMembers_laidOut layout members true (indent + 1) fuel (level + 1)
        (room - 1) (layout.closing indent members.isEmpty) rest membersFit (by omega) (by omega)
        (layout.closing_blank indent members.isEmpty)
        (breaks_blank (layout.closing_blank indent members.isEmpty) (breaks_cons (by decide) rest))
      rw [Value.laidOut, Value.reading]
      simp only [List.cons_append, List.map_cons, List.map_append, List.append_assoc,
        List.map_nil, List.nil_append]
      exact readTree_object (by omega) read

theorem readItems_laidOut
    (layout : Layout) :
    ∀ (items : List Value) (isFirst : Bool) (indent fuel level room : Nat)
      (closing : List Char) (rest : List Symbol),
      FitsItems room items → level + room ≤ maxDepth →
      2 * (laidOutItems layout indent isFirst items).length + 1 ≤ fuel →
      (∀ character ∈ closing, isSpace (.char character) = true) →
      Breaks (closing.map Symbol.char ++ .char ']' :: rest) →
      readItems fuel level isFirst
          (skipSpace ((laidOutItems layout indent isFirst items).map Symbol.char ++
            (closing.map Symbol.char ++ .char ']' :: rest))) =
        (readingItems items, none, some rest)
  | [], isFirst, indent, fuel, level, room, closing, rest, _, _, enough, blank, _ => by
      obtain ⟨fuel, rfl⟩ := Nat.exists_eq_add_one_of_ne_zero (show fuel ≠ 0 by omega)
      have bracket : isSpace (.char ']') = false := rfl
      rw [laidOutItems, List.map_nil, List.nil_append, skipSpace_blank blank,
        skipSpace_cons bracket]
      exact readItems_close isFirst
  | item :: others, isFirst, indent, fuel, level, room, closing, rest, fits, shallow, enough,
      blank, ends => by
      obtain ⟨itemFits, othersFit⟩ := fits
      obtain ⟨first, more, spelled, starts⟩ := laidOut_cons layout indent itemFits
      have itemLength : 0 < (item.laidOut layout indent).length := by
        rw [spelled]
        exact Nat.succ_pos _
      rw [laidOutItems, List.length_append, List.length_append, List.length_append] at enough
      obtain ⟨fuel, rfl⟩ := Nat.exists_eq_add_one_of_ne_zero (show fuel ≠ 0 by omega)
      have read := readTree_laidOut layout item indent fuel level room _ itemFits shallow
        (by omega) (breaks_items layout indent others ends)
      have readOthers := readItems_laidOut layout others false indent fuel level room closing
        rest othersFit shallow (by omega) blank ends
      rw [laidOutItems, map_separated, readingItems, List.map_append, List.append_assoc]
      rw [spelled, List.map_cons, List.cons_append] at read ⊢
      exact readItems_item (layout.gap_blank indent) starts read readOthers

theorem readMembers_laidOut
    (layout : Layout) :
    ∀ (members : List (String × Value)) (isFirst : Bool) (indent fuel level room : Nat)
      (closing : List Char) (rest : List Symbol),
      FitsMembers room members → level + room ≤ maxDepth →
      2 * (laidOutMembers layout indent isFirst members).length + 1 ≤ fuel →
      (∀ character ∈ closing, isSpace (.char character) = true) →
      Breaks (closing.map Symbol.char ++ .char '\x7d' :: rest) →
      readMembers fuel level isFirst
          (skipSpace ((laidOutMembers layout indent isFirst members).map Symbol.char ++
            (closing.map Symbol.char ++ .char '\x7d' :: rest))) =
        (readingMembers members, none, some rest)
  | [], isFirst, indent, fuel, level, room, closing, rest, _, _, enough, blank, _ => by
      obtain ⟨fuel, rfl⟩ := Nat.exists_eq_add_one_of_ne_zero (show fuel ≠ 0 by omega)
      have brace : isSpace (.char '\x7d') = false := rfl
      rw [laidOutMembers, List.map_nil, List.nil_append, skipSpace_blank blank,
        skipSpace_cons brace]
      exact readMembers_close isFirst
  | (key, value) :: others, isFirst, indent, fuel, level, room, closing, rest, fits, shallow,
      enough, blank, ends => by
      obtain ⟨valueFits, othersFit⟩ := fits
      obtain ⟨first, more, spelled, starts⟩ := laidOut_cons layout indent valueFits
      have valueLength : 0 < (value.laidOut layout indent).length := by
        rw [spelled]
        exact Nat.succ_pos _
      rw [laidOutMembers, List.length_append, List.length_append, List.length_append,
        List.length_cons, List.length_append, List.length_append] at enough
      obtain ⟨fuel, rfl⟩ := Nat.exists_eq_add_one_of_ne_zero (show fuel ≠ 0 by omega)
      have read := readTree_laidOut layout value indent fuel level room _ valueFits shallow
        (by omega) (breaks_members layout indent others ends)
      have readOthers := readMembers_laidOut layout others false indent fuel level room closing
        rest othersFit shallow (by omega) blank ends
      rw [laidOutMembers, map_separated, readingMembers, List.map_append, List.map_cons,
        List.map_append, List.map_append, List.append_assoc, List.cons_append,
        List.append_assoc, List.append_assoc]
      rw [spelled, List.map_cons, List.cons_append] at read ⊢
      exact readMembers_member (layout.gap_blank indent) layout.space_blank starts read
        readOthers

end

/-- The document of a text is the value that was written, whatever blanks follow it. -/
theorem ofSymbols_laidOut
    (layout : Layout) {value : Value} (fits : value.Fits maxDepth) {blank : List Char}
    (areBlank : ∀ character ∈ blank, isSpace (.char character) = true) :
    Document.ofSymbols ((value.laidOut layout 0 ++ blank).map Symbol.char) =
      ⟨value.reading, none⟩ := by
  obtain ⟨first, more, spelled, notBlank, _⟩ := laidOut_cons layout 0 fits
  have ends : Breaks (blank.map Symbol.char) := by
    rw [← List.append_nil (blank.map Symbol.char)]
    exact breaks_blank areBlank breaks_nil
  have read := readTree_laidOut layout value 0
    (2 * ((value.laidOut layout 0 ++ blank).map Symbol.char).length + 2) 0 maxDepth
    (blank.map Symbol.char) fits (by omega)
    (by
      rw [List.length_map, List.length_append]
      omega)
    ends
  have start : skipSpace ((value.laidOut layout 0 ++ blank).map Symbol.char) =
      (value.laidOut layout 0).map Symbol.char ++ blank.map Symbol.char := by
    rw [List.map_append, spelled, List.map_cons, List.cons_append, skipSpace_cons notBlank]
  have behind : skipSpace (blank.map Symbol.char) = [] := by
    have skipped := skipSpace_blank areBlank []
    rw [List.append_nil] at skipped
    exact skipped
  rw [Document.ofSymbols, start, read]
  simp only [behind, List.isEmpty_nil, if_true]

/-- A document on indented lines is read back from its bytes. -/
theorem ofBytes_pretty
    {value : Value} (fits : value.Fits maxDepth) :
    Document.ofBytes (value.pretty ++ "\n").toUTF8 = ⟨value.reading, none⟩ := by
  have blank : ∀ character ∈ ['\n'], isSpace (.char character) = true :=
    List.forall_mem_singleton.mpr rfl
  have read := ofSymbols_laidOut Layout.lines fits blank
  rw [Document.ofBytes, symbols_toUTF8, symbolsOf, String.toList_append, Value.pretty,
    String.toList_ofList, prettyChars_eq]
  exact read

/-- A compact text is read back. -/
theorem ofText_compact
    {value : Value} (fits : value.Fits maxDepth) :
    Document.ofText value.compact = ⟨value.reading, none⟩ := by
  have blank : ∀ character ∈ ([] : List Char), isSpace (.char character) = true := by simp
  have read := ofSymbols_laidOut Layout.compact fits blank
  rw [List.append_nil] at read
  rw [Document.ofText, symbolsOf, Value.compact, String.toList_ofList, compactChars_eq 0]
  exact read

/-- A text on indented lines is read back. -/
theorem ofText_pretty
    {value : Value} (fits : value.Fits maxDepth) :
    Document.ofText value.pretty = ⟨value.reading, none⟩ := by
  have blank : ∀ character ∈ ([] : List Char), isSpace (.char character) = true := by simp
  have read := ofSymbols_laidOut Layout.lines fits blank
  rw [List.append_nil] at read
  rw [Document.ofText, symbolsOf, Value.pretty, String.toList_ofList, prettyChars_eq]
  exact read

end Pipework.Json
