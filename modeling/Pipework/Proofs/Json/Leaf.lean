import Pipework.Json.Reading

/-!
# Numbers and strings read back

What is written for a whole number or a string is read as that number or string, up to exactly
where it was written. A number ends where a symbol stands that can follow a value
(`Json.breaks`); a string ends at its closing quote.
-/

namespace Pipework.Json

open Pipework.Text

/-! ## Where a value ends -/

/-- The symbols that can stand behind a value. -/
def breaks : List Symbol := [' ', '\n', '\t', '\r', ',', ']', '\x7d'].map Symbol.char

/-- Whether a value can end in front of some symbols. -/
def Breaks (rest : List Symbol) : Prop := ∀ first ∈ rest.head?, first ∈ breaks

theorem breaks_nil : Breaks [] := by
  intro first member
  simp at member

theorem breaks_cons
    {first : Symbol} (member : first ∈ breaks) (rest : List Symbol) :
    Breaks (first :: rest) := by
  intro other isFirst
  rw [List.head?_cons, Option.mem_some_iff] at isFirst
  exact isFirst ▸ member

/-- No symbol that ends a value goes on with a number. -/
theorem not_number_of_breaks :
    ∀ symbol ∈ breaks,
      digit? symbol = none ∧ isExponentMark symbol = false ∧ symbol ≠ .char '.' := by
  decide

/-! ## Digits -/

/-- The values of digits. -/
def digitValues (digits : List Char) : List Nat := digits.map fun digit => digit.toNat - 48

theorem digit?_char
    {digit : Char} (isDigit : digit.isDigit = true) :
    digit? (.char digit) = some (digit.toNat - 48) := by
  have bounds := Char.isDigit_iff_toNat.mp isDigit
  have low : '0' ≤ digit := bounds.1
  have high : digit ≤ '9' := bounds.2
  rw [digit?, if_pos ⟨low, high⟩]

theorem takeDigits_append
    {digits : List Char} {rest : List Symbol}
    (areDigits : ∀ digit ∈ digits, digit.isDigit = true)
    (ends : Breaks rest) :
    takeDigits (digits.map Symbol.char ++ rest) = (digitValues digits, rest) := by
  induction digits with
  | nil =>
      cases rest with
      | nil => rfl
      | cons first more =>
          have noDigit := (not_number_of_breaks first (ends first rfl)).1
          rw [List.map_nil, List.nil_append, takeDigits, noDigit]
          rfl
  | cons digit others inductionHypothesis =>
      obtain ⟨isDigit, areOthers⟩ := List.forall_mem_cons.mp areDigits
      rw [List.map_cons, List.cons_append, takeDigits, digit?_char isDigit,
        inductionHypothesis areOthers]
      rfl

theorem digitsValue_toDigits
    (value : Nat) :
    digitsValue (digitValues (Nat.toDigits 10 value)) = value := by
  have spelled : digitsValue (digitValues (Nat.toDigits 10 value)) =
      Nat.ofDigitChars 10 (Nat.toDigits 10 value) 0 := by
    rw [digitsValue, digitValues, List.foldl_map, Nat.ofDigitChars_eq_foldl]
    simp only [Nat.mul_comm, Char.reduceToNat]
  rw [spelled, Nat.ofDigitChars_ten_toDigits]

theorem isDigit_of_mem_toDigits
    (value : Nat) {digit : Char} (member : digit ∈ Nat.toDigits 10 value) :
    digit.isDigit = true :=
  Nat.isDigit_of_mem_toDigits (by omega) (by omega) member

/-- A number that is not zero is not written with a zero in front. -/
theorem head?_toDigits
    (value : Nat) (positive : 0 < value) :
    (Nat.toDigits 10 value).head? ≠ some '0' := by
  induction value using Nat.strongRecOn with
  | ind value inductionHypothesis =>
      by_cases small : value < 10
      · rw [Nat.toDigits_of_lt_base small, List.head?_cons]
        intro same
        have isZero := Nat.digitChar_eq_zero.mp (Option.some.inj same)
        omega
      · have large : 10 ≤ value := by omega
        have shorter := inductionHypothesis (value / 10) (by omega) (by omega)
        rw [Nat.toDigits_of_base_le (by omega) large, List.head?_append]
        cases digits : Nat.toDigits 10 (value / 10) with
        | nil => exact absurd digits Nat.toDigits_ne_nil
        | cons first others =>
            rw [digits] at shorter
            exact shorter

/-- Only zero itself is written with a zero in front, and then nothing follows. -/
theorem digitValues_toDigits_ne
    (value second : Nat) (others : List Nat) :
    digitValues (Nat.toDigits 10 value) ≠ 0 :: second :: others := by
  intro same
  by_cases small : value < 10
  · rw [Nat.toDigits_of_lt_base small] at same
    simp [digitValues] at same
  · have notZero := head?_toDigits value (by omega)
    cases digits : Nat.toDigits 10 value with
    | nil => exact absurd digits Nat.toDigits_ne_nil
    | cons first more =>
        rw [digits] at same notZero
        have isDigit : first.isDigit = true :=
          isDigit_of_mem_toDigits value (digits ▸ List.mem_cons_self)
        have bounds := Char.isDigit_iff_toNat.mp isDigit
        have firstValue : first.toNat - 48 = 0 := (List.cons.inj same).1
        have low : 48 ≤ first.toNat := bounds.1
        have isZero : first.toNat = '0'.toNat := by
          show first.toNat = 48
          omega
        exact notZero (congrArg some (Char.toNat_inj.mp isZero))

/-! ## Whole numbers -/

theorem readUnsigned_toDigits
    (negative : Bool) (value : Nat) {rest : List Symbol} (ends : Breaks rest) :
    readUnsigned negative ((Nat.toDigits 10 value).map Symbol.char ++ rest) =
      .ok (⟨negative, digitValues (Nat.toDigits 10 value), [], none⟩, rest) := by
  have taken := takeDigits_append
    (fun _ member => isDigit_of_mem_toDigits value member) ends
  rw [readUnsigned, taken]
  split
  · rename_i noDigits
    injection noDigits with noDigits _
    exact absurd (List.map_eq_nil_iff.mp noDigits) Nat.toDigits_ne_nil
  · rename_i second others _ zeroFirst
    injection zeroFirst with zeroFirst _
    exact absurd zeroFirst (digitValues_toDigits_ne value second others)
  · rename_i more _ _ pointed
    injection pointed with _ pointed
    have notPoint := (not_number_of_breaks (.char '.') (ends _ (by rw [pointed]; rfl))).2.2
    exact absurd rfl notPoint
  · rename_i found behind _ _ _ same
    injection same with sameDigits sameRest
    subst sameDigits sameRest
    cases rest with
    | nil => rfl
    | cons first more =>
        have noExponent := (not_number_of_breaks first (ends first rfl)).2.1
        rw [readScale, noExponent]
        rfl

/-- Whether a whole number is in the range of whole numbers. -/
def IsWhole (value : Int) : Prop :=
  -((UInt64.size / 2 : Nat) : Int) ≤ value ∧ value < (UInt64.size : Nat)

theorem isWhole_unsigned32
    (value : UInt32) :
    IsWhole value.toNat := by
  have below := value.toNat_lt
  have size : UInt64.size = 18446744073709551616 := rfl
  constructor
  · omega
  · omega

theorem isWhole_count
    (value : UInt64) :
    IsWhole value.toNat := by
  constructor
  · omega
  · exact Int.ofNat_lt.mpr value.toNat_lt_size

theorem isWhole_signed64
    (value : Int64) :
    IsWhole value.toInt := by
  have low := value.le_toInt
  have high := value.toInt_lt
  have size : UInt64.size = 18446744073709551616 := rfl
  constructor
  · omega
  · omega

theorem number?_toDigits
    (negative : Bool) {value : Nat}
    (inRange : if negative = true then 0 < value ∧ value ≤ UInt64.size / 2
      else value < UInt64.size) :
    NumberLiteral.number? ⟨negative, digitValues (Nat.toDigits 10 value), [], none⟩ =
      some (.whole (if negative then -(value : Int) else value)) := by
  have fits : (if negative then decide (0 < value) && decide (value ≤ UInt64.size / 2)
      else decide (value < UInt64.size)) = true := by
    cases negative with
    | true =>
        rw [if_pos rfl, Bool.and_eq_true, decide_eq_true_eq, decide_eq_true_eq]
        exact inRange
    | false => exact decide_eq_true inRange
  simp only [NumberLiteral.number?, digitsValue_toDigits]
  exact if_pos fits

theorem readNumber_of_unsigned
    {input rest : List Symbol} {literal : NumberLiteral} {number : Number}
    (unsigned : input.head? ≠ some (.char '-'))
    (read : readUnsigned false input = .ok (literal, rest))
    (fits : literal.number? = some number) :
    readNumber input = (.number number, some rest) := by
  rw [readNumber, read]
  · simp only [fits]
  · intro more signed
    rw [signed] at unsigned
    exact unsigned rfl

theorem readNumber_of_minus
    {input rest : List Symbol} {literal : NumberLiteral} {number : Number}
    (read : readUnsigned true input = .ok (literal, rest))
    (fits : literal.number? = some number) :
    readNumber (.char '-' :: input) = (.number number, some rest) := by
  unfold readNumber
  simp only [read, fits]

theorem readNumber_text
    {value : Int} {rest : List Symbol} (inRange : IsWhole value) (ends : Breaks rest) :
    readNumber ((Number.whole value).text.toList.map Symbol.char ++ rest) =
      (.number (.whole value), some rest) := by
  obtain ⟨low, high⟩ := inRange
  cases value with
  | ofNat value =>
      have spelled : (Number.whole (Int.ofNat value)).text.toList = Nat.toDigits 10 value :=
        Nat.toList_repr
      have natRange : value < UInt64.size := Int.ofNat_lt.mp high
      rw [spelled]
      refine readNumber_of_unsigned ?_ (readUnsigned_toDigits false value ends)
        (number?_toDigits false natRange)
      cases digits : Nat.toDigits 10 value with
      | nil => exact absurd digits Nat.toDigits_ne_nil
      | cons first others =>
          have isDigit : first.isDigit = true :=
            isDigit_of_mem_toDigits value (digits ▸ List.mem_cons_self)
          intro signed
          injection signed with signed
          injection signed with isSign
          rw [isSign] at isDigit
          exact absurd isDigit (by decide)
  | negSucc value =>
      have spelled : (Number.whole (Int.negSucc value)).text.toList =
          '-' :: Nat.toDigits 10 (value + 1) := by
        show ("-" ++ (value + 1).repr).toList = _
        rw [String.toList_append, Nat.toList_repr]
        rfl
      have natRange : 0 < value + 1 ∧ value + 1 ≤ UInt64.size / 2 := by
        constructor
        · omega
        · omega
      rw [spelled]
      exact readNumber_of_minus (readUnsigned_toDigits true (value + 1) ends)
        (number?_toDigits true natRange)

/-! ## Strings -/

theorem hexValue?_hexDigit :
    ∀ value < 16, hexValue? (.char (hexDigit value)) = some value ∧
      (hexDigit value).utf8Size = 1 := by
  decide

/-- The code unit of a character below U+0020 is read as that character. -/
theorem readCodeUnit_control
    {character : Char} (control : character.toNat < 32) (state : StringState)
    (rest : List Symbol) :
    readCodeUnit state
        (.char '0' :: .char '0' :: .char (hexDigit (character.toNat / 16)) ::
          .char (hexDigit (character.toNat % 16)) :: rest) =
      .ok (state.push character, rest) := by
  obtain ⟨highValue, highSize⟩ := hexValue?_hexDigit (character.toNat / 16) (by omega)
  obtain ⟨lowValue, lowSize⟩ := hexValue?_hexDigit (character.toNat % 16) (by omega)
  have enough : hasBytes 4
      (.char '0' :: .char '0' :: .char (hexDigit (character.toNat / 16)) ::
        .char (hexDigit (character.toNat % 16)) :: rest) = true := by
    have zeroSize : '0'.utf8Size = 1 := rfl
    simp [hasBytes, Symbol.byteSize, highSize, lowSize, zeroSize]
  have zeroValue : hexValue? (.char '0') = some 0 := rfl
  have unit : ((0 * 16 + 0) * 16 + character.toNat / 16) * 16 + character.toNat % 16 =
      character.toNat := by
    omega
  have notSurrogate : (character.toNat < 0xD800 || 0xDFFF < character.toNat) = true := by
    rw [Bool.or_eq_true, decide_eq_true_eq]
    omega
  rw [readCodeUnit, readHex, if_pos enough, zeroValue, highValue, lowValue]
  simp only [unit, notSurrogate, if_true, Char.ofNat_toNat]

/-- An escaped character is read as the character. -/
theorem readStringFrom_escapeChar
    (fuel : Nat) (content : List Char) (character : Char) (rest : List Symbol) :
    readStringFrom (fuel + 1) ⟨content, none, false⟩
        ((escapeChar character).map Symbol.char ++ rest) =
      readStringFrom fuel ⟨character :: content, none, false⟩ rest := by
  rw [escapeChar]
  split
  · rename_i isQuote
    rw [isQuote]
    rfl
  split
  · rename_i isBackslash
    rw [isBackslash]
    rfl
  split
  · rename_i isLineFeed
    rw [isLineFeed]
    rfl
  split
  · rename_i isReturn
    rw [isReturn]
    rfl
  split
  · rename_i isTab
    rw [isTab]
    rfl
  split
  · rename_i isBackspace
    rw [← Char.ofNat_toNat character, isBackspace]
    rfl
  split
  · rename_i isFormFeed
    rw [← Char.ofNat_toNat character, isFormFeed]
    rfl
  split
  · rename_i control
    have unit := readCodeUnit_control control ⟨content, none, false⟩ rest
    simp only [List.map_cons, List.map_nil, List.cons_append, List.nil_append]
    rw [readStringFrom]
    simp only [Char.reduceEq, if_false, if_true, unit]
    rfl
  · rename_i notQuote notBackslash _ _ _ _ _ notControl
    simp only [List.map_cons, List.map_nil, List.cons_append, List.nil_append]
    rw [readStringFrom.eq_def]
    simp only [notQuote, notBackslash, notControl, if_false]
    rfl

theorem length_escapeChar_pos
    (character : Char) :
    0 < (escapeChar character).length := by
  rw [escapeChar]
  repeat' split
  all_goals simp

theorem readStringFrom_flatMap
    {fuel : Nat} (content chars : List Char) (rest : List Symbol)
    (enough : (chars.flatMap escapeChar).length < fuel) :
    readStringFrom fuel ⟨content, none, false⟩
        ((chars.flatMap escapeChar).map Symbol.char ++ .char '"' :: rest) =
      (.ok (String.ofList (content.reverse ++ chars)), some rest) := by
  induction chars generalizing fuel content with
  | nil =>
      obtain ⟨fuel, rfl⟩ := Nat.exists_eq_add_one_of_ne_zero (Nat.ne_of_gt enough)
      rw [List.append_nil]
      rfl
  | cons character others inductionHypothesis =>
      obtain ⟨fuel, rfl⟩ := Nat.exists_eq_add_one_of_ne_zero (Nat.ne_zero_of_lt enough)
      have consumed := length_escapeChar_pos character
      rw [List.flatMap_cons, List.length_append] at enough
      rw [List.flatMap_cons, List.map_append, List.append_assoc, readStringFrom_escapeChar,
        inductionHypothesis (character :: content) (by omega), List.reverse_cons,
        List.append_assoc]
      rfl

/-- A quoted text is read back behind its opening quote. -/
theorem readString_quote
    (text : String) (rest : List Symbol) :
    readString ((text.toList.flatMap escapeChar).map Symbol.char ++ .char '"' :: rest) =
      (.ok text, some rest) := by
  rw [readString, readStringFrom_flatMap [] text.toList rest ?enough]
  · simp
  case enough =>
    rw [List.length_append, List.length_map]
    omega

end Pipework.Json
