import Pipework.Go.Ident

/-!
# Names that do not collide

Each byte of a name becomes a code word, and no code word begins another one, so a name can be
read back from what it became. None begins with an underscore and a `w` either, which is why the
endings of private channels collide with nothing: two variables of a program are the same only
when they are of the same channel and, if one of them is private, of the same writer.
-/

namespace Pipework.Go

/-! ## Code words -/

theorem toNat_char_of_byte
    (byte : UInt8) :
    (Char.ofNat byte.toNat).toNat = byte.toNat := by
  have small := byte.toNat_lt
  have isChar : byte.toNat.isValidChar := Or.inl (by omega)
  rw [Char.ofNat, dif_pos isChar]
  rfl

theorem upperHexDigit_injective
    {left right : Nat} (leftSmall : left < 16) (rightSmall : right < 16)
    (same : upperHexDigit left = upperHexDigit right) :
    left = right := by
  have all : ∀ first < 16, ∀ second < 16,
      upperHexDigit first = upperHexDigit second → first = second := by decide
  exact all left leftSmall right rightSmall same

theorem mangleByte_cases
    (byte : UInt8) :
    ((Char.ofNat byte.toNat).isAlphanum = true ∧ mangleByte byte = [Char.ofNat byte.toNat]) ∨
      (Char.ofNat byte.toNat = '_' ∧ mangleByte byte = ['_', '_']) ∨
      mangleByte byte =
        ['_', 'x', upperHexDigit (byte.toNat / 16), upperHexDigit (byte.toNat % 16)] := by
  simp only [mangleByte]
  by_cases alphanumeric : (Char.ofNat byte.toNat).isAlphanum = true
  · exact Or.inl ⟨alphanumeric, if_pos alphanumeric⟩
  · rw [if_neg alphanumeric]
    by_cases underscore : Char.ofNat byte.toNat = '_'
    · exact Or.inr (Or.inl ⟨underscore, if_pos underscore⟩)
    · exact Or.inr (Or.inr (if_neg underscore))

theorem ne_underscore_of_isAlphanum
    {character : Char} (alphanumeric : character.isAlphanum = true) :
    character ≠ '_' := by
  rintro rfl
  exact absurd alphanumeric (by decide)

theorem byte_eq_of_char
    {left right : UInt8} (same : Char.ofNat left.toNat = Char.ofNat right.toNat) :
    left = right := by
  have sameNumber := congrArg Char.toNat same
  rw [toNat_char_of_byte, toNat_char_of_byte] at sameNumber
  exact UInt8.toNat_inj.mp sameNumber

/-- A code word can be read off the front of a text. -/
theorem mangleByte_append_inj
    {left right : UInt8} {leftRest rightRest : List Char}
    (same : mangleByte left ++ leftRest = mangleByte right ++ rightRest) :
    left = right ∧ leftRest = rightRest := by
  rcases mangleByte_cases left with ⟨leftAlpha, leftWord⟩ | ⟨leftChar, leftWord⟩ | leftWord <;>
    rcases mangleByte_cases right with ⟨rightAlpha, rightWord⟩ | ⟨rightChar, rightWord⟩ | rightWord <;>
    rw [leftWord, rightWord] at same <;>
    simp only [List.cons_append, List.nil_append, List.cons.injEq, true_and] at same
  · exact ⟨byte_eq_of_char same.1, same.2⟩
  · exact absurd same.1 (ne_underscore_of_isAlphanum leftAlpha)
  · exact absurd same.1 (ne_underscore_of_isAlphanum leftAlpha)
  · exact absurd same.1.symm (ne_underscore_of_isAlphanum rightAlpha)
  · exact ⟨byte_eq_of_char (leftChar.trans rightChar.symm), same⟩
  · exact absurd same.1 (by decide)
  · exact absurd same.1.symm (ne_underscore_of_isAlphanum rightAlpha)
  · exact absurd same.1 (by decide)
  · obtain ⟨high, low, sameRest⟩ := same
    have leftSize := left.toNat_lt
    have rightSize := right.toNat_lt
    have sameHigh : left.toNat / 16 = right.toNat / 16 :=
      upperHexDigit_injective (by omega) (by omega) high
    have sameLow : left.toNat % 16 = right.toNat % 16 :=
      upperHexDigit_injective (by omega) (by omega) low
    have sameNumber : left.toNat = right.toNat := by omega
    exact ⟨UInt8.toNat_inj.mp sameNumber, sameRest⟩

/-! ## Names -/

/-- What may stand behind an escaped name: nothing, or the ending of a private channel. -/
def Ends (rest : List Char) : Prop := rest = [] ∨ ∃ tail, rest = '_' :: 'w' :: tail

theorem not_ends_mangleByte
    (byte : UInt8) (rest : List Char) :
    ¬ Ends (mangleByte byte ++ rest) := by
  intro ends
  rcases mangleByte_cases byte with ⟨alphanumeric, word⟩ | ⟨_, word⟩ | word <;>
    rw [word] at ends <;> rcases ends with empty | ⟨tail, ending⟩
  · exact List.cons_ne_nil _ _ empty
  · injection ending with atHead _
    exact ne_underscore_of_isAlphanum alphanumeric atHead
  · exact List.cons_ne_nil _ _ empty
  · injection ending with _ behind
    injection behind with atSecond _
    exact absurd atSecond (by decide)
  · exact List.cons_ne_nil _ _ empty
  · injection ending with _ behind
    injection behind with atSecond _
    exact absurd atSecond (by decide)

theorem mangleBytes_append_inj
    {left right : List UInt8} {leftRest rightRest : List Char}
    (leftEnds : Ends leftRest) (rightEnds : Ends rightRest)
    (same : mangleBytes left ++ leftRest = mangleBytes right ++ rightRest) :
    left = right ∧ leftRest = rightRest := by
  induction left generalizing right with
  | nil =>
      cases right with
      | nil => exact ⟨rfl, same⟩
      | cons byte bytes =>
          rw [mangleBytes, mangleBytes, List.flatMap_nil, List.nil_append, List.flatMap_cons,
            List.append_assoc] at same
          exact absurd (same ▸ leftEnds) (not_ends_mangleByte byte _)
  | cons leftByte leftBytes inductionHypothesis =>
      rw [mangleBytes, List.flatMap_cons, List.append_assoc] at same
      cases right with
      | nil =>
          rw [mangleBytes, List.flatMap_nil, List.nil_append] at same
          exact absurd (same ▸ rightEnds) (not_ends_mangleByte leftByte _)
      | cons rightByte rightBytes =>
          rw [mangleBytes, List.flatMap_cons, List.append_assoc] at same
          obtain ⟨sameByte, sameTail⟩ := mangleByte_append_inj same
          obtain ⟨sameBytes, sameRest⟩ := inductionHypothesis sameTail
          exact ⟨by rw [sameByte, sameBytes], sameRest⟩

theorem bytes_injective
    {left right : String}
    (same : left.toUTF8.data.toList = right.toUTF8.data.toList) :
    left = right := by
  have sameData : left.toUTF8.data = right.toUTF8.data := Array.toList_inj.mp same
  exact String.toByteArray_inj.mp (ByteArray.ext sameData)

/-! ## Variables -/

/-- The ending of a variable: that of the private channel of a writer, or none. -/
def ending : Option Nat → List Char
  | none => []
  | some writer => '_' :: 'w' :: (toString writer).toList

theorem ends_ending
    (writer : Option Nat) :
    Ends (ending writer) := by
  cases writer with
  | none => exact Or.inl rfl
  | some number => exact Or.inr ⟨_, rfl⟩

theorem toString_injective
    {left right : Nat} (same : toString left = toString right) :
    left = right := by
  have sameDigits : Nat.toDigits 10 left = Nat.toDigits 10 right := by
    have sameText : left.repr = right.repr := same
    rw [Nat.repr_eq_ofList_toDigits, Nat.repr_eq_ofList_toDigits] at sameText
    exact String.ofList_inj.mp sameText
  rw [← Nat.ofDigitChars_ten_toDigits (n := left), sameDigits, Nat.ofDigitChars_ten_toDigits]

theorem ending_injective
    {left right : Option Nat} (same : ending left = ending right) :
    left = right := by
  cases left with
  | none =>
      cases right with
      | none => rfl
      | some number => exact absurd same.symm (List.cons_ne_nil _ _)
  | some leftNumber =>
      cases right with
      | none => exact absurd same (List.cons_ne_nil _ _)
      | some rightNumber =>
          injection same with _ behind
          injection behind with _ sameDigits
          rw [toString_injective (String.toList_inj.mp sameDigits)]

/-- The variable of a channel, or of one of its writers. -/
def channelVariable (channel : String) : Option Nat → String
  | none => channelIdent channel
  | some writer => writerIdent channel writer

theorem toList_channelVariable
    (channel : String) (writer : Option Nat) :
    (channelVariable channel writer).toList =
      "chan_".toList ++ (mangleBytes channel.toUTF8.data.toList ++ ending writer) := by
  cases writer with
  | none => simp [channelVariable, channelIdent, mangle, ending]
  | some number => simp [channelVariable, writerIdent, channelIdent, mangle, ending]

theorem channelVariable_injective
    {left right : String} {leftWriter rightWriter : Option Nat}
    (same : channelVariable left leftWriter = channelVariable right rightWriter) :
    left = right ∧ leftWriter = rightWriter := by
  have sameText := congrArg String.toList same
  rw [toList_channelVariable, toList_channelVariable] at sameText
  have sameNames := List.append_cancel_left sameText
  obtain ⟨sameBytes, sameEnding⟩ :=
    mangleBytes_append_inj (ends_ending leftWriter) (ends_ending rightWriter) sameNames
  exact ⟨bytes_injective sameBytes, ending_injective sameEnding⟩

end Pipework.Go
