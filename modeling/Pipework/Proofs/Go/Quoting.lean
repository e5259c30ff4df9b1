import Pipework.Proofs.Go.StringLiteral

/-!
# Texts as string literals

Every text is written as a Go string literal on one line which is read back as that text, by
Go's own grammar as well as by the reader of the escapes that are written
(`Go.literal_spells`). What is written for each character is one of three things
(`Go.Writes`), and what holds of the literal is seen character by character from there.
-/

namespace Pipework.Go

open Text (bytes)

/-! ## Characters -/

/-- What can be written for a character between the quotes of a literal: the character itself, a
sign behind a backslash, or two digits behind `\x`. -/
inductive Writes : Char → List Char → Prop where
  | plain {character : Char} (isPlain : IsPlain character)
      (visible : 0x20 ≤ character.toNat ∧ character.toNat ≠ 0x7F) : Writes character [character]
  | sign {character sign : Char} {byte : UInt8} (known : (sign, byte) ∈ escapeSigns)
      (isRead : escaped? sign = some character)
      (isByte : String.utf8EncodeChar character = [byte]) : Writes character ['\\', sign]
  | number {character high low : Char} {number : Nat}
      (spelled : numberOfDigits? 16 [high, low] = some number)
      (isRead : hexChar? high low = some character)
      (isByte : String.utf8EncodeChar character = [UInt8.ofNat number]) :
      Writes character ['\\', 'x', high, low]

theorem hexDigits_spell :
    ∀ code < 128,
      numberOfDigits? 16 [Json.hexDigit (code / 16), Json.hexDigit (code % 16)] = some code ∧
        hexChar? (Json.hexDigit (code / 16)) (Json.hexDigit (code % 16)) =
          some (Char.ofNat code) ∧
        String.utf8EncodeChar (Char.ofNat code) = [UInt8.ofNat code] := by
  decide +kernel

theorem writes_literalChar
    (character : Char) :
    Writes character (literalChar character) := by
  rw [literalChar]
  split
  · rename_i isQuote
    subst isQuote
    exact .sign (show ('"', (34 : UInt8)) ∈ escapeSigns by decide) (by decide) (by decide)
  split
  · rename_i isBackslash
    subst isBackslash
    exact .sign (show ('\\', (92 : UInt8)) ∈ escapeSigns by decide) (by decide) (by decide)
  split
  · rename_i isFeed
    subst isFeed
    exact .sign (show ('n', (10 : UInt8)) ∈ escapeSigns by decide) (by decide) (by decide)
  split
  · rename_i isReturn
    subst isReturn
    exact .sign (show ('r', (13 : UInt8)) ∈ escapeSigns by decide) (by decide) (by decide)
  split
  · rename_i isTab
    subst isTab
    exact .sign (show ('t', (9 : UInt8)) ∈ escapeSigns by decide) (by decide) (by decide)
  split
  · rename_i isControl
    simp only [Bool.or_eq_true, decide_eq_true_eq] at isControl
    obtain ⟨spelled, isRead, isByte⟩ := hexDigits_spell character.toNat (by omega)
    rw [Char.ofNat_toNat] at isRead isByte
    exact .number spelled isRead isByte
  · rename_i notQuote notBackslash notFeed _ _ noControl
    simp only [Bool.or_eq_true, decide_eq_true_eq, not_or, Nat.not_lt] at noControl
    exact .plain ⟨notQuote, notBackslash, notFeed⟩ noControl

theorem hexValue?_bounds
    {digit : Char} {value : Nat} (isValue : hexValue? digit = some value) :
    48 ≤ digit.toNat ∧ digit.toNat ≤ 102 ∧ digit ≠ '\\' := by
  rw [hexValue?] at isValue
  split_ifs at isValue with isDigit isLower isUpper
  · have bounds : 48 ≤ digit.toNat ∧ digit.toNat ≤ 57 := Char.isDigit_iff_toNat.mp isDigit
    refine ⟨bounds.1, by omega, ?_⟩
    rintro rfl
    exact absurd bounds (by decide)
  · have bounds : 97 ≤ digit.toNat ∧ digit.toNat ≤ 102 := isLower
    refine ⟨by omega, bounds.2, ?_⟩
    rintro rfl
    exact absurd bounds (by decide)
  · have bounds : 65 ≤ digit.toNat ∧ digit.toNat ≤ 70 := isUpper
    refine ⟨by omega, by omega, ?_⟩
    rintro rfl
    exact absurd bounds (by decide)

theorem hexValue?_of_hexChar?
    {high low character : Char} (isRead : hexChar? high low = some character) :
    (∃ value, hexValue? high = some value) ∧ ∃ value, hexValue? low = some value := by
  obtain ⟨first, isHigh, isRead⟩ := Option.bind_eq_some_iff.mp isRead
  obtain ⟨second, isLow, _⟩ := Option.bind_eq_some_iff.mp isRead
  exact ⟨⟨first, isHigh⟩, second, isLow⟩

/-- How many backslashes stand at the end of a text. -/
def closingBackslashes (text : List Char) : Nat :=
  (text.reverse.takeWhile (· = '\\')).length

theorem closingBackslashes_concat
    {last : Char} (different : last ≠ '\\') (text : List Char) :
    closingBackslashes (text ++ [last]) = 0 := by
  rw [closingBackslashes, List.reverse_append, List.reverse_singleton, List.singleton_append,
    List.takeWhile_cons_of_neg (by simpa using different), List.length_nil]

/-- Pairs of backslashes in front of a text do not change which of its ends are odd. -/
theorem closingBackslashes_append
    {front : List Char} (even : closingBackslashes front % 2 = 0) (back : List Char) :
    closingBackslashes (front ++ back) % 2 = closingBackslashes back % 2 := by
  rw [closingBackslashes] at even
  rw [closingBackslashes, closingBackslashes, List.reverse_append, List.takeWhile_append]
  split
  · rename_i allBackslashes
    rw [List.length_append, ← allBackslashes]
    omega
  · rfl

namespace Writes

variable {character : Char} {written : List Char}

/-- What is written for a character is read as that character. -/
theorem literalBody?_append
    (writes : Writes character written) (rest : List Char) :
    literalBody? (written ++ rest) = (character :: ·) <$> literalBody? rest := by
  cases writes with
  | plain isPlain _ =>
      rw [List.singleton_append, literalBody?.eq_def]
      simp [isPlain.1, isPlain.2.1, isPlain.2.2]
  | @sign sign _ _ isRead _ =>
      have notNumber : sign ≠ 'x' := by
        rintro rfl
        exact nomatch isRead
      rw [List.cons_append, List.singleton_append, literalBody?.eq_def]
      simp [notNumber, isRead]
  | number _ isRead _ =>
      simp [literalBody?, isRead]

/-- What is written for a character spells its bytes. -/
theorem literalItem
    (writes : Writes character written) :
    LiteralItem written (String.utf8EncodeChar character) := by
  cases writes with
  | plain isPlain _ => exact .plain isPlain
  | sign known _ isByte =>
      rw [isByte]
      exact .sign known
  | number spelled _ isByte =>
      rw [isByte]
      exact .hex rfl spelled

theorem visible
    (writes : Writes character written) :
    ∀ sign ∈ written, 0x20 ≤ sign.toNat ∧ sign.toNat ≠ 0x7F := by
  have isBackslash : 0x20 ≤ '\\'.toNat ∧ '\\'.toNat ≠ 0x7F := by decide
  cases writes with
  | plain _ isVisible => exact List.forall_mem_singleton.mpr isVisible
  | @sign sign byte known _ _ =>
      have areVisible : ∀ pair ∈ escapeSigns, 0x20 ≤ pair.1.toNat ∧ pair.1.toNat ≠ 0x7F := by
        decide
      exact List.forall_mem_cons.mpr
        ⟨isBackslash, List.forall_mem_singleton.mpr (areVisible (sign, byte) known)⟩
  | number _ isRead _ =>
      obtain ⟨⟨_, isHigh⟩, _, isLow⟩ := hexValue?_of_hexChar? isRead
      have highBounds := hexValue?_bounds isHigh
      have lowBounds := hexValue?_bounds isLow
      simp only [List.forall_mem_cons, List.not_mem_nil, false_implies, implies_true, and_true]
      exact ⟨isBackslash, by decide, by omega, by omega⟩

/-- Backslashes at the end of what is written stand in pairs. -/
theorem closingBackslashes_even
    (writes : Writes character written) :
    closingBackslashes written % 2 = 0 := by
  cases writes with
  | plain isPlain _ => rw [← List.nil_append [character], closingBackslashes_concat isPlain.2.1]
  | @sign sign _ _ _ _ =>
      by_cases isBackslash : sign = '\\'
      · rw [isBackslash]
        rfl
      · exact congrArg (· % 2) (closingBackslashes_concat isBackslash ['\\'])
  | @number high low _ _ isRead _ =>
      obtain ⟨_, _, isLow⟩ := hexValue?_of_hexChar? isRead
      have notBackslash := (hexValue?_bounds isLow).2.2
      exact congrArg (· % 2) (closingBackslashes_concat notBackslash ['\\', 'x', high])

/-- A quote that is written stands right behind the backslash that escapes it. -/
theorem eq_backslash_of_quote
    (writes : Writes character written) {front back : List Char}
    (isWritten : written = front ++ '"' :: back) :
    front = ['\\'] := by
  cases writes with
  | plain isPlain _ =>
      have isQuote : '"' ∈ [character] := isWritten ▸ List.mem_append_right _ List.mem_cons_self
      exact absurd (List.mem_singleton.mp isQuote).symm isPlain.1
  | sign _ _ _ =>
      cases front with
      | nil => exact nomatch (List.cons.inj isWritten).1
      | cons first front =>
          obtain ⟨rfl, isWritten⟩ := List.cons.inj isWritten
          cases front with
          | nil => rfl
          | cons second front =>
              have isLonger := congrArg List.length (List.cons.inj isWritten).2
              simp at isLonger
  | @number high low _ _ isRead _ =>
      obtain ⟨⟨_, isHigh⟩, _, isLow⟩ := hexValue?_of_hexChar? isRead
      have highBounds := hexValue?_bounds isHigh
      have lowBounds := hexValue?_bounds isLow
      have isQuote : '"' ∈ ['\\', 'x', high, low] :=
        isWritten ▸ List.mem_append_right front List.mem_cons_self
      simp only [List.mem_cons, List.not_mem_nil, or_false] at isQuote
      rcases isQuote with isQuote | isQuote | rfl | rfl
      · exact nomatch isQuote
      · exact nomatch isQuote
      · exact absurd highBounds.1 (by decide)
      · exact absurd lowBounds.1 (by decide)

end Writes

/-! ## Texts -/

theorem literalBody?_flatMap
    (text : List Char) :
    literalBody? (text.flatMap literalChar ++ ['"']) = some text := by
  induction text with
  | nil => rfl
  | cons character rest inductionHypothesis =>
      rw [List.flatMap_cons, List.append_assoc,
        (writes_literalChar character).literalBody?_append, inductionHypothesis]
      rfl

theorem literalBody_flatMap
    (text : List Char) :
    LiteralBody (text.flatMap literalChar) (bytes text) := by
  induction text with
  | nil => exact .done
  | cons character rest inductionHypothesis =>
      rw [List.flatMap_cons, Text.bytes_cons]
      exact .item (writes_literalChar character).literalItem inductionHypothesis

/-- In front of a quote that is written stands an odd number of backslashes, the last of which
escapes it. -/
theorem closingBackslashes_odd
    {text front back : List Char} (isWritten : text.flatMap literalChar = front ++ '"' :: back) :
    closingBackslashes front % 2 = 1 := by
  induction text generalizing front with
  | nil => exact absurd isWritten.symm (List.append_ne_nil_of_right_ne_nil _ (List.cons_ne_nil _ _))
  | cons character rest inductionHypothesis =>
      have writes := writes_literalChar character
      rw [List.flatMap_cons, List.append_eq_append_iff] at isWritten
      rcases isWritten with ⟨more, rfl, isRest⟩ | ⟨more, isHere, isBehind⟩
      · rw [closingBackslashes_append writes.closingBackslashes_even]
        exact inductionHypothesis isRest
      · cases more with
        | nil =>
            rw [List.append_nil] at isHere
            rw [← isHere, ← List.append_nil (literalChar character),
              closingBackslashes_append writes.closingBackslashes_even]
            exact inductionHypothesis isBehind.symm
        | cons quote others =>
            obtain ⟨rfl, _⟩ := List.cons.inj isBehind
            rw [writes.eq_backslash_of_quote isHere]
            rfl

/-- A text is written as a string literal on one line that spells it. -/
theorem literal_spells
    (text : String) :
    (∀ sign ∈ (literal text).toList, 0x20 ≤ sign.toNat ∧ sign.toNat ≠ 0x7F) ∧
      (∃ body, (literal text).toList = '"' :: body ++ ['"'] ∧
        ∀ front back, body = front ++ '"' :: back → closingBackslashes front % 2 = 1) ∧
      literalValue? (literal text) = some text ∧
      StringLiteral (literal text).toList (bytes text.toList) := by
  have isLiteral : (literal text).toList = '"' :: text.toList.flatMap literalChar ++ ['"'] :=
    String.toList_ofList
  refine ⟨?_, ⟨_, isLiteral, fun front back => closingBackslashes_odd⟩, ?_,
    ⟨_, isLiteral, literalBody_flatMap text.toList⟩⟩
  · intro sign member
    have isQuote : 0x20 ≤ '"'.toNat ∧ '"'.toNat ≠ 0x7F := by decide
    rw [isLiteral, List.cons_append, List.mem_cons, List.mem_append, List.mem_singleton] at member
    rcases member with rfl | inBody | rfl
    · exact isQuote
    · obtain ⟨character, _, isWritten⟩ := List.mem_flatMap.mp inBody
      exact (writes_literalChar character).visible sign isWritten
    · exact isQuote
  · rw [literalValue?, isLiteral, List.cons_append]
    simp only [literalBody?_flatMap, Option.map_some, String.ofList_toList]

example : literal "a\"b\\c\n\x01" = "\"a\\\"b\\\\c\\n\\x01\"" := by decide

end Pipework.Go
