import Pipework.Go.Literal
import Pipework.Proofs.Text.Bytes

/-!
# Interpreted string literals

A Go string literal stands between double quotes on one line and spells bytes: a character for
itself, or an escape. `Go.StringLiteral` is the grammar of these literals with the bytes that they
spell. An escape is always longer than what it spells, so a text between two quotes spells itself
exactly when no character of it has a meaning of its own (`Go.stringLiteral_quoted_iff`).
-/

namespace Pipework.Go

open Text (bytes)

/-! ## The grammar -/

/-- A character that stands for itself in a string literal. -/
def IsPlain (character : Char) : Prop :=
  character ≠ '"' ∧ character ≠ '\\' ∧ character ≠ '\n'

instance (character : Char) : Decidable (IsPlain character) :=
  inferInstanceAs (Decidable (character ≠ '"' ∧ character ≠ '\\' ∧ character ≠ '\n'))

/-- The signs that stand for a byte behind a backslash. -/
def escapeSigns : List (Char × UInt8) :=
  [('a', 7), ('b', 8), ('f', 12), ('n', 10), ('r', 13), ('t', 9), ('v', 11), ('\\', 92),
    ('"', 34)]

/-- The signs behind which the digits of a code point stand, and how many. -/
def pointSigns : List (Char × Nat) := [('u', 4), ('U', 8)]

/-- The number that digits spell in a base up to sixteen. -/
def numberOfDigits? (base : Nat) (digits : List Char) : Option Nat :=
  digits.foldlM (fun number digit => do
    let value ← hexValue? digit
    if value < base then some (base * number + value) else none) 0

/-- A character or an escape of a string literal, and the bytes that it spells. -/
inductive LiteralItem : List Char → List UInt8 → Prop where
  | plain {character : Char} (isPlain : IsPlain character) :
      LiteralItem [character] (String.utf8EncodeChar character)
  | sign {sign : Char} {byte : UInt8} (known : (sign, byte) ∈ escapeSigns) :
      LiteralItem ['\\', sign] [byte]
  | octal {digits : List Char} {number : Nat} (three : digits.length = 3)
      (spelled : numberOfDigits? 8 digits = some number) (small : number < 256) :
      LiteralItem ('\\' :: digits) [UInt8.ofNat number]
  | hex {digits : List Char} {number : Nat} (two : digits.length = 2)
      (spelled : numberOfDigits? 16 digits = some number) :
      LiteralItem ('\\' :: 'x' :: digits) [UInt8.ofNat number]
  | point {sign : Char} {digits : List Char} {number : Nat}
      (known : (sign, digits.length) ∈ pointSigns)
      (spelled : numberOfDigits? 16 digits = some number) (valid : number.isValidChar) :
      LiteralItem ('\\' :: sign :: digits) (String.utf8EncodeChar (Char.ofNat number))

/-- What stands between the quotes of a string literal, and the bytes that it spells. -/
inductive LiteralBody : List Char → List UInt8 → Prop where
  | done : LiteralBody [] []
  | item {first rest : List Char} {value values : List UInt8} (isItem : LiteralItem first value)
      (isBody : LiteralBody rest values) : LiteralBody (first ++ rest) (value ++ values)

/-- A source that is one string literal, and the bytes that it spells. -/
def StringLiteral (source : List Char) (value : List UInt8) : Prop :=
  ∃ body, source = '"' :: body ++ ['"'] ∧ LiteralBody body value

/-! ## What a literal spells -/

section Spelling

variable {source body : List Char} {value : List UInt8}

/-- An escape is longer than what it spells. -/
theorem LiteralItem.plain_or_lt
    (isItem : LiteralItem source value) :
    (∃ character, IsPlain character ∧ source = [character] ∧
        value = String.utf8EncodeChar character) ∨
      value.length < (bytes source).length := by
  have long := Text.length_le_length_bytes source
  cases isItem with
  | plain isPlain => exact Or.inl ⟨_, isPlain, rfl, rfl⟩
  | sign known =>
      right
      simp only [List.length_cons, List.length_nil] at long ⊢
      omega
  | octal three _ _ =>
      right
      simp only [List.length_cons, List.length_nil] at long ⊢
      omega
  | hex two _ =>
      right
      simp only [List.length_cons, List.length_nil] at long ⊢
      omega
  | @point sign digits number known _ _ =>
      right
      have four : 4 ≤ digits.length := by
        simp only [pointSigns, List.mem_cons, Prod.mk.injEq, List.not_mem_nil, or_false] at known
        omega
      have few := (Char.ofNat number).utf8Size_le_four
      rw [String.length_utf8EncodeChar]
      simp only [List.length_cons] at long
      omega

/-- What stands between the quotes spells itself, or something shorter. -/
theorem LiteralBody.plain_or_lt
    (isBody : LiteralBody body value) :
    ((∀ character ∈ body, IsPlain character) ∧ value = bytes body) ∨
      value.length < (bytes body).length := by
  induction isBody with
  | done => exact Or.inl ⟨nofun, rfl⟩
  | @item first rest value values isItem _ inductionHypothesis =>
      rw [Text.bytes_append, List.length_append, List.length_append]
      rcases isItem.plain_or_lt with ⟨character, isPlain, rfl, rfl⟩ | shorter
      · rcases inductionHypothesis with ⟨allPlain, rfl⟩ | restShorter
        · left
          rw [List.singleton_append, Text.bytes_cons, Text.bytes_nil, List.append_nil]
          exact ⟨List.forall_mem_cons.mpr ⟨isPlain, allPlain⟩, rfl⟩
        · right
          rw [Text.bytes_cons, Text.bytes_nil, List.append_nil]
          omega
      · right
        have atMost : values.length ≤ (bytes rest).length := by
          rcases inductionHypothesis with ⟨_, rfl⟩ | restShorter
          · exact Nat.le_refl _
          · exact Nat.le_of_lt restShorter
        omega

theorem literalBody_of_plain
    (allPlain : ∀ character ∈ body, IsPlain character) :
    LiteralBody body (bytes body) := by
  induction body with
  | nil => exact .done
  | cons first rest inductionHypothesis =>
      obtain ⟨firstPlain, restPlain⟩ := List.forall_mem_cons.mp allPlain
      rw [Text.bytes_cons]
      exact .item (.plain firstPlain) (inductionHypothesis restPlain)

/-- A literal is longer than what it spells, for its quotes spell nothing. -/
theorem StringLiteral.length_lt
    (isLiteral : StringLiteral source value) :
    value.length + 2 ≤ (bytes source).length := by
  obtain ⟨body, rfl, isBody⟩ := isLiteral
  have quote : '"'.utf8Size = 1 := by decide
  have size : (bytes ('"' :: body ++ ['"'])).length = (bytes body).length + 2 := by
    rw [Text.bytes_append, List.length_append, Text.length_bytes_cons, Text.length_bytes_cons,
      Text.bytes_nil, List.length_nil, quote]
    omega
  rw [size]
  rcases isBody.plain_or_lt with ⟨_, rfl⟩ | shorter <;> omega

/-- A text between quotes is a string literal that spells this text exactly when each of its
characters stands for itself. -/
theorem stringLiteral_quoted_iff
    (text : List Char) :
    StringLiteral ('"' :: text ++ ['"']) (bytes text) ↔
      ∀ character ∈ text, IsPlain character := by
  constructor
  · intro isLiteral
    obtain ⟨body, same, isBody⟩ := isLiteral
    obtain rfl := List.append_cancel_right (List.cons.inj same).2
    rcases isBody.plain_or_lt with ⟨allPlain, _⟩ | shorter
    · exact allPlain
    · exact absurd shorter (Nat.lt_irrefl _)
  · intro allPlain
    exact ⟨text, rfl, literalBody_of_plain allPlain⟩

end Spelling

end Pipework.Go
