import Mathlib.Data.List.Basic

/-!
# Bytes of a text

The bytes of a text are those of its characters, one character after the other. They tell the
text, and a null byte stands among them only for a null character.
-/

namespace Pipework.Text

/-- The UTF-8 bytes of some characters. -/
def bytes (text : List Char) : List UInt8 := text.flatMap String.utf8EncodeChar

section Bytes

variable {text : List Char}

@[simp] theorem bytes_nil : bytes [] = [] := rfl

@[simp] theorem bytes_cons
    (character : Char) (rest : List Char) :
    bytes (character :: rest) = String.utf8EncodeChar character ++ bytes rest :=
  List.flatMap_cons

@[simp] theorem bytes_append
    (front back : List Char) :
    bytes (front ++ back) = bytes front ++ bytes back :=
  List.flatMap_append

theorem toList_toUTF8
    (text : String) :
    text.toUTF8.data.toList = bytes text.toList := by
  have encoded : text.toUTF8 = (bytes text.toList).toByteArray := by
    rw [String.toUTF8_eq_toByteArray, ← String.utf8Encode_toList]
    rfl
  rw [encoded, List.data_toByteArray]

theorem bytes_injective : Function.Injective bytes := by
  intro left right same
  have encoded : left.utf8Encode = right.utf8Encode := congrArg List.toByteArray same
  rw [← String.ofList_inj, ← String.toByteArray_inj, String.toByteArray_ofList,
    String.toByteArray_ofList]
  exact encoded

theorem length_bytes_cons
    (character : Char) (rest : List Char) :
    (bytes (character :: rest)).length = character.utf8Size + (bytes rest).length := by
  rw [bytes_cons, List.length_append, String.length_utf8EncodeChar]

theorem length_le_length_bytes
    (text : List Char) :
    text.length ≤ (bytes text).length := by
  induction text with
  | nil => exact Nat.le_refl 0
  | cons first rest inductionHypothesis =>
      have positive := first.utf8Size_pos
      rw [length_bytes_cons, List.length_cons]
      omega

theorem length_bytes_lt_append_cons
    (front back : List Char) (character : Char) :
    (bytes front).length < (bytes (front ++ character :: back)).length := by
  have positive := character.utf8Size_pos
  rw [bytes_append, List.length_append, length_bytes_cons]
  omega

end Bytes

end Pipework.Text
