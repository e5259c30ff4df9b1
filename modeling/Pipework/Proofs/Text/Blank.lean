import Mathlib.Data.List.Basic
import Pipework.Text.Blank

/-!
# Blank ends

Cutting the blank end off a text keeps everything up to the last character that is not blank
(`Text.dropBlankEnd_append_cons`).
-/

namespace Pipework.Text

variable {character : Char}

theorem getLast?_dropBlankEnd
    (blank : isBlankChar character = true) (text : List Char) :
    (dropBlankEnd text).getLast? ≠ some character := by
  have kept := List.head?_dropWhile_not isBlankChar text.reverse
  rw [dropBlankEnd, List.getLast?_reverse]
  intro last
  rw [last] at kept
  exact absurd blank (Bool.not_eq_true _ ▸ kept)

theorem dropBlankEnd_subset
    (text : List Char) :
    dropBlankEnd text ⊆ text := by
  intro character member
  rw [dropBlankEnd, List.mem_reverse] at member
  exact List.mem_reverse.mp ((List.dropWhile_sublist _).subset member)

theorem dropBlankEnd_append_cons
    (notBlank : isBlankChar character = false) (front back : List Char) :
    dropBlankEnd (front ++ character :: back) = front ++ character :: dropBlankEnd back := by
  have stops : (character :: front.reverse).dropWhile isBlankChar = character :: front.reverse :=
    List.dropWhile_cons_of_neg (Bool.eq_false_iff.mp notBlank)
  have cut : (back.reverse ++ character :: front.reverse).dropWhile isBlankChar =
      back.reverse.dropWhile isBlankChar ++ character :: front.reverse := by
    rw [List.dropWhile_append, stops]
    split_ifs with allBlank
    · rw [List.isEmpty_iff.mp allBlank, List.nil_append]
    · rfl
  rw [dropBlankEnd, List.reverse_append, List.reverse_cons, List.append_assoc,
    List.singleton_append, cut, List.reverse_append, List.reverse_cons, List.reverse_reverse,
    List.append_assoc, List.singleton_append, dropBlankEnd]

theorem trim_of_ends
    {text : String} {first last : Char} {middle : List Char}
    (parts : text.toList = first :: middle ++ [last]) (starts : isBlankChar first = false)
    (ends : isBlankChar last = false) :
    trim text = text := by
  have kept : text.toList.dropWhile isBlankChar = first :: middle ++ [last] := by
    rw [parts, List.cons_append]
    exact List.dropWhile_cons_of_neg (Bool.eq_false_iff.mp starts)
  rw [trim, kept, dropBlankEnd_append_cons ends]
  have nothing : dropBlankEnd [] = [] := rfl
  rw [nothing, ← parts, String.ofList_toList]

end Pipework.Text
