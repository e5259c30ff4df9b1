import Mathlib.Data.List.Basic
import Pipework.Text.Split

/-!
# Marks in a text

Two ways to read one text as a field, a mark and the rest agree, or the longer field holds the
mark behind the shorter one. What stands behind the last mark holds none.
-/

namespace Pipework.Text

/-- A text has no mark in it, or what stands behind its last one has none. -/
theorem afterLast_cases
    (mark : Char) (text : List Char) :
    (afterLast mark text = text ∨ ∃ front, text = front ++ mark :: afterLast mark text) ∧
      mark ∉ afterLast mark text := by
  rw [afterLast]
  split
  · rename_i front back isSplit
    obtain ⟨isText, noMark⟩ := splitAtLast?_eq_some_iff.mp isSplit
    exact ⟨Or.inr ⟨front, isText⟩, noMark⟩
  · rename_i nothing
    exact ⟨Or.inl rfl, (splitAtLast?_eq_none_iff mark text).mp nothing⟩

variable {α : Type} {mark : α} {front rest other more : List α}

theorem append_mark_cases
    (same : front ++ mark :: rest = other ++ mark :: more) :
    (front = other ∧ rest = more) ∨
      (∃ tail, other = front ++ mark :: tail ∧ rest = tail ++ mark :: more) ∨
        ∃ tail, front = other ++ mark :: tail ∧ more = tail ++ mark :: rest := by
  rcases List.append_eq_append_iff.mp same with ⟨between, rfl, split⟩ | ⟨between, rfl, split⟩
  · cases between with
    | nil => exact Or.inl ⟨(List.append_nil front).symm, (List.cons.inj split).2⟩
    | cons first tail =>
        obtain ⟨rfl, behind⟩ := List.cons.inj split
        exact Or.inr (Or.inl ⟨tail, rfl, behind⟩)
  · cases between with
    | nil => exact Or.inl ⟨List.append_nil other, (List.cons.inj split).2.symm⟩
    | cons first tail =>
        obtain ⟨rfl, behind⟩ := List.cons.inj split
        exact Or.inr (Or.inr ⟨tail, rfl, behind⟩)

/-- A field without marks is the other field, or the other one begins with it. -/
theorem append_mark_cases_of_not_mem
    (noMark : mark ∉ front) (same : front ++ mark :: rest = other ++ mark :: more) :
    (other = front ∧ rest = more) ∨
      ∃ tail, other = front ++ mark :: tail ∧ rest = tail ++ mark :: more := by
  rcases append_mark_cases same with ⟨rfl, rests⟩ | longer | ⟨tail, rfl, _⟩
  · exact Or.inl ⟨rfl, rests⟩
  · exact Or.inr longer
  · exact absurd (List.mem_append_right other List.mem_cons_self) noMark

/-- A field between two marks is found in a text with these two marks only where it stands. -/
theorem marked_infix_iff
    {back text : List α} (noFront : mark ∉ front) (noMiddle : mark ∉ other) (noBack : mark ∉ back) :
    mark :: text ++ [mark] <:+: front ++ mark :: (other ++ mark :: back) ↔ text = other := by
  constructor
  · intro found
    obtain ⟨before, behind, same⟩ := found
    rw [List.cons_append, List.append_assoc, List.cons_append, List.append_assoc,
      List.singleton_append] at same
    rcases append_mark_cases_of_not_mem noFront same.symm with ⟨_, rests⟩ | ⟨tail, _, rests⟩
    · rcases append_mark_cases_of_not_mem noMiddle rests with ⟨isText, _⟩ | ⟨tail, _, left⟩
      · exact isText
      · exact absurd (left ▸ List.mem_append_right tail List.mem_cons_self) noBack
    · -- The second mark would be the first of the field, and a third one its second.
      rcases append_mark_cases_of_not_mem noMiddle rests with ⟨_, left⟩ | ⟨further, _, left⟩
      · exact absurd (left ▸ List.mem_append_right text List.mem_cons_self) noBack
      · exact absurd (left ▸ List.mem_append_right further List.mem_cons_self) noBack
  · rintro rfl
    refine ⟨front, back, ?_⟩
    simp only [List.append_assoc, List.cons_append, List.nil_append]

end Pipework.Text
