/-!
Splitting a text at a mark. Main statement: a text splits at its last mark into what stands
before it and what stands behind it, and into nothing else.
-/

namespace Pipework.Text

/-- What stands before the last mark and what stands behind it, if there is a mark. -/
def splitAtLast? (mark : Char) : List Char → Option (List Char × List Char)
  | [] => none
  | first :: rest =>
      match splitAtLast? mark rest with
      | some (front, back) => some (first :: front, back)
      | none => if first = mark then some ([], rest) else none

/-- A text does not split exactly when the mark is not in it. -/
theorem splitAtLast?_eq_none_iff
    (mark : Char) (text : List Char) :
    splitAtLast? mark text = none ↔ mark ∉ text := by
  induction text with
  | nil => simp [splitAtLast?]
  | cons first rest inductionHypothesis =>
      rw [splitAtLast?]
      cases split : splitAtLast? mark rest with
      | some _ =>
          have inside : mark ∈ rest := by
            simpa [split] using inductionHypothesis
          simp [inside]
      | none =>
          have outside : mark ∉ rest := inductionHypothesis.1 split
          by_cases same : first = mark
          · simp [same]
          · simp [same, outside, Ne.symm same]

/-- The parts of a split have the mark between them, and no other mark behind it. -/
theorem eq_of_splitAtLast?
    {mark : Char} {text front back : List Char}
    (split : splitAtLast? mark text = some (front, back)) :
    text = front ++ mark :: back ∧ mark ∉ back := by
  induction text generalizing front with
  | nil => exact nomatch split
  | cons first rest inductionHypothesis =>
      rw [splitAtLast?] at split
      cases splitRest : splitAtLast? mark rest with
      | some found =>
          obtain ⟨inner, behind⟩ := found
          rw [splitRest] at split
          obtain ⟨rfl, rfl⟩ := Prod.mk.inj (Option.some.inj split)
          obtain ⟨whole, outside⟩ := inductionHypothesis splitRest
          exact ⟨by rw [whole]; rfl, outside⟩
      | none =>
          simp only [splitRest] at split
          split at split
          · rename_i same
            obtain ⟨rfl, rfl⟩ := Prod.mk.inj (Option.some.inj split)
            exact ⟨by rw [same]; rfl, (splitAtLast?_eq_none_iff mark rest).mp splitRest⟩
          · exact nomatch split

/-- A mark behind which there is no other is the last one. -/
theorem splitAtLast?_append_cons
    {mark : Char} {back : List Char} (outside : mark ∉ back) (front : List Char) :
    splitAtLast? mark (front ++ mark :: back) = some (front, back) := by
  induction front with
  | nil =>
      have noSplit := (splitAtLast?_eq_none_iff mark back).mpr outside
      rw [List.nil_append, splitAtLast?, noSplit]
      exact if_pos rfl
  | cons first rest inductionHypothesis =>
      rw [List.cons_append, splitAtLast?, inductionHypothesis]

/-- A text splits at the mark behind which there is no other. -/
theorem splitAtLast?_eq_some_iff
    {mark : Char} {text front back : List Char} :
    splitAtLast? mark text = some (front, back) ↔
      text = front ++ mark :: back ∧ mark ∉ back := by
  refine ⟨eq_of_splitAtLast?, ?_⟩
  rintro ⟨rfl, outside⟩
  exact splitAtLast?_append_cons outside front

/-- What stands behind the last mark; the whole text if there is no mark. -/
def afterLast (mark : Char) (text : List Char) : List Char :=
  match splitAtLast? mark text with
  | some (_, back) => back
  | none => text

end Pipework.Text
