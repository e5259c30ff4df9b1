import Pipework.FileTree

/-!
# Paths of directories

The path in which the last step of another one is left out ends in no slash, unless it is the
root: what is left of the text ends in a name (`Path.withoutEndSlashes_parent`). So the directory
of a file is looked for under the very path under which it is made.
-/

namespace Pipework.Path

theorem not_mem_of_mem_splitSlashes
    {text segment : List Char} (member : segment ∈ splitSlashes text) :
    '/' ∉ segment := by
  induction text generalizing segment with
  | nil =>
      rw [splitSlashes, List.mem_singleton] at member
      rw [member]
      exact List.not_mem_nil
  | cons character rest inductionHypothesis =>
      rw [splitSlashes] at member
      split at member
      · rcases List.mem_cons.mp member with rfl | inRest
        · exact List.not_mem_nil
        · exact inductionHypothesis inRest
      · rename_i notSlash
        split at member
        · rw [List.mem_singleton] at member
          rw [member, List.mem_singleton]
          exact Ne.symm notSlash
        · rename_i first more segments
          rw [segments] at inductionHypothesis
          rcases List.mem_cons.mp member with rfl | inMore
          · rw [List.mem_cons, not_or]
            exact ⟨Ne.symm notSlash, inductionHypothesis List.mem_cons_self⟩
          · exact inductionHypothesis (List.mem_cons_of_mem _ inMore)

theorem dropIdle_suffix
    (absolute : Bool) (reversed : List (List Char)) :
    dropIdle absolute reversed <:+ reversed := by
  induction reversed with
  | nil => exact List.suffix_refl []
  | cons first rest inductionHypothesis =>
      cases rest with
      | nil =>
          rw [dropIdle]
          split
          · exact List.nil_suffix
          · exact List.suffix_refl _
      | cons second others =>
          rw [dropIdle.eq_3 absolute first (second :: others) (List.cons_ne_nil _ _)]
          split
          · exact inductionHypothesis.trans (List.suffix_cons _ _)
          · exact List.suffix_refl _

/-- What is left of the segments of a path starts, from behind, with one that is not empty. -/
theorem ne_nil_of_dropIdle
    {absolute : Bool} {reversed rest : List (List Char)} {segment : List Char}
    (left : dropIdle absolute reversed = segment :: rest) :
    segment ≠ [] := by
  induction reversed with
  | nil => simp [dropIdle] at left
  | cons first more inductionHypothesis =>
      cases more with
      | nil =>
          rw [dropIdle] at left
          split at left
          · simp at left
          · rename_i kept
            injection left with same _
            exact fun empty => kept (Or.inl (same.trans empty))
      | cons second others =>
          rw [dropIdle.eq_3 absolute first (second :: others) (List.cons_ne_nil _ _)] at left
          split at left
          · exact inductionHypothesis left
          · rename_i kept
            injection left with same _
            exact fun empty => kept (Or.inl (same.trans empty))

theorem joinSlashes_concat
    (front : List (List Char)) (last : List Char) :
    ∃ before, joinSlashes (front ++ [last]) = before ++ last := by
  induction front with
  | nil => exact ⟨[], rfl⟩
  | cons first rest inductionHypothesis =>
      obtain ⟨before, same⟩ := inductionHypothesis
      refine ⟨first ++ '/' :: before, ?_⟩
      rw [List.cons_append, joinSlashes]
      · rw [same, List.append_assoc, List.cons_append]
      · intro empty
        exact absurd empty (by simp)

/-- A text that ends in a character other than a slash has no slashes at its end. -/
theorem withoutEndSlashes_of_end
    {path : String} (before : List Char) {segment : List Char}
    (isPath : path.toList = before ++ segment)
    (filled : segment ≠ []) (noSlash : '/' ∉ segment) :
    FileTree.withoutEndSlashes path = path := by
  have ends : segment.reverse ≠ [] := by
    rw [ne_eq, List.reverse_eq_nil_iff]
    exact filled
  obtain ⟨last, others, reversed⟩ := List.exists_cons_of_ne_nil ends
  have notSlash : ¬ last = '/' := by
    intro slash
    have member : last ∈ segment := by
      rw [← List.mem_reverse, reversed]
      exact List.mem_cons_self
    exact noSlash (slash ▸ member)
  have unchanged : path.toList.reverse.dropWhile (· = '/') = path.toList.reverse := by
    rw [isPath, List.reverse_append, reversed, List.cons_append, List.dropWhile_cons_of_neg]
    simpa using notSlash
  rw [FileTree.withoutEndSlashes, unchanged]
  split
  · rfl
  · rw [List.reverse_reverse, String.ofList_toList]

/-- What is left without a last step is nothing, or ends in a segment. -/
theorem shorter_cases
    {absolute : Bool} {text kept : List Char}
    (isShorter : parent?.shorter absolute text = some kept) :
    kept = [] ∨ ∃ before segment, kept = before ++ segment ∧ segment ≠ [] ∧ '/' ∉ segment := by
  rw [parent?.shorter] at isShorter
  split at isShorter
  · simp at isShorter
  · rename_i last rest steps
    rw [← Option.some.inj isShorter]
    cases left : dropIdle absolute rest with
    | nil => exact Or.inl rfl
    | cons segment others =>
        right
        have inRest : segment ∈ rest :=
          (dropIdle_suffix absolute rest).subset (left ▸ List.mem_cons_self)
        have inSteps : segment ∈ (splitSlashes text).reverse := by
          have isSuffix := dropIdle_suffix absolute (splitSlashes text).reverse
          rw [steps] at isSuffix
          exact isSuffix.subset (List.mem_cons_of_mem _ inRest)
        obtain ⟨before, joined⟩ := joinSlashes_concat others.reverse segment
        refine ⟨before, segment, ?_, ne_nil_of_dropIdle left,
          not_mem_of_mem_splitSlashes (List.mem_reverse.mp inSteps)⟩
        rw [List.reverse_cons]
        exact joined

/-- A path without its last step ends in no slash, unless it is the root. -/
theorem withoutEndSlashes_parent
    {path parent : String} (isParent : parent? path = some parent) :
    FileTree.withoutEndSlashes parent = parent := by
  rw [parent?] at isParent
  split at isParent
  · obtain ⟨kept, isShorter, rfl⟩ := Option.map_eq_some_iff.mp isParent
    rcases shorter_cases isShorter with rfl | ⟨before, segment, rfl, filled, noSlash⟩
    · decide
    · refine withoutEndSlashes_of_end ('/' :: before) ?_ filled noSlash
      rw [String.toList_ofList, List.cons_append]
  · obtain ⟨kept, isShorter, rfl⟩ := Option.map_eq_some_iff.mp isParent
    rcases shorter_cases isShorter with rfl | ⟨before, segment, rfl, filled, noSlash⟩
    · decide
    · refine withoutEndSlashes_of_end before ?_ filled noSlash
      rw [String.toList_ofList]

end Pipework.Path
