import Mathlib.Data.List.Basic
import Pipework.Proofs.Text.Blank
import Pipework.Proofs.Text.Lines

/-!
# Indented code

Indentation puts tabs before every line of code that is not empty, wherever the line came from.
What stands between two marks in the code stands there afterwards with tabs behind each line feed
that another one does not follow (`Text.indent_around`), so it stays as it is only when it is on
one line (`Text.hung_eq_self_iff`).
-/

namespace Pipework.Text

variable {tabs : List Char}

/-! ## Hanging lines -/

/-- A text with tabs behind each line feed that another one does not follow. -/
def hung (tabs : List Char) : List Char → List Char
  | [] => []
  | first :: rest =>
      if first = '\n' then
        '\n' :: ((if rest.head? = some '\n' then [] else tabs) ++ hung tabs rest)
      else first :: hung tabs rest

theorem hung_of_one_line
    {text : List Char} (oneLine : '\n' ∉ text) :
    hung tabs text = text := by
  induction text with
  | nil => rfl
  | cons first rest inductionHypothesis =>
      rw [List.mem_cons, not_or] at oneLine
      rw [hung, if_neg (Ne.symm oneLine.1), inductionHypothesis oneLine.2]

theorem hung_subset
    (tabs text : List Char) :
    hung tabs text ⊆ text ++ tabs := by
  induction text with
  | nil => exact List.nil_subset _
  | cons first rest inductionHypothesis =>
      have more : hung tabs rest ⊆ first :: rest ++ tabs := fun _ member =>
        List.mem_cons_of_mem first (inductionHypothesis member)
      have firstKnown : first ∈ first :: rest ++ tabs := List.mem_cons_self
      rw [hung]
      split_ifs with isFeed
      · exact List.cons_subset.mpr ⟨isFeed ▸ firstKnown, more⟩
      · exact List.cons_subset.mpr ⟨isFeed ▸ firstKnown,
          List.append_subset.mpr ⟨List.subset_append_right _ _, more⟩⟩
      · exact List.cons_subset.mpr ⟨firstKnown, more⟩

theorem length_le_hung
    (tabs text : List Char) :
    text.length ≤ (hung tabs text).length := by
  induction text with
  | nil => exact Nat.le_refl 0
  | cons first rest inductionHypothesis =>
      rw [hung]
      split_ifs <;> simp only [List.length_cons, List.length_append] <;> omega

theorem length_lt_hung
    (nonempty : tabs ≠ []) {text : List Char} (feed : '\n' ∈ text) :
    text.length < (hung tabs text).length := by
  induction text with
  | nil => exact absurd feed List.not_mem_nil
  | cons first rest inductionHypothesis =>
      have positive := List.length_pos_of_ne_nil nonempty
      have atLeast := length_le_hung tabs rest
      rw [hung]
      split_ifs with isFeed follows
      · have inRest : '\n' ∈ rest := List.mem_of_head? follows
        have longer := inductionHypothesis inRest
        simp only [List.length_cons, List.nil_append]
        omega
      · simp only [List.length_cons, List.length_append]
        omega
      · have inRest : '\n' ∈ rest := (List.mem_cons.mp feed).resolve_left (Ne.symm isFeed)
        have longer := inductionHypothesis inRest
        simp only [List.length_cons]
        omega

theorem hung_eq_self_iff
    (nonempty : tabs ≠ []) (text : List Char) :
    hung tabs text = text ↔ '\n' ∉ text := by
  constructor
  · intro same feed
    have longer := length_lt_hung nonempty feed
    rw [same] at longer
    exact absurd longer (Nat.lt_irrefl _)
  · exact hung_of_one_line

/-! ## Indentation from inside a line -/

/-- The tabs before the first of some lines. -/
def lead (tabs : List Char) (lines : List (List Char)) : List Char :=
  if lines.headD [] = [] then [] else tabs

/-- Lines put together, with tabs before all lines but the first that are not empty. -/
def joined (tabs : List Char) : List (List Char) → List Char
  | [] => []
  | first :: more =>
      first ++ more.flatMap fun line => '\n' :: (if line = [] then [] else tabs ++ line)

theorem lead_subset
    (lines : List (List Char)) :
    lead tabs lines ⊆ tabs := by
  rw [lead]
  split_ifs
  · exact List.nil_subset _
  · exact List.Subset.refl _

theorem joined_subset
    (text : List Char) :
    joined tabs (lines text) ⊆ text ++ '\n' :: tabs := by
  intro character member
  rw [List.mem_append, List.mem_cons]
  cases split : lines text with
  | nil =>
      rw [split] at member
      exact absurd member List.not_mem_nil
  | cons first more =>
      have known {line : List Char} (isLine : line ∈ first :: more) (inLine : character ∈ line) :
          character ∈ text :=
        (mem_of_mem_lines (split ▸ isLine) inLine).1
      rw [split, joined, List.mem_append, List.mem_flatMap] at member
      rcases member with inFirst | ⟨line, isLine, inLine⟩
      · exact Or.inl (known List.mem_cons_self inFirst)
      · rcases List.mem_cons.mp inLine with isFeed | behind
        · exact Or.inr (Or.inl isFeed)
        · split_ifs at behind
          · exact absurd behind List.not_mem_nil
          · rcases List.mem_append.mp behind with inTabs | inLine
            · exact Or.inr (Or.inr inTabs)
            · exact Or.inl (known (List.mem_cons_of_mem first isLine) inLine)

theorem intercalate_cons
    (first : List Char) (more : List (List Char)) :
    ['\n'].intercalate (first :: more) = first ++ more.flatMap ('\n' :: ·) := by
  induction more generalizing first with
  | nil => rw [List.intercalate_singleton, List.flatMap_nil, List.append_nil]
  | cons second others inductionHypothesis =>
      rw [List.intercalate_cons_cons, inductionHypothesis, List.flatMap_cons]
      simp only [List.append_assoc, List.cons_append, List.nil_append]

theorem toList_indent
    (levels : Nat) (code : String) :
    (indent levels code).toList =
      lead (List.replicate levels '\t') (lines code.toList) ++
        joined (List.replicate levels '\t') (lines code.toList) := by
  have toList (line : List Char) :
      (if (String.ofList line).isEmpty then ""
        else String.ofList (List.replicate levels '\t') ++ String.ofList line).toList =
        if line = [] then [] else List.replicate levels '\t' ++ line := by
    cases line with
    | nil => rfl
    | cons first rest =>
        have notEmpty : ¬ (String.ofList (first :: rest)).isEmpty = true := by
          rw [String.isEmpty_iff, ← String.toList_eq_nil_iff, String.toList_ofList]
          exact List.cons_ne_nil first rest
        rw [if_neg notEmpty, if_neg (List.cons_ne_nil first rest), String.toList_append,
          String.toList_ofList, String.toList_ofList]
  have feed : "\n".toList = ['\n'] := rfl
  rw [indent, String.toList_intercalate, linesOf, List.map_map, List.map_map, feed]
  simp only [Function.comp_def, toList]
  cases lines code.toList with
  | nil => rfl
  | cons first more =>
      rw [List.map_cons, intercalate_cons, joined, List.flatMap_map, lead, List.headD_cons,
        ← List.append_assoc]
      split_ifs with empty
      · rw [empty]
        rfl
      · rfl

theorem joined_lines_cons
    {first : Char} {rest : List Char} (notFeed : first ≠ '\n')
    (noReturn : first = '\r' → rest.head? ≠ some '\n') :
    joined tabs (lines (first :: rest)) = first :: joined tabs (lines rest) := by
  rw [lines_cons notFeed noReturn]
  cases lines rest <;> rfl

theorem joined_cons_nil
    {lines : List (List Char)} (nonempty : lines ≠ []) :
    joined tabs ([] :: lines) = '\n' :: (lead tabs lines ++ joined tabs lines) := by
  cases lines with
  | nil => exact absurd rfl nonempty
  | cons first more =>
      rw [joined, joined, lead, List.nil_append, List.flatMap_cons, List.headD_cons,
        List.cons_append]
      split_ifs with empty
      · rw [empty]
        rfl
      · rw [List.append_assoc]

theorem lead_lines
    {text : List Char} (nonempty : text ≠ []) (noReturn : text.head? ≠ some '\r') :
    lead tabs (lines text) = if text.head? = some '\n' then [] else tabs := by
  cases text with
  | nil => exact absurd rfl nonempty
  | cons first rest =>
      rw [lead]
      by_cases isFeed : first = '\n'
      · rw [isFeed, lines_feed]
        rfl
      · have notReturn : first ≠ '\r' := fun isReturn => noReturn (congrArg some isReturn)
        have notSome : (first :: rest).head? ≠ some '\n' :=
          fun isSome => isFeed (Option.some.inj isSome)
        rw [lines_cons_of_ne isFeed notReturn, if_neg notSome]
        rfl

/-- A line feed within a text puts tabs before the next line, unless that one is empty. -/
theorem joined_lines_feed
    {rest : List Char} (nonempty : rest ≠ []) :
    joined tabs (lines ('\n' :: rest)) =
      '\n' :: (lead tabs (lines rest) ++ joined tabs (lines rest)) := by
  rw [lines_feed, joined_cons_nil (lines_ne_nil nonempty)]

section Marked

variable {mark : Char} (notFeed : mark ≠ '\n') (notReturn : mark ≠ '\r')

include notFeed notReturn

theorem joined_lines_mark
    (back : List Char) :
    joined tabs (lines (mark :: back)) = mark :: joined tabs (lines back) :=
  joined_lines_cons notFeed fun isReturn => absurd isReturn notReturn

/-- A text before a mark hangs, whatever stands behind the mark. -/
theorem joined_lines_hung
    {text : List Char} (noReturn : '\r' ∉ text) (back : List Char) :
    joined tabs (lines (text ++ mark :: back)) =
      hung tabs text ++ mark :: joined tabs (lines back) := by
  induction text with
  | nil => exact joined_lines_mark notFeed notReturn back
  | cons first rest inductionHypothesis =>
      rw [List.mem_cons, not_or] at noReturn
      rw [List.cons_append, hung]
      by_cases isFeed : first = '\n'
      · have nonempty : rest ++ mark :: back ≠ [] :=
          List.append_ne_nil_of_right_ne_nil rest (List.cons_ne_nil _ _)
        have headReturn : (rest ++ mark :: back).head? ≠ some '\r' := by
          cases rest with
          | nil => exact fun isReturn => notReturn (Option.some.inj isReturn)
          | cons second others =>
              exact fun isReturn => noReturn.2 (Option.some.inj isReturn ▸ List.mem_cons_self)
        have headFeed : (rest ++ mark :: back).head? = some '\n' ↔ rest.head? = some '\n' := by
          cases rest with
          | nil => exact iff_of_false (fun isFeed => notFeed (Option.some.inj isFeed)) nofun
          | cons second others => exact Iff.rfl
        rw [if_pos isFeed, isFeed, joined_lines_feed nonempty, lead_lines nonempty headReturn,
          inductionHypothesis noReturn.2]
        simp only [headFeed, List.append_assoc, List.cons_append]
      · rw [if_neg isFeed, joined_lines_cons isFeed fun isReturn =>
          absurd isReturn (Ne.symm noReturn.1), inductionHypothesis noReturn.2]
        rfl

/-- Before a mark stands what the text before it holds, beside tabs and line feeds. -/
theorem exists_joined_lines
    (tabs front back : List Char) :
    ∃ opening, opening ⊆ front ++ '\n' :: tabs ∧
      joined tabs (lines (front ++ mark :: back)) =
        opening ++ mark :: joined tabs (lines back) := by
  induction front with
  | nil => exact ⟨[], List.nil_subset _, joined_lines_mark notFeed notReturn back⟩
  | cons first rest inductionHypothesis =>
      obtain ⟨opening, known, same⟩ := inductionHypothesis
      have more : opening ⊆ first :: rest ++ '\n' :: tabs := fun _ member =>
        List.mem_cons_of_mem first (known member)
      have nonempty : rest ++ mark :: back ≠ [] :=
        List.append_ne_nil_of_right_ne_nil rest (List.cons_ne_nil _ _)
      have split : first :: rest ++ mark :: back = first :: (rest ++ mark :: back) := rfl
      rw [split]
      by_cases isFeed : first = '\n'
      · refine ⟨'\n' :: (lead tabs (lines (rest ++ mark :: back)) ++ opening), ?_, ?_⟩
        · have feedKnown : '\n' ∈ first :: rest ++ '\n' :: tabs :=
            List.mem_append_right _ List.mem_cons_self
          have leadKnown : lead tabs (lines (rest ++ mark :: back)) ⊆
              first :: rest ++ '\n' :: tabs := fun _ member =>
            List.mem_append_right _ (List.mem_cons_of_mem _ (lead_subset _ member))
          exact List.cons_subset.mpr ⟨feedKnown, List.append_subset.mpr ⟨leadKnown, more⟩⟩
        · rw [isFeed, joined_lines_feed nonempty, same, List.cons_append, List.append_assoc]
      · by_cases lost : first = '\r' ∧ (rest ++ mark :: back).head? = some '\n'
        · refine ⟨opening, more, ?_⟩
          rw [lost.1, lines_return lost.2, same]
        · refine ⟨first :: opening, List.cons_subset.mpr ⟨List.mem_cons_self, more⟩, ?_⟩
          rw [joined_lines_cons isFeed fun isReturn feed => lost ⟨isReturn, feed⟩, same]
          rfl

end Marked

theorem indent_around
    {mark : Char} (notFeed : mark ≠ '\n') (notReturn : mark ≠ '\r') {levels : Nat} {code : String}
    {front text back : List Char} (parts : code.toList = front ++ mark :: (text ++ mark :: back))
    (noReturn : '\r' ∉ text) :
    ∃ opening closing, (indent levels code).toList =
        opening ++ mark :: (hung (List.replicate levels '\t') text ++ mark :: closing) ∧
      opening ⊆ front ++ '\n' :: List.replicate levels '\t' ∧
      closing ⊆ back ++ '\n' :: List.replicate levels '\t' := by
  obtain ⟨opening, known, same⟩ :=
    exists_joined_lines notFeed notReturn (List.replicate levels '\t') front
      (text ++ mark :: back)
  refine ⟨lead (List.replicate levels '\t') (lines code.toList) ++ opening,
    joined (List.replicate levels '\t') (lines back), ?_, ?_, joined_subset back⟩
  · rw [toList_indent, parts, same, joined_lines_hung notFeed notReturn noReturn,
      List.append_assoc]
  · have leadKnown : lead (List.replicate levels '\t') (lines code.toList) ⊆
        front ++ '\n' :: List.replicate levels '\t' := fun _ member =>
      List.mem_append_right _ (List.mem_cons_of_mem _ (lead_subset _ member))
    exact List.append_subset.mpr ⟨leadKnown, known⟩

/-- Where code holds a mark twice, its indentation does, with what hangs between them. -/
theorem indent_marked
    {mark : Char} (notFeed : mark ≠ '\n') (notReturn : mark ≠ '\r') (notTab : mark ≠ '\t')
    {levels : Nat} {code : String} {front text back : List Char}
    (parts : code.toList = front ++ mark :: (text ++ mark :: back)) (noFront : mark ∉ front)
    (noText : mark ∉ text) (noBack : mark ∉ back) (noReturn : '\r' ∉ text) :
    ∃ opening closing, (indent levels code).toList =
        opening ++ mark :: (hung (List.replicate levels '\t') text ++ mark :: closing) ∧
      mark ∉ opening ∧ mark ∉ hung (List.replicate levels '\t') text ∧ mark ∉ closing := by
  have noTab : mark ∉ List.replicate levels '\t' := fun member =>
    notTab (List.eq_of_mem_replicate member)
  have outside {text part : List Char} (absent : mark ∉ text)
      (known : part ⊆ text ++ '\n' :: List.replicate levels '\t') : mark ∉ part := by
    intro member
    rcases List.mem_append.mp (known member) with inText | inLead
    · exact absent inText
    · exact (List.mem_cons.mp inLead).elim notFeed noTab
  obtain ⟨opening, closing, placed, openingKnown, closingKnown⟩ :=
    indent_around notFeed notReturn parts noReturn
  refine ⟨opening, closing, placed, outside noFront openingKnown, fun member => ?_,
    outside noBack closingKnown⟩
  exact (List.mem_append.mp (hung_subset _ text member)).elim noText noTab

end Pipework.Text
