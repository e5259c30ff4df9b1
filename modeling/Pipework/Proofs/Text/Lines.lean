import Mathlib.Data.List.Basic
import Pipework.Text.Lines

/-!
# Lines of a text

A text that is written line by line is read as these lines, as long as none of them holds a line
feed or ends in a carriage return, which would go with the line feed behind it
(`Text.linesOf_ofLines`).
-/

namespace Pipework.Text

/-! ## Reading lines -/

section Lines

variable {first : Char} {line rest : List Char}

theorem lines_return_feed
    (rest : List Char) :
    lines ('\r' :: '\n' :: rest) = [] :: lines rest := by
  rw [lines]

theorem lines_feed
    (rest : List Char) :
    lines ('\n' :: rest) = [] :: lines rest := by
  rw [lines]

theorem lines_return
    (feed : rest.head? = some '\n') :
    lines ('\r' :: rest) = lines rest := by
  obtain ⟨more, rfl⟩ := List.head?_eq_some_iff.mp feed
  rw [lines_return_feed, lines_feed]

/-- What no line feed follows at once joins the line behind it. -/
theorem lines_cons
    (notFeed : first ≠ '\n') (noReturn : first = '\r' → rest.head? ≠ some '\n') :
    lines (first :: rest) =
      (first :: (lines rest).headD []) :: (lines rest).tail := by
  rw [lines]
  · cases lines rest <;> rfl
  · exact notFeed
  · rintro more rfl rfl
    exact noReturn rfl rfl

theorem lines_ne_nil
    {text : List Char} (nonempty : text ≠ []) :
    lines text ≠ [] := by
  fun_cases lines text with
  | case1 => exact absurd rfl nonempty
  | case2 => exact List.cons_ne_nil _ _
  | case3 => exact List.cons_ne_nil _ _
  | case4 => exact List.cons_ne_nil _ _
  | case5 => exact List.cons_ne_nil _ _

theorem lines_cons_of_ne
    (notFeed : first ≠ '\n') (notReturn : first ≠ '\r') :
    lines (first :: rest) =
      (first :: (lines rest).headD []) :: (lines rest).tail :=
  lines_cons notFeed fun isReturn => absurd isReturn notReturn

/-- A line holds characters of the text, and no line feed. -/
theorem mem_of_mem_lines
    {text : List Char} {character : Char} (member : line ∈ lines text)
    (inLine : character ∈ line) :
    character ∈ text ∧ character ≠ '\n' := by
  fun_induction lines text generalizing line with
  | case1 => exact absurd member List.not_mem_nil
  | case2 rest inductionHypothesis =>
      rcases List.mem_cons.mp member with rfl | inRest
      · exact absurd inLine List.not_mem_nil
      · have known := inductionHypothesis inRest inLine
        exact ⟨List.mem_cons_of_mem _ known.1, known.2⟩
  | case3 rest inductionHypothesis =>
      rcases List.mem_cons.mp member with rfl | inRest
      · exact absurd inLine List.not_mem_nil
      · have known := inductionHypothesis inRest inLine
        exact ⟨List.mem_cons_of_mem _ (List.mem_cons_of_mem _ known.1), known.2⟩
  | case4 first rest notFeed _ noLines _ =>
      rw [List.mem_singleton.mp member, List.mem_singleton] at inLine
      obtain rfl := inLine
      exact ⟨List.mem_cons_self, notFeed⟩
  | case5 first rest notFeed _ head more split inductionHypothesis =>
      have known {line : List Char} (inLines : line ∈ lines rest) (inLine : character ∈ line) :
          character ∈ first :: rest ∧ character ≠ '\n' :=
        (inductionHypothesis inLines inLine).imp_left (List.mem_cons_of_mem first)
      rcases List.mem_cons.mp member with rfl | inMore
      · rcases List.mem_cons.mp inLine with rfl | inHead
        · exact ⟨List.mem_cons_self, notFeed⟩
        · exact known (split ▸ List.mem_cons_self) inHead
      · exact known (split ▸ List.mem_cons_of_mem _ inMore) inLine

theorem not_mem_of_mem_lines
    {text : List Char} (member : line ∈ lines text) :
    '\n' ∉ line := fun feed => (mem_of_mem_lines member feed).2 rfl

/-- What holds neither a line feed nor a carriage return stands at the front of the first line. -/
theorem lines_append
    {front : List Char} (noFeed : '\n' ∉ front) (noReturn : '\r' ∉ front) (nonempty : front ≠ [])
    (rest : List Char) :
    lines (front ++ rest) = (front ++ (lines rest).headD []) :: (lines rest).tail := by
  induction front with
  | nil => exact absurd rfl nonempty
  | cons first more inductionHypothesis =>
      rw [List.mem_cons, not_or] at noFeed noReturn
      rw [List.cons_append, lines_cons_of_ne (Ne.symm noFeed.1) (Ne.symm noReturn.1)]
      cases more with
      | nil => rfl
      | cons second others =>
          rw [inductionHypothesis noFeed.2 noReturn.2 (List.cons_ne_nil second others)]
          rfl

theorem headD_lines_prefix
    (text : List Char) :
    (lines text).headD [] <+: text := by
  fun_induction lines text with
  | case1 => exact List.nil_prefix
  | case2 => exact List.nil_prefix
  | case3 => exact List.nil_prefix
  | case4 => exact List.prefix_append [_] _
  | case5 first rest _ _ head more split inductionHypothesis =>
      rw [split] at inductionHypothesis
      exact List.cons_prefix_cons.mpr ⟨rfl, inductionHypothesis⟩

theorem not_mem_headD_lines
    (text : List Char) :
    '\n' ∉ (lines text).headD [] := by
  cases split : lines text with
  | nil => exact List.not_mem_nil
  | cons head more => exact not_mem_of_mem_lines (split ▸ List.mem_cons_self)

theorem headD_lines_feed
    (front back : List Char) :
    (lines (front ++ '\n' :: back)).headD [] <+: front := by
  have noFeed := not_mem_headD_lines (front ++ '\n' :: back)
  have isPrefix := headD_lines_prefix (front ++ '\n' :: back)
  generalize (lines (front ++ '\n' :: back)).headD [] = first at noFeed isPrefix
  rcases List.prefix_or_prefix_of_prefix isPrefix (List.prefix_append front _) with
    inFront | ⟨more, rfl⟩
  · exact inFront
  · cases more with
    | nil => exact (List.append_nil front).symm ▸ List.prefix_rfl
    | cons next others =>
        rw [List.prefix_append_right_inj, List.cons_prefix_cons] at isPrefix
        exact absurd (List.mem_append_right front (isPrefix.1 ▸ List.mem_cons_self)) noFeed

end Lines

/-! ## Writing lines -/

/-- A text that is read as one line where a line feed follows it. -/
def IsLine (line : List Char) : Prop := '\n' ∉ line ∧ line.getLast? ≠ some '\r'

instance (line : List Char) : Decidable (IsLine line) :=
  inferInstanceAs (Decidable ('\n' ∉ line ∧ line.getLast? ≠ some '\r'))

theorem isLine_of_not_mem
    {line : List Char} (noFeed : '\n' ∉ line) (noReturn : '\r' ∉ line) :
    IsLine line :=
  ⟨noFeed, fun last => noReturn (List.mem_of_getLast? last)⟩

theorem IsLine.behind
    {front back : List Char} (isLine : IsLine back) (nonempty : back ≠ []) (noFeed : '\n' ∉ front) :
    IsLine (front ++ back) := by
  refine ⟨?_, ?_⟩
  · rw [List.mem_append, not_or]
    exact ⟨noFeed, isLine.1⟩
  · rw [List.getLast?_append_of_ne_nil _ nonempty]
    exact isLine.2

theorem lines_line
    {line : List Char} (isLine : IsLine line) (rest : List Char) :
    lines (line ++ '\n' :: rest) = line :: lines rest := by
  induction line with
  | nil => exact lines_feed rest
  | cons first more inductionHypothesis =>
      obtain ⟨noFeed, noReturn⟩ := isLine
      have notFeed : first ≠ '\n' := by
        rintro rfl
        exact noFeed List.mem_cons_self
      have moreIsLine : IsLine more := by
        refine ⟨fun member => noFeed (List.mem_cons_of_mem first member), ?_⟩
        cases more with
        | nil => nofun
        | cons second others => rwa [List.getLast?_cons_cons] at noReturn
      have closed : first = '\r' → (more ++ '\n' :: rest).head? ≠ some '\n' := by
        rintro rfl
        cases more with
        | nil => exact absurd rfl noReturn
        | cons second others =>
            intro isFeed
            exact noFeed (List.mem_cons_of_mem _ (Option.some.inj isFeed ▸ List.mem_cons_self))
      rw [List.cons_append, lines_cons notFeed closed, inductionHypothesis moreIsLine]
      rfl

theorem toList_ofLines_cons
    (line : String) (rest : List String) :
    (ofLines (line :: rest)).toList = line.toList ++ '\n' :: (ofLines rest).toList := by
  rw [ofLines, List.map_cons, String.join_cons, String.toList_append, String.toList_append,
    List.append_assoc]
  rfl

theorem toList_ofLines_append
    (front back : List String) :
    (ofLines (front ++ back)).toList = (ofLines front).toList ++ (ofLines back).toList := by
  rw [ofLines, List.map_append, String.join_append, String.toList_append]
  rfl

theorem not_mem_ofLines
    {character : Char} (notFeed : character ≠ '\n') {texts : List String}
    (absent : ∀ line ∈ texts, character ∉ line.toList) :
    character ∉ (ofLines texts).toList := by
  induction texts with
  | nil => exact List.not_mem_nil
  | cons line rest inductionHypothesis =>
      obtain ⟨absentHere, absentBehind⟩ := List.forall_mem_cons.mp absent
      rw [toList_ofLines_cons, List.mem_append, List.mem_cons, not_or, not_or]
      exact ⟨absentHere, notFeed, inductionHypothesis absentBehind⟩

theorem getLast?_ofLines
    {texts : List String} (nonempty : texts ≠ []) :
    (ofLines texts).toList.getLast? = some '\n' := by
  obtain ⟨front, last, rfl⟩ := List.eq_nil_or_concat' texts |>.resolve_left nonempty
  rw [toList_ofLines_append, toList_ofLines_cons, ← List.append_assoc]
  exact List.getLast?_concat

theorem linesOf_ofLines_cons
    {line : String} (isLine : IsLine line.toList) (rest : List String) :
    linesOf (ofLines (line :: rest)) = line :: linesOf (ofLines rest) := by
  rw [linesOf, toList_ofLines_cons, lines_line isLine, List.map_cons, String.ofList_toList]
  rfl

theorem linesOf_ofLines_append
    {front : List String} (areLines : ∀ line ∈ front, IsLine line.toList) (back : List String) :
    linesOf (ofLines (front ++ back)) = front ++ linesOf (ofLines back) := by
  induction front with
  | nil => rfl
  | cons first rest inductionHypothesis =>
      rw [List.cons_append, linesOf_ofLines_cons (areLines first List.mem_cons_self),
        inductionHypothesis fun line member => areLines line (List.mem_cons_of_mem first member)]
      rfl

theorem linesOf_ofLines
    {texts : List String} (areLines : ∀ line ∈ texts, IsLine line.toList) :
    linesOf (ofLines texts) = texts := by
  have read := linesOf_ofLines_append areLines []
  rw [List.append_nil] at read
  rw [read]
  exact List.append_nil texts

theorem exists_around_line
    {line : String} {texts : List String} (member : line ∈ texts) :
    ∃ front back, (ofLines texts).toList = front ++ line.toList ++ '\n' :: back := by
  obtain ⟨before, after, rfl⟩ := List.append_of_mem member
  refine ⟨(ofLines before).toList, (ofLines after).toList, ?_⟩
  rw [toList_ofLines_append, toList_ofLines_cons, List.append_assoc]

end Pipework.Text
