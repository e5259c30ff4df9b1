import Mathlib.Data.List.Basic
import Pipework.Yaml.Scalar

/-!
# Cursors and gaps

What a reader of a YAML text reads next is told by what stands behind its place. So are the gaps
between the words of a line (`Yaml.readGap_of_blanks`) and those between lines
(`Yaml.exists_readGap_of_lines`).
-/

namespace Pipework.Yaml

/-! ## Characters of a class -/

theorem takeWhile_append_of_stops
    {front rest : List Char} {test : Char → Bool}
    (passes : ∀ character ∈ front, test character = true)
    (stops : ∀ character ∈ rest.head?, test character = false) :
    (front ++ rest).takeWhile test = front := by
  have stopsHere : rest.takeWhile test = [] := by
    cases rest with
    | nil => rfl
    | cons character others =>
        exact List.takeWhile_cons_of_neg (Bool.eq_false_iff.mp (stops character rfl))
  rw [List.takeWhile_append_of_pos passes, stopsHere, List.append_nil]

theorem dropWhile_append_of_stops
    {front rest : List Char} {test : Char → Bool}
    (passes : ∀ character ∈ front, test character = true)
    (stops : ∀ character ∈ rest.head?, test character = false) :
    (front ++ rest).dropWhile test = rest := by
  have isText := List.takeWhile_append_dropWhile (p := test) (l := front ++ rest)
  rw [takeWhile_append_of_stops passes stops] at isText
  exact List.append_cancel_left isText

/-! ## Cursors -/

namespace Cursor

variable {cursor : Cursor} {character : Char} {rest : List Char}

theorem next?_of_rest
    (isRest : cursor.rest = character :: rest) :
    cursor.next? = some character := by
  rw [next?, isRest, List.head?_cons]

theorem exists_rest_of_next?
    (isNext : cursor.next? = some character) :
    ∃ rest, cursor.rest = character :: rest :=
  List.head?_eq_some_iff.mp isNext

theorem rest_skip
    (isRest : cursor.rest = character :: rest) :
    cursor.skip.rest = rest := by
  rw [skip, isRest, List.tail_cons]

theorem skip_eq_skipMany
    (cursor : Cursor) :
    cursor.skip = cursor.skipMany 1 := by
  rw [skip, skipMany, List.drop_one]

@[simp] theorem skipMany_zero
    (cursor : Cursor) :
    cursor.skipMany 0 = cursor := rfl

theorem skip_skipMany
    (cursor : Cursor) (count : Nat) :
    cursor.skip.skipMany count = cursor.skipMany (count + 1) := by
  simp only [skip, skipMany, List.drop_tail, Nat.add_comm, Nat.add_left_comm]

theorem skipMany_skipMany
    (cursor : Cursor) (first second : Nat) :
    (cursor.skipMany first).skipMany second = cursor.skipMany (first + second) := by
  simp only [skipMany, List.drop_drop, Nat.add_assoc]

theorem rest_skipMany
    {front : List Char} (isRest : cursor.rest = front ++ rest) :
    (cursor.skipMany front.length).rest = rest := by
  rw [skipMany, isRest, List.drop_left]

theorem skipWhile_eq_skipMany
    {front : List Char} {test : Char → Bool} (isRest : cursor.rest = front ++ rest)
    (passes : ∀ character ∈ front, test character = true)
    (stops : ∀ character ∈ rest.head?, test character = false) :
    cursor.skipWhile test = cursor.skipMany front.length := by
  rw [skipWhile, isRest, takeWhile_append_of_stops passes stops]

theorem suffix_skip
    (cursor : Cursor) :
    cursor.skip.rest <:+ cursor.rest :=
  List.tail_suffix _

theorem suffix_skipMany
    (cursor : Cursor) (count : Nat) :
    (cursor.skipMany count).rest <:+ cursor.rest :=
  List.drop_suffix _ _

theorem suffix_skipBreak
    (cursor : Cursor) :
    cursor.skipBreak.rest <:+ cursor.rest :=
  List.drop_suffix _ _

/-- The place at the start of the next line. -/
theorem skipBreak_of_newline
    (isRest : cursor.rest = '\n' :: rest) :
    cursor.skipBreak = ⟨rest, cursor.line + 1, 0, cursor.offset + 1⟩ := by
  rw [skipBreak, isRest]
  rfl

theorem breakChar_of_newline
    (isRest : cursor.rest = '\n' :: rest) :
    cursor.breakChar = '\n' := by
  rw [breakChar, next?_of_rest isRest]
  rfl

theorem isBreak_breakChar
    (cursor : Cursor) :
    isBreak cursor.breakChar = true := by
  rw [breakChar]
  split
  · rename_i character _
    split
    · rename_i isSeparator
      rw [isBreak, Bool.or_assoc, isSeparator, Bool.or_true]
    · rfl
  · rfl

/-- A break is one character, or two that end a line together. -/
theorem exists_rest_of_break
    (isRest : cursor.rest = character :: rest) (ends : isBreak character = true) :
    ∃ taken, taken ≠ [] ∧ (∀ other ∈ taken, isBreak other = true) ∧
      cursor.rest = taken ++ cursor.skipBreak.rest := by
  have isSkipped : cursor.skipBreak.rest = rest ∨
      character = '\r' ∧ rest = '\n' :: cursor.skipBreak.rest := by
    rw [skipBreak, isRest]
    split
    · rename_i more isText
      obtain ⟨rfl, rfl⟩ := List.cons.inj isText
      exact Or.inr ⟨rfl, rfl⟩
    · exact Or.inl rfl
  rcases isSkipped with isOne | ⟨rfl, isTwo⟩
  · refine ⟨[character], List.cons_ne_nil _ _, List.forall_mem_singleton.mpr ends, ?_⟩
    rw [isRest, isOne, List.singleton_append]
  · have areBreaks : ∀ other ∈ ['\r', '\n'], isBreak other = true :=
      List.forall_mem_cons.mpr ⟨ends, List.forall_mem_singleton.mpr (by decide)⟩
    refine ⟨['\r', '\n'], List.cons_ne_nil _ _, areBreaks, ?_⟩
    rw [isRest, isTwo]
    rfl

end Cursor

/-! ## Gaps -/

theorem isBreak_of_isSpaceOrTab
    {character : Char} (isBlank : isSpaceOrTab character = true) :
    isBreak character = false := by
  rw [isSpaceOrTab, Bool.or_eq_true, decide_eq_true_eq, decide_eq_true_eq] at isBlank
  rcases isBlank with rfl | rfl <;> decide

theorem isGap_of_isSpaceOrTab
    {character : Char} (isBlank : isSpaceOrTab character = true) :
    isGap character = true := by
  rw [isGap, isBlank, Bool.true_or]

theorem isGap_eq_false_iff
    {character : Char} :
    isGap character = false ↔ isSpaceOrTab character = false ∧ isBreak character = false := by
  rw [isGap, Bool.or_eq_false_iff]

/-- Whether a gap ends before a text: with the text itself or before a visible character. -/
def EndsGap (rest : List Char) : Prop := ∀ character ∈ rest.head?, isGap character = false

variable {tabsFrom : Nat} {gap : Gap} {cursor : Cursor} {rest : List Char}

theorem readGapWithin_of_endsGap
    (fuel : Nat) (ends : EndsGap cursor.rest) :
    readGapWithin tabsFrom (fuel + 1) gap cursor = some (gap, cursor) := by
  rw [readGapWithin]
  split
  · rfl
  · rename_i character isNext
    obtain ⟨notBlank, notBreak⟩ := isGap_eq_false_iff.mp (ends character isNext)
    rw [if_neg (Bool.not_eq_true _ ▸ notBreak), if_neg (Bool.not_eq_true _ ▸ notBlank)]

theorem readGapWithin_blanks
    {blanks : List Char} (areBlanks : ∀ character ∈ blanks, isSpaceOrTab character = true)
    (isRest : cursor.rest = blanks ++ rest) (ends : EndsGap rest) (fuel : Nat)
    (before : List Char) :
    readGapWithin tabsFrom (fuel + blanks.length + 1) ⟨before, []⟩ cursor =
      some (⟨before ++ blanks, []⟩, cursor.skipMany blanks.length) := by
  induction blanks generalizing cursor before with
  | nil =>
      rw [List.append_nil, List.length_nil, Cursor.skipMany_zero]
      exact readGapWithin_of_endsGap fuel (isRest ▸ ends)
  | cons blank blanks inductionHypothesis =>
      obtain ⟨isBlank, areBlanks⟩ := List.forall_mem_cons.mp areBlanks
      have onward := inductionHypothesis areBlanks (Cursor.rest_skip isRest) (before ++ [blank])
      rw [List.append_assoc, List.singleton_append, Cursor.skip_skipMany] at onward
      rw [readGapWithin, Cursor.next?_of_rest isRest, List.length_cons, ← onward]
      simp only [isBreak_of_isSpaceOrTab isBlank, isBlank, List.isEmpty_nil, if_true]
      rfl

/-- A gap on one line. -/
theorem readGap_of_blanks
    {blanks : List Char} (areBlanks : ∀ character ∈ blanks, isSpaceOrTab character = true)
    (isRest : cursor.rest = blanks ++ rest) (ends : EndsGap rest) :
    readGap tabsFrom cursor = some (⟨blanks, []⟩, cursor.skipMany blanks.length) := by
  have enough : cursor.rest.length = rest.length + blanks.length := by
    rw [isRest, List.length_append, Nat.add_comm]
  rw [readGap, enough, readGapWithin_blanks areBlanks isRest ends, List.nil_append]

theorem readGapWithin_spaces
    {count : Nat} (behindBreak : gap.breaks ≠ [])
    (isRest : cursor.rest = List.replicate count ' ' ++ rest) (ends : EndsGap rest)
    (fuel : Nat) :
    readGapWithin tabsFrom (fuel + count + 1) gap cursor =
      some (gap, cursor.skipMany count) := by
  induction count generalizing cursor with
  | zero => exact readGapWithin_of_endsGap fuel (isRest ▸ ends)
  | succ count inductionHypothesis =>
      have onward := inductionHypothesis (Cursor.rest_skip isRest)
      rw [Cursor.skip_skipMany] at onward
      rw [readGapWithin, Cursor.next?_of_rest isRest, ← onward, ← Nat.add_assoc]
      simp only [show isBreak ' ' = false from rfl, show isSpaceOrTab ' ' = true from rfl,
        List.isEmpty_eq_false_iff.mpr behindBreak, show (' ' = '\t') = False from by decide]
      rfl

theorem exists_readGapWithin_lines
    {lines count : Nat}
    (isRest : cursor.rest = List.replicate lines '\n' ++ (List.replicate count ' ' ++ rest))
    (ends : EndsGap rest) (gap : Gap) (behindBreak : gap.breaks ≠ [])
    (atStart : cursor.column = 0) (fuel : Nat) :
    ∃ found behind,
      readGapWithin tabsFrom (fuel + lines + count + 1) gap cursor = some (found, behind) ∧
        found.breaks ≠ [] ∧ behind.rest = rest ∧ behind.column = count := by
  induction lines generalizing cursor gap with
  | zero =>
      refine ⟨gap, cursor.skipMany count, readGapWithin_spaces behindBreak isRest ends _,
        behindBreak, ?_, ?_⟩
      · rw [Cursor.skipMany, isRest, List.replicate_zero, List.nil_append,
          List.drop_left' List.length_replicate]
      · rw [Cursor.skipMany, atStart, Nat.zero_add]
  | succ lines inductionHypothesis =>
      have isBreakRest : cursor.skipBreak.rest =
          List.replicate lines '\n' ++ (List.replicate count ' ' ++ rest) := by
        rw [Cursor.skipBreak_of_newline isRest]
        rfl
      obtain ⟨found, behind, isRead, isFound⟩ :=
        inductionHypothesis isBreakRest ⟨gap.blanks, gap.breaks ++ [cursor.breakChar]⟩
          (List.append_ne_nil_of_right_ne_nil _ (List.cons_ne_nil _ _)) rfl
      refine ⟨found, behind, ?_, isFound⟩
      rw [show fuel + (lines + 1) + count + 1 = fuel + lines + count + 1 + 1 from by omega,
        readGapWithin, Cursor.next?_of_rest isRest]
      exact isRead

/-- A gap that ends a line, behind which lines without anything may stand and then spaces. -/
theorem exists_readGap_of_lines
    (tabsFrom : Nat) {lines count : Nat}
    (isRest : cursor.rest =
      '\n' :: (List.replicate lines '\n' ++ (List.replicate count ' ' ++ rest)))
    (ends : EndsGap rest) :
    ∃ found behind, readGap tabsFrom cursor = some (found, behind) ∧ found.breaks ≠ [] ∧
      behind.rest = rest ∧ behind.column = count := by
  have enough : cursor.rest.length + 1 = rest.length + lines + count + 1 + 1 := by
    simp only [isRest, List.length_cons, List.length_append, List.length_replicate]
    omega
  have isBreakRest : cursor.skipBreak.rest =
      List.replicate lines '\n' ++ (List.replicate count ' ' ++ rest) := by
    rw [Cursor.skipBreak_of_newline isRest]
  obtain ⟨found, behind, isRead, isFound⟩ :=
    exists_readGapWithin_lines isBreakRest ends ⟨[], [cursor.breakChar]⟩ (List.cons_ne_nil _ _)
      rfl rest.length
  refine ⟨found, behind, ?_, isFound⟩
  rw [readGap, enough, readGapWithin, Cursor.next?_of_rest isRest]
  exact isRead

/-! ## What a gap takes -/

/-- From one gap and place to another by the characters of a gap. -/
inductive Skips : Gap → Cursor → List Char → Gap → Cursor → Prop
  | stop {gap : Gap} {cursor : Cursor} (ends : EndsGap cursor.rest) : Skips gap cursor [] gap cursor
  /-- A blank before the first break. -/
  | blank {gap found : Gap} {cursor behind : Cursor} {character : Char} {rest skipped : List Char}
      (isRest : cursor.rest = character :: rest) (isBlank : isSpaceOrTab character = true)
      (onLine : gap.breaks = [])
      (onwards : Skips ⟨gap.blanks ++ [character], gap.breaks⟩ cursor.skip skipped found behind) :
      Skips gap cursor (character :: skipped) found behind
  /-- A blank behind a break. -/
  | indent {gap found : Gap} {cursor behind : Cursor} {character : Char}
      {rest skipped : List Char}
      (isRest : cursor.rest = character :: rest) (isBlank : isSpaceOrTab character = true)
      (offLine : gap.breaks ≠ []) (onwards : Skips gap cursor.skip skipped found behind) :
      Skips gap cursor (character :: skipped) found behind
  | lineEnd {gap found : Gap} {cursor behind : Cursor} {taken skipped : List Char}
      (isRest : cursor.rest = taken ++ cursor.skipBreak.rest) (filled : taken ≠ [])
      (areBreaks : ∀ character ∈ taken, isBreak character = true)
      (onwards : Skips ⟨gap.blanks, gap.breaks ++ [cursor.breakChar]⟩ cursor.skipBreak skipped
        found behind) :
      Skips gap cursor (taken ++ skipped) found behind

theorem exists_skips
    {tabsFrom fuel : Nat} {gap found : Gap} {cursor behind : Cursor}
    (isRead : readGapWithin tabsFrom fuel gap cursor = some (found, behind)) :
    ∃ skipped, Skips gap cursor skipped found behind := by
  induction fuel generalizing gap cursor with
  | zero => exact nomatch isRead
  | succ fuel inductionHypothesis =>
      rw [readGapWithin] at isRead
      split at isRead
      · rename_i nothing
        obtain ⟨rfl, rfl⟩ := Prod.mk.inj (Option.some.inj isRead)
        exact ⟨[], .stop fun character isNext => nomatch nothing.symm.trans isNext⟩
      · rename_i character isNext
        obtain ⟨rest, isRest⟩ := Cursor.exists_rest_of_next? isNext
        split at isRead
        · rename_i ends
          obtain ⟨taken, filled, areBreaks, isTaken⟩ := Cursor.exists_rest_of_break isRest ends
          obtain ⟨skipped, onwards⟩ := inductionHypothesis isRead
          exact ⟨_, .lineEnd isTaken filled areBreaks onwards⟩
        · split at isRead
          · rename_i isBlank
            split at isRead
            · rename_i noBreak
              obtain ⟨skipped, onwards⟩ := inductionHypothesis isRead
              exact ⟨_, .blank isRest isBlank (List.isEmpty_iff.mp noBreak) onwards⟩
            · rename_i someBreak
              split at isRead
              · exact nomatch isRead
              · obtain ⟨skipped, onwards⟩ := inductionHypothesis isRead
                exact ⟨_, .indent isRest isBlank (mt List.isEmpty_iff.mpr someBreak) onwards⟩
          · rename_i notBreak notBlank
            obtain ⟨rfl, rfl⟩ := Prod.mk.inj (Option.some.inj isRead)
            refine ⟨[], .stop fun other isOther => ?_⟩
            obtain rfl := Option.some.inj (isNext.symm.trans isOther)
            exact isGap_eq_false_iff.mpr
              ⟨Bool.eq_false_iff.mpr notBlank, Bool.eq_false_iff.mpr notBreak⟩

namespace Skips

variable {gap found : Gap} {cursor behind : Cursor} {skipped : List Char}

theorem isRest
    (skips : Skips gap cursor skipped found behind) :
    cursor.rest = skipped ++ behind.rest := by
  induction skips with
  | stop _ => rfl
  | blank isRest _ _ _ inductionHypothesis =>
      rw [isRest, List.cons_append, ← inductionHypothesis, Cursor.rest_skip isRest]
  | indent isRest _ _ _ inductionHypothesis =>
      rw [isRest, List.cons_append, ← inductionHypothesis, Cursor.rest_skip isRest]
  | lineEnd isRest _ _ _ inductionHypothesis =>
      rw [isRest, List.append_assoc, ← inductionHypothesis]

theorem isGap_of_mem
    (skips : Skips gap cursor skipped found behind) :
    ∀ character ∈ skipped, isGap character = true := by
  induction skips with
  | stop _ => exact fun character member => absurd member List.not_mem_nil
  | blank _ isBlank _ _ inductionHypothesis | indent _ isBlank _ _ inductionHypothesis =>
      exact List.forall_mem_cons.mpr ⟨by rw [isGap, isBlank, Bool.true_or], inductionHypothesis⟩
  | lineEnd _ _ areBreaks _ inductionHypothesis =>
      intro character member
      rcases List.mem_append.mp member with inTaken | inSkipped
      · rw [isGap, areBreaks character inTaken, Bool.or_true]
      · exact inductionHypothesis character inSkipped

theorem isGap_of_mem_parts
    (skips : Skips gap cursor skipped found behind)
    (areGaps : ∀ character ∈ gap.blanks ++ gap.breaks, isGap character = true) :
    ∀ character ∈ found.blanks ++ found.breaks, isGap character = true := by
  induction skips with
  | stop _ => exact areGaps
  | indent _ _ _ _ inductionHypothesis => exact inductionHypothesis areGaps
  | blank _ isBlank _ _ inductionHypothesis =>
      refine inductionHypothesis fun character member => ?_
      simp only [List.mem_append, List.mem_singleton] at member areGaps
      rcases member with (inBlanks | rfl) | inBreaks
      · exact areGaps character (Or.inl inBlanks)
      · exact isGap_of_isSpaceOrTab isBlank
      · exact areGaps character (Or.inr inBreaks)
  | @lineEnd _ _ cursor _ _ _ _ _ _ _ inductionHypothesis =>
      refine inductionHypothesis fun character member => ?_
      rw [← List.append_assoc] at member
      rcases List.mem_append.mp member with isOld | isBreak
      · exact areGaps character isOld
      · obtain rfl := List.mem_singleton.mp isBreak
        rw [isGap, cursor.isBreak_breakChar, Bool.or_true]

theorem endsGap
    (skips : Skips gap cursor skipped found behind) :
    EndsGap behind.rest := by
  induction skips with
  | stop ends => exact ends
  | blank _ _ _ _ inductionHypothesis | indent _ _ _ _ inductionHypothesis
  | lineEnd _ _ _ _ inductionHypothesis => exact inductionHypothesis

theorem breaks_ne_nil
    (skips : Skips gap cursor skipped found behind) (behindBreak : gap.breaks ≠ []) :
    found.breaks ≠ [] := by
  induction skips with
  | stop _ => exact behindBreak
  | blank _ _ onLine _ _ => exact absurd onLine behindBreak
  | indent _ _ _ _ inductionHypothesis => exact inductionHypothesis behindBreak
  | lineEnd _ _ _ _ inductionHypothesis =>
      exact inductionHypothesis (List.append_ne_nil_of_right_ne_nil _ (List.cons_ne_nil _ _))

theorem filter_isBreak_cons
    {character : Char} (isBlank : isSpaceOrTab character = true) (characters : List Char) :
    (character :: characters).filter isBreak = characters.filter isBreak :=
  List.filter_cons_of_neg (Bool.eq_false_iff.mp (isBreak_of_isSpaceOrTab isBlank))

theorem length_breaks_le_add
    (skips : Skips gap cursor skipped found behind) :
    found.breaks.length ≤ gap.breaks.length + (skipped.filter isBreak).length := by
  induction skips with
  | stop _ => exact Nat.le_refl _
  | blank _ isBlank _ _ inductionHypothesis | indent _ isBlank _ _ inductionHypothesis =>
      rw [filter_isBreak_cons isBlank]
      exact inductionHypothesis
  | lineEnd _ filled areBreaks _ inductionHypothesis =>
      have someTaken := List.length_pos_iff.mpr filled
      rw [List.length_append, List.length_singleton] at inductionHypothesis
      rw [List.filter_append, List.filter_eq_self.mpr areBreaks, List.length_append]
      omega

theorem length_filter_add_column_le
    (skips : Skips gap cursor skipped found behind) :
    (skipped.filter isBreak).length + behind.column ≤ cursor.column + skipped.length := by
  induction skips with
  | stop _ => exact Nat.le_of_eq (Nat.zero_add _)
  | blank _ isBlank _ _ inductionHypothesis | indent _ isBlank _ _ inductionHypothesis =>
      rw [filter_isBreak_cons isBlank, List.length_cons]
      simp only [Cursor.skip] at inductionHypothesis
      omega
  | lineEnd _ _ areBreaks _ inductionHypothesis =>
      rw [List.filter_append, List.filter_eq_self.mpr areBreaks, List.length_append,
        List.length_append]
      simp only [Cursor.skipBreak] at inductionHypothesis
      omega

/-- A gap stays on its line and holds what it takes, or each break and each column of its last
line takes a character. -/
theorem onLine_or
    (skips : Skips gap cursor skipped found behind) (onLine : gap.breaks = []) :
    (found = ⟨gap.blanks ++ skipped, []⟩ ∧
        ∀ character ∈ skipped, isSpaceOrTab character = true) ∨
      found.breaks ≠ [] ∧ (skipped.filter isBreak).length + behind.column ≤ skipped.length := by
  induction skips with
  | stop _ =>
      refine Or.inl ⟨?_, nofun⟩
      rw [List.append_nil, ← onLine]
  | blank _ isBlank _ _ inductionHypothesis =>
      rcases inductionHypothesis onLine with ⟨isFound, areBlanks⟩ | ⟨someBreak, isShort⟩
      · refine Or.inl ⟨?_, List.forall_mem_cons.mpr ⟨isBlank, areBlanks⟩⟩
        rw [isFound, List.append_assoc, List.singleton_append]
      · rw [filter_isBreak_cons isBlank]
        exact Or.inr ⟨someBreak, Nat.le_succ_of_le isShort⟩
  | indent _ _ offLine _ _ => exact absurd onLine offLine
  | lineEnd _ _ areBreaks onwards _ =>
      have isShort := onwards.length_filter_add_column_le
      simp only [Cursor.skipBreak] at isShort
      refine Or.inr ⟨onwards.breaks_ne_nil
        (List.append_ne_nil_of_right_ne_nil _ (List.cons_ne_nil _ _)), ?_⟩
      rw [List.filter_append, List.filter_eq_self.mpr areBreaks, List.length_append,
        List.length_append]
      omega

theorem breaks_eq_self
    (skips : Skips gap cursor skipped found behind) (noBreaks : skipped.filter isBreak = []) :
    found.breaks = gap.breaks := by
  induction skips with
  | stop _ => rfl
  | blank _ isBlank _ _ inductionHypothesis | indent _ isBlank _ _ inductionHypothesis =>
      rw [filter_isBreak_cons isBlank] at noBreaks
      exact inductionHypothesis noBreaks
  | lineEnd _ filled areBreaks _ _ =>
      rw [List.filter_append, List.filter_eq_self.mpr areBreaks] at noBreaks
      exact absurd (List.append_eq_nil_iff.mp noBreaks).1 filled

/-- A gap with a single line feed has a single break. -/
theorem breaks_eq_singleton
    (skips : Skips gap cursor skipped found behind)
    (oneBreak : skipped.filter isBreak = ['\n']) :
    found.breaks = gap.breaks ++ ['\n'] := by
  induction skips with
  | stop _ => exact nomatch oneBreak
  | blank _ isBlank _ _ inductionHypothesis | indent _ isBlank _ _ inductionHypothesis =>
      rw [filter_isBreak_cons isBlank] at oneBreak
      exact inductionHypothesis oneBreak
  | lineEnd isRest filled areBreaks onwards _ =>
      rw [List.filter_append, List.filter_eq_self.mpr areBreaks] at oneBreak
      obtain ⟨first, others, rfl⟩ := List.exists_cons_of_ne_nil filled
      obtain ⟨rfl, noBreaks⟩ := List.cons.inj oneBreak
      rw [onwards.breaks_eq_self (List.append_eq_nil_iff.mp noBreaks).2,
        Cursor.breakChar_of_newline isRest]

end Skips

theorem Gap.length_folded_le
    {gap : Gap} (someBreak : gap.breaks ≠ []) :
    gap.folded.length ≤ gap.breaks.length := by
  rw [folded]
  split
  · rename_i noBreak
    exact absurd noBreak someBreak
  · rename_i isBreaks
    rw [isBreaks]
    exact Nat.le_refl _
  · rename_i isBreaks
    rw [isBreaks]
    exact Nat.le_succ _
  · exact Nat.le_refl _

theorem Gap.mem_of_mem_folded
    {gap : Gap} {character : Char} (member : character ∈ gap.folded) :
    character = ' ' ∨ character ∈ gap.blanks ++ gap.breaks := by
  rw [folded] at member
  split at member
  · exact Or.inr (List.mem_append_left _ member)
  · exact Or.inl (List.mem_singleton.mp member)
  · rename_i isBreaks
    rw [isBreaks]
    exact Or.inr (List.mem_append_right _ (List.mem_cons_of_mem _ member))
  · exact Or.inr (List.mem_append_right _ member)

namespace Skips

variable {found : Gap} {cursor behind : Cursor} {skipped : List Char}

theorem isGap_of_mem_folded
    (skips : Skips ⟨[], []⟩ cursor skipped found behind) :
    ∀ character ∈ found.folded, isGap character = true := by
  intro character member
  rcases Gap.mem_of_mem_folded member with rfl | inParts
  · rfl
  · exact skips.isGap_of_mem_parts nofun character inParts

theorem length_breaks_le
    (skips : Skips ⟨[], []⟩ cursor skipped found behind) :
    found.breaks.length ≤ (skipped.filter isBreak).length :=
  (Nat.zero_add (skipped.filter isBreak).length) ▸ skips.length_breaks_le_add

/-- A gap on a line counts as it stands. One that ends lines is shorter, by what its last line is
indented. -/
theorem folded_eq_or
    (skips : Skips ⟨[], []⟩ cursor skipped found behind) :
    (found.folded = skipped ∧ ∀ character ∈ skipped, isSpaceOrTab character = true) ∨
      found.breaks ≠ [] ∧ found.folded.length ≤ (skipped.filter isBreak).length ∧
        (skipped.filter isBreak).length + behind.column ≤ skipped.length := by
  rcases skips.onLine_or rfl with ⟨rfl, areBlanks⟩ | ⟨someBreak, isShort⟩
  · exact Or.inl ⟨rfl, areBlanks⟩
  · exact Or.inr ⟨someBreak,
      Nat.le_trans (Gap.length_folded_le someBreak) skips.length_breaks_le, isShort⟩

theorem length_folded_le
    (skips : Skips ⟨[], []⟩ cursor skipped found behind) :
    found.folded.length ≤ skipped.length := by
  rcases skips.folded_eq_or with ⟨isFolded, -⟩ | ⟨-, isShort, -⟩
  · exact isFolded ▸ Nat.le_refl _
  · exact Nat.le_trans isShort (List.length_filter_le _ _)

end Skips

end Pipework.Yaml
