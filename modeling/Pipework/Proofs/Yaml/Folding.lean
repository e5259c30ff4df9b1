import Mathlib.Data.List.Infix
import Pipework.Proofs.Yaml.Plain

/-!
# What a plain scalar takes

The text of a plain scalar is folded from the characters that its reader takes (`Yaml.TakesPlain`).
It has no more characters than stand in front of a comment
(`Yaml.TakesPlain.length_le_of_comment`), and if it is what stands there, then it is the words of
a line (`Yaml.TakesPlain.plainWords_of_comment`).
-/

namespace Pipework.Yaml

variable {context : Context} {cursor : Cursor} {rest : List Char}

/-! ## What a plain scalar takes -/

/-- The column in which a plain scalar goes on at the least. -/
def Context.onwardsColumn (context : Context) : Nat :=
  if context.isFlow then 0 else context.contentColumn

theorem Context.onwardsColumn_le
    (context : Context) {column : Nat}
    (staysInside : ¬(!context.isFlow && decide (column < context.contentColumn)) = true) :
    context.onwardsColumn ≤ column := by
  rw [onwardsColumn]
  cases isFlow : context.isFlow with
  | true => exact Nat.zero_le column
  | false => simpa [isFlow] using staysInside

/-- What a plain scalar takes and its text: words as they stand, and folded gaps. -/
inductive Folds (least : Nat) : List Char → List Char → Prop
  | one {word : List Char} (filled : word ≠ [])
      (visible : ∀ character ∈ word, isGap character = false) : Folds least word word
  | more {word skipped taken text : List Char} {gap : Gap} {cursor beyond : Cursor}
      (isWord : IsPlainWord word) (skips : Skips ⟨[], []⟩ cursor skipped gap beyond)
      (parted : skipped ≠ []) (isInside : least ≤ beyond.column)
      (noComment : taken.head? ≠ some '#') (onwards : Folds least taken text) :
      Folds least (word ++ (skipped ++ taken)) (word ++ (gap.folded ++ text))

/-- Visible characters in front of a gap stand in front of the character that is one. -/
theorem exists_append_of_visible
    {word behind front : List Char} {first : Char}
    (areVisible : ∀ character ∈ word, isGap character = false) (isGapFirst : isGap first = true)
    (isText : word ++ behind = front ++ first :: rest) :
    ∃ more, front = word ++ more ∧ behind = more ++ first :: rest := by
  rcases List.append_eq_append_iff.mp isText with ⟨more, isFront, isBehind⟩ |
    ⟨more, isWord, isBehind⟩
  · exact ⟨more, isFront, isBehind⟩
  · cases more with
    | nil => exact ⟨[], by rw [isWord, List.append_nil, List.append_nil], isBehind.symm⟩
    | cons next more =>
        obtain rfl := (List.cons.inj isBehind).1
        have inWord : first ∈ word := isWord ▸ List.mem_append_right _ List.mem_cons_self
        exact absurd isGapFirst (Bool.eq_false_iff.mp (areVisible first inWord))

namespace Folds

variable {least : Nat} {taken text : List Char}

theorem exists_visible
    (folds : Folds least taken text) :
    ∃ first others, taken = first :: others ∧ isGap first = false := by
  cases folds with
  | one filled visible =>
      obtain ⟨first, others, rfl⟩ := List.exists_cons_of_ne_nil filled
      exact ⟨first, others, rfl, visible first List.mem_cons_self⟩
  | @more word skipped taken text _ _ _ isWord =>
      obtain ⟨first, others, rfl⟩ := List.exists_cons_of_ne_nil isWord.filled
      exact ⟨first, others ++ (skipped ++ taken), rfl, isWord.visible first List.mem_cons_self⟩

theorem endsGap
    (folds : Folds least taken text) (rest : List Char) :
    EndsGap (taken ++ rest) := by
  obtain ⟨first, others, rfl, isVisible⟩ := folds.exists_visible
  intro character isFirst
  obtain rfl := Option.some.inj isFirst
  exact isVisible

theorem head?_eq
    (folds : Folds least taken text) :
    text.head? = taken.head? := by
  cases folds with
  | one _ _ => rfl
  | more isWord =>
      rw [List.head?_append_of_ne_nil _ isWord.filled, List.head?_append_of_ne_nil _ isWord.filled]

theorem text_ne_nil
    (folds : Folds least taken text) :
    text ≠ [] := by
  cases folds with
  | one filled _ => exact filled
  | more isWord => exact List.append_ne_nil_of_left_ne_nil isWord.filled _

theorem getLast?_append
    (folds : Folds least taken text) (front gap : List Char) :
    (front ++ (gap ++ text)).getLast? = text.getLast? := by
  rw [← List.append_assoc, List.getLast?_append_of_ne_nil _ folds.text_ne_nil]

theorem getLast?_eq
    (folds : Folds least taken text) :
    text.getLast? = taken.getLast? := by
  induction folds with
  | one _ _ => rfl
  | more _ _ _ _ _ onwards inductionHypothesis =>
      obtain ⟨_, _, rfl, -⟩ := onwards.exists_visible
      rw [onwards.getLast?_append, inductionHypothesis, ← List.append_assoc,
        List.getLast?_append_of_ne_nil _ (List.cons_ne_nil _ _)]

theorem length_le
    (folds : Folds least taken text) :
    text.length ≤ taken.length := by
  induction folds with
  | one _ _ => exact Nat.le_refl _
  | more _ skips _ _ _ _ inductionHypothesis =>
      have isShort := skips.length_folded_le
      simp only [List.length_append]
      omega

/-- Only gaps get other characters. -/
theorem isGap_or_mem
    (folds : Folds least taken text) :
    ∀ character ∈ text, isGap character = true ∨ character ∈ taken := by
  induction folds with
  | one _ _ => exact fun _ member => Or.inr member
  | more _ skips _ _ _ _ inductionHypothesis =>
      intro character member
      rcases List.mem_append.mp member with inWord | member
      · exact Or.inr (List.mem_append_left _ inWord)
      · rcases List.mem_append.mp member with inGap | inText
        · exact Or.inl (skips.isGap_of_mem_folded character inGap)
        · refine (inductionHypothesis character inText).imp_right fun inTaken => ?_
          exact List.mem_append_right _ (List.mem_append_right _ inTaken)

/-- A plain scalar in front of a comment does not reach the gap before it. -/
theorem exists_append_of_comment
    (folds : Folds least taken text) (noComment : taken.head? ≠ some '#')
    {front gap comment rest : List Char} (areGaps : ∀ character ∈ gap, isGap character = true)
    (filled : gap ≠ []) (isText : taken ++ rest = front ++ (gap ++ '#' :: comment)) :
    ∃ more, front = taken ++ more := by
  obtain ⟨first, others, rfl⟩ := List.exists_cons_of_ne_nil filled
  have isGapFirst := areGaps first List.mem_cons_self
  induction folds generalizing front with
  | one _ visible =>
      obtain ⟨more, isFront, -⟩ := exists_append_of_visible visible isGapFirst isText
      exact ⟨more, isFront⟩
  | @more word skipped taken text _ _ _ isWord skips _ _ noCommentBehind onwards
      inductionHypothesis =>
      rw [List.append_assoc, List.append_assoc] at isText
      obtain ⟨more, rfl, isBehind⟩ :=
        exists_append_of_visible isWord.visible isGapFirst isText
      rcases List.append_eq_append_iff.mp isBehind with ⟨last, rfl, isLast⟩ |
        ⟨last, rfl, isLast⟩
      · obtain ⟨behind, rfl⟩ := inductionHypothesis noCommentBehind isLast
        exact ⟨behind, by simp only [List.append_assoc]⟩
      · -- The gap behind the word would be the one before the comment.
        have areLast : ∀ character ∈ last, isGap character = true := fun character member =>
          skips.isGap_of_mem character (List.mem_append_right _ member)
        have endsAtSign : EndsGap ('#' :: comment) := fun character isFirst =>
          Option.some.inj isFirst ▸ rfl
        have isComment : '#' :: comment = taken ++ rest := by
          rw [← dropWhile_append_of_stops areGaps endsAtSign,
            ← dropWhile_append_of_stops areLast (onwards.endsGap rest), ← isLast]
          rfl
        obtain ⟨character, characters, rfl, -⟩ := onwards.exists_visible
        obtain ⟨rfl, -⟩ := List.cons.inj isComment
        exact absurd rfl noCommentBehind

end Folds

/-- A plain scalar that takes as many characters as it has is the words of a line. -/
theorem plainWords_of_folds
    {least : Nat} {taken text : List Char} (folds : Folds least taken text)
    (isNested : least ≠ 0) (isLong : taken.length ≤ text.length)
    (notKey : text.getLast? ≠ some ':') :
    PlainWords text := by
  induction folds with
  | one filled visible => exact .one ⟨filled, visible, notKey⟩
  | more isWord skips parted isInside noComment onwards inductionHypothesis =>
      have isShort := onwards.length_le
      simp only [List.length_append] at isLong
      rw [onwards.getLast?_append] at notKey
      rcases skips.folded_eq_or with ⟨isFolded, areBlanks⟩ | ⟨-, isFolded, isShorter⟩
      · rw [isFolded] at isLong ⊢
        exact .more isWord parted areBlanks (onwards.head?_eq ▸ noComment)
          (inductionHypothesis (by omega) notKey)
      · omega

theorem exists_readPlainWord
    {isFlow : Bool} {fuel : Nat} {word longer : List Char} {behind : Cursor}
    (isRead : readPlainWord isFlow fuel word cursor = some (longer, behind)) :
    ∃ taken, longer = word ++ taken ∧ cursor.rest = taken ++ behind.rest ∧
      (∀ character ∈ taken, isGap character = false) ∧
      (taken.getLast? = some ':' → ∃ next ∈ behind.rest.head?, isGap next = false) := by
  induction fuel generalizing word cursor with
  | zero => exact nomatch isRead
  | succ fuel inductionHypothesis =>
      have stopsHere (isStop : some (word, cursor) = some (longer, behind)) :
          ∃ taken, longer = word ++ taken ∧ cursor.rest = taken ++ behind.rest ∧
            (∀ character ∈ taken, isGap character = false) ∧
            (taken.getLast? = some ':' → ∃ next ∈ behind.rest.head?, isGap next = false) := by
        obtain ⟨rfl, rfl⟩ := Prod.mk.inj (Option.some.inj isStop)
        exact ⟨[], (List.append_nil _).symm, rfl, nofun, nofun⟩
      rw [readPlainWord] at isRead
      split at isRead
      · exact stopsHere isRead
      · rename_i character isNext
        obtain ⟨rest, isRest⟩ := Cursor.exists_rest_of_next? isNext
        split_ifs at isRead with isGapHere _ isSign
        · exact stopsHere isRead
        · exact stopsHere isRead
        · exact stopsHere isRead
        · obtain ⟨taken, rfl, isTaken, areVisible, notKey⟩ := inductionHypothesis isRead
          rw [Cursor.rest_skip isRest] at isTaken
          refine ⟨character :: taken, by rw [List.append_assoc, List.singleton_append],
            by rw [isRest, isTaken, List.cons_append],
            List.forall_mem_cons.mpr ⟨Bool.eq_false_iff.mpr isGapHere, areVisible⟩, ?_⟩
          cases taken with
          | nil =>
              intro isColon
              obtain rfl := Option.some.inj isColon
              rw [Cursor.isGapAhead_one isRest, isTaken] at isSign
              cases isNextToo : behind.rest.head? with
              | none => simp [isNextToo] at isSign
              | some next => exact ⟨next, rfl, by simpa [isNextToo] using isSign⟩
          | cons second others =>
              rw [List.getLast?_cons_cons]
              exact notKey

/-- What a plain scalar takes at the start of a text, and what stands behind it. -/
structure TakesPlain (least : Nat) (start taken text rest : List Char) : Prop where
  isStart : start = taken ++ rest
  noComment : taken.head? ≠ some '#'
  folds : Folds least taken text
  notKey : text.getLast? = some ':' → ∃ next ∈ rest.head?, isGap next = false

theorem TakesPlain.of_word
    {least : Nat} {start word rest : List Char} (isStart : start = word ++ rest)
    (noComment : start.head? ≠ some '#') (filled : word ≠ [])
    (visible : ∀ character ∈ word, isGap character = false)
    (notKey : word.getLast? = some ':' → ∃ next ∈ rest.head?, isGap next = false) :
    TakesPlain least start word word rest := by
  refine ⟨isStart, ?_, .one filled visible, notKey⟩
  rw [isStart, List.head?_append_of_ne_nil _ filled] at noComment
  exact noComment

/-- A plain scalar that goes on behind a word and a gap. -/
theorem TakesPlain.behind_word
    {least : Nat} {word skipped taken text rest : List Char} {gap : Gap}
    {cursor behind beyond : Cursor} (takesWord : TakesPlain least cursor.rest word word behind.rest)
    (filled : word ≠ []) (visible : ∀ character ∈ word, isGap character = false)
    (isGapHere : behind.next?.any isGap = true)
    (skips : Skips ⟨[], []⟩ behind skipped gap beyond) (isInside : least ≤ beyond.column)
    (takes : TakesPlain least beyond.rest taken text rest) :
    TakesPlain least cursor.rest (word ++ (skipped ++ taken)) (word ++ (gap.folded ++ text))
      rest := by
  obtain ⟨next, isNext, isGapNext⟩ := (Option.any_eq_true _ _).mp isGapHere
  have isWord : IsPlainWord word := by
    refine ⟨filled, visible, fun isColon => ?_⟩
    obtain ⟨other, isOther, isVisible⟩ := takesWord.notKey isColon
    obtain rfl := Option.some.inj (isNext.symm.trans isOther)
    exact Bool.false_ne_true (isVisible.symm.trans isGapNext)
  have parted : skipped ≠ [] := by
    rintro rfl
    rw [Cursor.next?, skips.isRest, List.nil_append] at isNext
    exact Bool.false_ne_true ((skips.endsGap next isNext).symm.trans isGapNext)
  refine ⟨?_, ?_, .more isWord skips parted isInside takes.noComment takes.folds, ?_⟩
  · rw [takesWord.isStart, skips.isRest, takes.isStart]
    simp only [List.append_assoc]
  · rw [List.head?_append_of_ne_nil _ isWord.filled]
    exact takesWord.noComment
  · rw [takes.folds.getLast?_append]
    exact takes.notKey

/-- What is read as a plain scalar is the text so far or goes on behind it. -/
theorem exists_takesPlain
    {fuel : Nat} {text : List Char} {gap : Gap} {plain : PlainScalar}
    (isRead : readPlainWithin context fuel text gap cursor = some plain) :
    (plain.text = text ∧ plain.cursor = cursor) ∨
      ∃ taken folded rest,
        TakesPlain context.onwardsColumn cursor.rest taken folded rest ∧
          plain.text = text ++ (gap.folded ++ folded) ∧ plain.cursor.rest <:+ rest := by
  induction fuel generalizing text gap cursor with
  | zero => exact nomatch isRead
  | succ fuel inductionHypothesis =>
      rw [readPlainWithin] at isRead
      split at isRead
      · exact Or.inl (Option.some.inj isRead ▸ ⟨rfl, rfl⟩)
      · rename_i goesOn
        rw [Bool.or_eq_true, not_or, Cursor.isAhead_zero, beq_iff_eq] at goesOn
        obtain ⟨⟨word, behind⟩, isReadWord, isRead⟩ := Option.bind_eq_some_iff.mp isRead
        dsimp only at isRead
        split at isRead
        · exact Or.inl (Option.some.inj isRead ▸ ⟨rfl, rfl⟩)
        · rename_i filled
          obtain ⟨_, rfl, isTaken, areVisible, notKey⟩ := exists_readPlainWord isReadWord
          have someWord : word ≠ [] := mt List.isEmpty_iff.mpr filled
          have takesWord : TakesPlain context.onwardsColumn cursor.rest word word behind.rest :=
            .of_word isTaken goesOn.2 someWord areVisible notKey
          right
          split at isRead
          · obtain rfl := Option.some.inj isRead
            exact ⟨word, word, _, takesWord, List.append_assoc _ _ _, List.suffix_rfl⟩
          · rename_i isGapHere
            rw [Bool.not_eq_true, Bool.not_eq_false'] at isGapHere
            obtain ⟨⟨after, beyond⟩, isReadGap, isRead⟩ := Option.bind_eq_some_iff.mp isRead
            obtain ⟨skipped, skips⟩ := exists_skips isReadGap
            have isBehind : beyond.rest <:+ behind.rest := skips.isRest ▸ List.suffix_append _ _
            dsimp only at isRead
            split at isRead
            · obtain rfl := Option.some.inj isRead
              exact ⟨word, word, _, takesWord, List.append_assoc _ _ _, isBehind⟩
            · rename_i staysInside
              rcases inductionHypothesis isRead with
                ⟨isText, isCursor⟩ | ⟨taken, folded, rest, takes, isText, isLeft⟩
              · exact ⟨word, word, _, takesWord, isText.trans (List.append_assoc _ _ _),
                  isCursor ▸ isBehind⟩
              · have isInside : context.onwardsColumn ≤ beyond.column :=
                  context.onwardsColumn_le staysInside
                exact ⟨_, _, rest,
                  takesWord.behind_word someWord areVisible isGapHere skips isInside takes,
                  by simp only [isText, List.append_assoc], isLeft⟩

/-- A plain scalar without any text takes nothing. -/
theorem readPlain_takes
    {plain : PlainScalar} (isRead : readPlain context cursor = some plain) :
    (plain.text = [] ∧ plain.cursor = cursor) ∨
      ∃ taken rest, TakesPlain context.onwardsColumn cursor.rest taken plain.text rest ∧
        plain.cursor.rest <:+ rest := by
  rcases exists_takesPlain isRead with nothing | ⟨taken, folded, rest, takes, isText, isLeft⟩
  · exact Or.inl nothing
  · rw [show plain.text = folded from isText]
    exact Or.inr ⟨taken, rest, takes, isLeft⟩

theorem suffix_of_readPlain
    {plain : PlainScalar} (isRead : readPlain context cursor = some plain) :
    plain.cursor.rest <:+ cursor.rest := by
  rcases readPlain_takes isRead with ⟨-, isSame⟩ | ⟨taken, rest, takes, isLeft⟩
  · exact isSame ▸ List.suffix_rfl
  · exact takes.isStart ▸ isLeft.trans (List.suffix_append _ _)

/-! ## What is read as a line -/

namespace TakesPlain

variable {least : Nat} {start taken text : List Char}

theorem head?_eq
    (takes : TakesPlain least start taken text rest) :
    text.head? = start.head? := by
  obtain ⟨first, others, rfl, -⟩ := takes.folds.exists_visible
  rw [takes.folds.head?_eq, takes.isStart]
  rfl

/-- A plain scalar has no more characters than stand in front of a comment. -/
theorem length_le_of_comment
    {front gap comment : List Char} (takes : TakesPlain least start taken text rest)
    (isStart : start = front ++ (gap ++ '#' :: comment))
    (areGaps : ∀ character ∈ gap, isGap character = true) (filled : gap ≠ []) :
    text.length ≤ front.length := by
  obtain ⟨more, rfl⟩ := takes.folds.exists_append_of_comment takes.noComment areGaps filled
    (takes.isStart.symm.trans isStart)
  rw [List.length_append]
  exact Nat.le_add_right_of_le takes.folds.length_le

/-- A text that is read as a plain scalar as it stands is the words of a line. -/
theorem plainWords_of_comment
    {gap comment : List Char} (takes : TakesPlain least start taken text rest)
    (isNested : least ≠ 0) (isStart : start = text ++ (gap ++ '#' :: comment))
    (areGaps : ∀ character ∈ gap, isGap character = true) (filled : gap ≠ []) :
    PlainWords text := by
  obtain ⟨more, isText⟩ := takes.folds.exists_append_of_comment takes.noComment areGaps filled
    (takes.isStart.symm.trans isStart)
  have isSame : taken = text :=
    List.IsPrefix.eq_of_length_le ⟨more, isText.symm⟩ takes.folds.length_le
  refine plainWords_of_folds takes.folds isNested (isSame ▸ Nat.le_refl _) fun isColon => ?_
  -- Behind the text stands the gap.
  obtain ⟨next, isNext, isVisible⟩ := takes.notKey isColon
  obtain ⟨first, others, rfl⟩ := List.exists_cons_of_ne_nil filled
  have isRest := takes.isStart.symm.trans isStart
  rw [isSame] at isRest
  rw [List.append_cancel_left isRest] at isNext
  obtain rfl := Option.some.inj isNext
  exact Bool.false_ne_true (isVisible.symm.trans (areGaps first List.mem_cons_self))

end TakesPlain

/-- A text in which no more than one line ends before a line that is indented, and no colon stands
before anything visible. -/
structure IsLineByLine (text : List Char) : Prop where
  oneBreak : ∀ tail, tail <:+ text → (tail.takeWhile isGap).all isBreak = true ∨
    (tail.takeWhile isGap).filter isBreak ∈ [[], ['\n']]
  isSign : ∀ tail, tail <:+ text → tail.head? = some ':' → tail.tail.head?.all isGap = true

theorem isLineByLine_iff
    {text : List Char} :
    IsLineByLine text ↔ ∀ tail ∈ text.tails,
      ((tail.takeWhile isGap).all isBreak = true ∨
        (tail.takeWhile isGap).filter isBreak ∈ [[], ['\n']]) ∧
      (tail.head? = some ':' → tail.tail.head?.all isGap = true) := by
  simp only [List.mem_tails]
  exact ⟨fun lineByLine tail isTail =>
      ⟨lineByLine.oneBreak tail isTail, lineByLine.isSign tail isTail⟩,
    fun areTails => ⟨fun tail isTail => (areTails tail isTail).1,
      fun tail isTail => (areTails tail isTail).2⟩⟩

instance (text : List Char) : Decidable (IsLineByLine text) :=
  decidable_of_iff _ isLineByLine_iff.symm

theorem plainWords_of_isLineByLine
    {least : Nat} {taken text whole : List Char} (folds : Folds least taken text)
    (isNested : least ≠ 0) (lineByLine : IsLineByLine whole) (isPart : taken ++ rest <:+ whole)
    (notKey : text.getLast? ≠ some ':') :
    PlainWords text := by
  induction folds with
  | one filled visible => exact .one ⟨filled, visible, notKey⟩
  | @more word skipped taken text gap _ _ isWord skips parted isInside noComment onwards
      inductionHypothesis =>
      rw [onwards.getLast?_append] at notKey
      rw [List.append_assoc, List.append_assoc] at isPart
      have isPartBehind := (List.suffix_append _ _).trans isPart
      have areWords := inductionHypothesis ((List.suffix_append _ _).trans isPartBehind) notKey
      have noCommentBehind : text.head? ≠ some '#' := onwards.head?_eq ▸ noComment
      rcases skips.folded_eq_or with ⟨isFolded, areBlanks⟩ | ⟨someBreak, -, isShorter⟩
      · exact isFolded ▸ .more isWord parted areBlanks noCommentBehind areWords
      · have isGaps := takeWhile_append_of_stops skips.isGap_of_mem (onwards.endsGap rest)
        have oneBreak : skipped.filter isBreak ∈ [[], ['\n']] := by
          have ends := lineByLine.oneBreak _ isPartBehind
          rw [isGaps] at ends
          refine ends.resolve_left fun areBreaks => ?_
          rw [List.filter_eq_self.mpr (List.all_eq_true.mp areBreaks)] at isShorter
          omega
        have isBreaks : gap.breaks = ['\n'] := by
          rcases List.mem_cons.mp oneBreak with none | single
          · exact absurd (skips.breaks_eq_self none) someBreak
          · exact skips.breaks_eq_singleton (List.mem_singleton.mp single)
        have isFolded : gap.folded = [' '] := by
          rw [Gap.folded, isBreaks]
          rfl
        exact isFolded ▸ .more isWord (List.cons_ne_nil _ _) (List.forall_mem_singleton.mpr rfl)
          noCommentBehind areWords

/-- What is read as a plain scalar in a text that goes on line by line is the words of a line. -/
theorem TakesPlain.plainWords_of_isLineByLine
    {least : Nat} {start taken text whole : List Char}
    (takes : TakesPlain least start taken text rest) (isNested : least ≠ 0)
    (lineByLine : IsLineByLine whole) (isPart : start <:+ whole) :
    PlainWords text := by
  rw [takes.isStart] at isPart
  refine Yaml.plainWords_of_isLineByLine takes.folds isNested lineByLine isPart fun isColon => ?_
  obtain ⟨next, isNext, isVisible⟩ := takes.notKey isColon
  rw [takes.folds.getLast?_eq] at isColon
  obtain ⟨front, rfl⟩ := List.getLast?_eq_some_iff.mp isColon
  rw [List.append_assoc] at isPart
  have isSign := lineByLine.isSign (':' :: rest) ((List.suffix_append _ _).trans isPart) rfl
  exact Bool.false_ne_true
    (isVisible.symm.trans ((Option.all_eq_true _ _).mp isSign next isNext))

end Pipework.Yaml
