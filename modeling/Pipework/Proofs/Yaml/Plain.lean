import Pipework.Proofs.Yaml.Gap
import Pipework.Yaml.Token

/-!
# Plain scalars on one line

A text that is nothing but the words of one line (`Yaml.IsPlainLine`) is a plain scalar as it
stands: its reader gives the text back, with the place where the next line is
(`Yaml.readPlain_line`).
-/

namespace Pipework.Yaml

/-! ## Words and lines -/

/-- A word of a plain scalar. A colon at its end would make it a key. -/
structure IsPlainWord (word : List Char) : Prop where
  filled : word ≠ []
  visible : ∀ character ∈ word, isGap character = false
  notKey : word.getLast? ≠ some ':'

instance (word : List Char) : Decidable (IsPlainWord word) :=
  decidable_of_iff (word ≠ [] ∧ word.any isGap = false ∧ word.getLast? ≠ some ':')
    ⟨fun ⟨filled, visible, notKey⟩ =>
        ⟨filled, fun character member => Bool.eq_false_iff.mpr
          (List.any_eq_false.mp visible character member), notKey⟩,
      fun isWord => ⟨isWord.filled,
        List.any_eq_false.mpr fun character member =>
          Bool.eq_false_iff.mp (isWord.visible character member), isWord.notKey⟩⟩

/-- Words with blanks between them. With a number sign in front, a word behind blanks would be
a comment. -/
inductive PlainWords : List Char → Prop
  | one {word : List Char} (isWord : IsPlainWord word) : PlainWords word
  | more {word blanks words : List Char} (isWord : IsPlainWord word) (parted : blanks ≠ [])
      (areBlanks : ∀ character ∈ blanks, isSpaceOrTab character = true)
      (noComment : words.head? ≠ some '#') (onwards : PlainWords words) :
      PlainWords (word ++ (blanks ++ words))

/-- Whether a plain scalar can start like a text. Of the indicators, three may start one before
a visible character. -/
def StartsPlain : List Char → Prop
  | [] => False
  | first :: rest =>
      first ∉ Lexer.indicators ∨
        first ∈ ['-', '?', ':'] ∧ ∃ second ∈ rest.head?, isGap second = false

/-- A text that is a plain scalar on one line. -/
structure IsPlainLine (text : List Char) : Prop where
  starts : StartsPlain text
  words : PlainWords text

namespace PlainWords

variable {words : List Char}

theorem exists_word
    (areWords : PlainWords words) :
    ∃ word rest, IsPlainWord word ∧ words = word ++ rest := by
  cases areWords with
  | one isWord => exact ⟨words, [], isWord, (List.append_nil _).symm⟩
  | more isWord _ _ _ _ => exact ⟨_, _, isWord, rfl⟩

theorem exists_visible
    (areWords : PlainWords words) :
    ∃ first rest, words = first :: rest ∧ isGap first = false := by
  obtain ⟨word, rest, isWord, rfl⟩ := areWords.exists_word
  obtain ⟨first, others, rfl⟩ := List.exists_cons_of_ne_nil isWord.filled
  exact ⟨first, others ++ rest, rfl, isWord.visible first List.mem_cons_self⟩

theorem endsGap
    (areWords : PlainWords words) (rest : List Char) :
    EndsGap (words ++ rest) := by
  obtain ⟨first, others, rfl, isVisible⟩ := areWords.exists_visible
  intro character isFirst
  obtain rfl := Option.some.inj isFirst
  exact isVisible

/-- What stands behind a colon in the words is visible. Before a gap the colon would make a key of
what is in front of it. -/
theorem visible_of_colon
    {front back : List Char} {next : Char} (areWords : PlainWords (front ++ ':' :: next :: back)) :
    isGap next = false := by
  generalize isText : front ++ ':' :: next :: back = text at areWords
  induction areWords generalizing front with
  | one isWord => exact isWord.visible next (isText ▸ by simp)
  | @more word blanks words isWord parted areBlanks _ _ inductionHypothesis =>
      have notBlank : ':' ∉ blanks := fun member => absurd (areBlanks ':' member) (by decide)
      rcases List.append_eq_append_iff.mp isText with ⟨inWord, isWordHere, isBehind⟩ |
        ⟨behindWord, isFront, isBehind⟩
      · -- The colon is in the word, or the word ends in front of it.
        match inWord with
        | [] =>
            obtain ⟨first, others, rfl⟩ := List.exists_cons_of_ne_nil parted
            obtain ⟨rfl, -⟩ := List.cons.inj isBehind
            exact absurd List.mem_cons_self notBlank
        | [colon] =>
            obtain ⟨rfl, -⟩ := List.cons.inj isBehind
            exact absurd (by simp [isWordHere]) isWord.notKey
        | colon :: behind :: others =>
            obtain ⟨-, isRest⟩ := List.cons.inj isBehind
            obtain ⟨rfl, -⟩ := List.cons.inj isRest
            exact isWord.visible next (by simp [isWordHere])
      · rcases List.append_eq_append_iff.mp isBehind with ⟨inWords, isHere, isWords⟩ |
          ⟨inBlanks, isHere, isWords⟩
        · exact inductionHypothesis isWords.symm
        · cases inBlanks with
          | nil => exact inductionHypothesis (show [] ++ ':' :: next :: back = _ from isWords)
          | cons colon others =>
              obtain ⟨rfl, -⟩ := List.cons.inj isWords
              exact absurd (by simp [isHere]) notBlank

end PlainWords

theorem StartsPlain.noComment
    {text : List Char} (starts : StartsPlain text) :
    text.head? ≠ some '#' := by
  cases text with
  | nil => exact nofun
  | cons first rest =>
      intro isSign
      obtain rfl := Option.some.inj isSign
      rcases starts with notIndicator | ⟨isMark, _⟩
      · exact notIndicator (by decide)
      · exact absurd isMark (by decide)

/-! ## Reading words -/

/-- Whether a word ends before a text: with the text, before a gap, or before a colon that a gap
follows. -/
def EndsWord (rest : List Char) : Prop :=
  ∀ character ∈ rest.head?,
    isGap character = true ∨ character = ':' ∧ ∀ next ∈ rest.tail.head?, isGap next = true

theorem endsWord_of_isGap
    {first : Char} {rest : List Char} (isGapFirst : isGap first = true) :
    EndsWord (first :: rest) := by
  intro character isFirst
  obtain rfl := Option.some.inj isFirst
  exact Or.inl isGapFirst

theorem endsWord_of_colon
    {rest : List Char} (isSign : ∀ next ∈ rest.head?, isGap next = true) :
    EndsWord (':' :: rest) := by
  intro character isFirst
  obtain rfl := Option.some.inj isFirst
  exact Or.inr ⟨rfl, isSign⟩

variable {context : Context} {cursor : Cursor} {rest : List Char}

theorem Cursor.isGapAhead_one
    {character : Char} (isRest : cursor.rest = character :: rest) :
    cursor.isGapAhead 1 = rest.head?.all isGap := by
  rw [isGapAhead, ahead?, isRest, List.getElem?_cons_succ, List.head?_eq_getElem?]

theorem readPlainWord_of_endsWord
    (ends : EndsWord cursor.rest) (fuel : Nat) (word : List Char) :
    readPlainWord false (fuel + 1) word cursor = some (word, cursor) := by
  rw [readPlainWord]
  split
  · rfl
  · rename_i character isNext
    obtain ⟨others, isRest⟩ := List.head?_eq_some_iff.mp isNext
    rcases ends character isNext with endsHere | ⟨rfl, endsBehind⟩
    · rw [if_pos endsHere]
    · have isSign : cursor.isGapAhead 1 = true := by
        rw [Cursor.isGapAhead_one isRest, Option.all_eq_true]
        rw [isRest] at endsBehind
        exact endsBehind
      rw [if_neg (show ¬isGap ':' = true from by decide), isSign]
      rfl

theorem readPlainWord_append
    {word : List Char} (visible : ∀ character ∈ word, isGap character = false)
    (notKey : word.getLast? ≠ some ':') (isRest : cursor.rest = word ++ rest)
    (ends : EndsWord rest) (fuel : Nat) (read : List Char) :
    readPlainWord false (fuel + word.length + 1) read cursor =
      some (read ++ word, cursor.skipMany word.length) := by
  induction word generalizing cursor read with
  | nil =>
      rw [List.append_nil]
      exact readPlainWord_of_endsWord (isRest ▸ ends) fuel read
  | cons character others inductionHypothesis =>
      obtain ⟨isVisible, visible⟩ := List.forall_mem_cons.mp visible
      have goesOn : ¬(character = ':' && cursor.isGapAhead 1) = true := by
        rw [Cursor.isGapAhead_one isRest, Bool.and_eq_true, decide_eq_true_eq]
        rintro ⟨rfl, isSign⟩
        cases others with
        | nil => exact notKey rfl
        | cons second others =>
            have isGapSecond : isGap second = true := isSign
            exact Bool.false_ne_true ((visible second (List.mem_cons_of_mem _ List.mem_cons_self)).symm.trans isGapSecond)
      have notKeyBehind : others.getLast? ≠ some ':' := by
        intro isColon
        refine notKey ?_
        rw [List.getLast?_cons, isColon]
        rfl
      have onward := inductionHypothesis visible notKeyBehind (Cursor.rest_skip isRest)
        (read ++ [character])
      rw [List.append_assoc, List.singleton_append, Cursor.skip_skipMany] at onward
      rw [readPlainWord, Cursor.next?_of_rest isRest, List.length_cons, ← onward]
      simp only [isVisible, Bool.false_and, Bool.false_eq_true, if_false, if_neg goesOn]
      rfl

/-! ## Reading lines -/

theorem Cursor.isDocumentMark_of_column
    (inside : cursor.column ≠ 0) :
    cursor.isDocumentMark = false := by
  have notStart : (cursor.column == 0) = false := beq_eq_false_iff_ne.mpr inside
  simp only [isDocumentMark, isMark, notStart, Bool.false_and, Bool.or_false]

theorem Cursor.isAhead_zero
    (cursor : Cursor) (character : Char) :
    cursor.isAhead 0 character = (cursor.rest.head? == some character) := by
  rw [isAhead, ahead?, List.head?_eq_getElem?]

/-- What a word adds to a plain scalar, and what is read behind it. -/
theorem readPlainWithin_word
    {word : List Char} (isWord : IsPlainWord word) (noComment : word.head? ≠ some '#')
    (outside : context.isFlow = false) (notMark : cursor.isDocumentMark = false)
    (isRest : cursor.rest = word ++ rest) (ends : EndsWord rest) (fuel : Nat)
    (text : List Char) (gap : Gap) :
    readPlainWithin context (fuel + 1) text gap cursor =
      if rest.head?.any isGap then
        (readGap context.contentColumn (cursor.skipMany word.length)).bind fun (after, beyond) =>
          if beyond.column < context.contentColumn then
            some ⟨text ++ gap.folded ++ word, !after.breaks.isEmpty, beyond⟩
          else readPlainWithin context fuel (text ++ gap.folded ++ word) after beyond
      else some ⟨text ++ gap.folded ++ word, false, cursor.skipMany word.length⟩ := by
  have isRead := readPlainWord_append isWord.visible isWord.notKey isRest ends rest.length []
  have enough : rest.length + word.length = cursor.rest.length := by
    rw [isRest, List.length_append, Nat.add_comm]
  rw [enough, List.nil_append] at isRead
  have notComment : cursor.isAhead 0 '#' = false := by
    rw [Cursor.isAhead_zero, isRest, List.head?_append_of_ne_nil _ isWord.filled]
    exact beq_eq_false_iff_ne.mpr noComment
  have isNext : (cursor.skipMany word.length).next? = rest.head? := by
    rw [Cursor.next?, Cursor.rest_skipMany isRest]
  rw [readPlainWithin, notMark, notComment, outside, isRead]
  simp only [Bool.or_self, Bool.false_eq_true, if_false, Option.bind_eq_bind, Option.bind_some,
    List.isEmpty_eq_false_iff.mpr isWord.filled, isNext, Bool.not_false, Bool.true_and,
    decide_eq_true_eq, Bool.not_eq_true', ← Bool.not_eq_true, ite_not]
  rfl

theorem readPlainWithin_words
    {words : List Char} {first : Char} {after : Gap} {beyond : Cursor}
    (areWords : PlainWords words) (noComment : words.head? ≠ some '#')
    (outside : context.isFlow = false) (isRest : cursor.rest = words ++ first :: rest)
    (isGapFirst : isGap first = true)
    (isRead : readGap context.contentColumn (cursor.skipMany words.length) =
      some (after, beyond))
    (isLeft : beyond.column < context.contentColumn)
    (isInside : context.contentColumn ≤ cursor.column) {fuel : Nat}
    (enough : words.length < fuel) (text : List Char) (gap : Gap) :
    readPlainWithin context fuel text gap cursor =
      some ⟨text ++ gap.folded ++ words, !after.breaks.isEmpty, beyond⟩ := by
  have notMark : cursor.isDocumentMark = false :=
    Cursor.isDocumentMark_of_column (by omega)
  induction areWords generalizing cursor fuel text gap with
  | @one word isWord =>
      obtain ⟨fuel, rfl⟩ := Nat.exists_eq_add_one_of_ne_zero (Nat.ne_zero_of_lt enough)
      rw [readPlainWithin_word isWord noComment outside notMark isRest
        (endsWord_of_isGap isGapFirst), List.head?_cons, Option.any_some, if_pos isGapFirst,
        isRead]
      exact if_pos isLeft
  | @more word blanks words isWord parted areBlanks noCommentBehind onwards
      inductionHypothesis =>
      obtain ⟨blank, others, rfl⟩ := List.exists_cons_of_ne_nil parted
      have isGapBlank : isGap blank = true :=
        isGap_of_isSpaceOrTab (areBlanks blank List.mem_cons_self)
      have noCommentHere : word.head? ≠ some '#' := by
        rw [List.head?_append_of_ne_nil _ isWord.filled] at noComment
        exact noComment
      rw [List.append_assoc, List.append_assoc] at isRest
      have isRestBlanks := Cursor.rest_skipMany isRest
      have isReadBlanks : readGap context.contentColumn _ = _ :=
        readGap_of_blanks areBlanks isRestBlanks (onwards.endsGap _)
      have isRestWords := Cursor.rest_skipMany isRestBlanks
      rw [Cursor.skipMany_skipMany] at isReadBlanks isRestWords
      have isReadWords : readGap context.contentColumn
          ((cursor.skipMany (word.length + (blank :: others).length)).skipMany words.length) =
            some (after, beyond) := by
        rw [Cursor.skipMany_skipMany, Nat.add_assoc, ← List.length_append, ← List.length_append]
        exact isRead
      simp only [List.length_append, List.length_cons] at enough
      obtain ⟨fuel, rfl⟩ := Nat.exists_eq_add_one_of_ne_zero (Nat.ne_zero_of_lt enough)
      have isColumn : (cursor.skipMany (word.length + (blank :: others).length)).column =
          cursor.column + (word.length + (blank :: others).length) := rfl
      have staysInside : ¬(cursor.skipMany (word.length + (blank :: others).length)).column <
          context.contentColumn := by
        omega
      have enoughBehind : words.length < fuel := by omega
      have isReadBehind := inductionHypothesis noCommentBehind isRestWords isReadWords
        (Nat.not_lt.mp staysInside) enoughBehind (text ++ gap.folded ++ word)
        ⟨blank :: others, []⟩ (Cursor.isDocumentMark_of_column (by omega))
      rw [readPlainWithin_word isWord noCommentHere outside notMark isRest
        (endsWord_of_isGap isGapBlank), List.cons_append, List.head?_cons, Option.any_some,
        if_pos isGapBlank, isReadBlanks, Option.bind_some]
      simp only [if_neg staysInside, isReadBehind]
      simp only [List.append_assoc]
      rfl

/-- A plain scalar on one line is read as it stands. -/
theorem readPlain_line
    {line : List Char} {first : Char} {after : Gap} {beyond : Cursor}
    (isLine : IsPlainLine line) (outside : context.isFlow = false)
    (isRest : cursor.rest = line ++ first :: rest) (isGapFirst : isGap first = true)
    (isRead : readGap context.contentColumn (cursor.skipMany line.length) =
      some (after, beyond))
    (isLeft : beyond.column < context.contentColumn)
    (isInside : context.contentColumn ≤ cursor.column) :
    readPlain context cursor = some ⟨line, !after.breaks.isEmpty, beyond⟩ := by
  have enough : line.length < cursor.rest.length + 1 := by
    rw [isRest, List.length_append]
    omega
  exact readPlainWithin_words isLine.words isLine.starts.noComment outside isRest isGapFirst
    isRead isLeft isInside enough [] ⟨[], []⟩

/-- A word is read up to the colon that makes it a key. -/
theorem readPlain_key
    {word : List Char} (isWord : IsPlainWord word) (noComment : word.head? ≠ some '#')
    (outside : context.isFlow = false) (notMark : cursor.isDocumentMark = false)
    (isRest : cursor.rest = word ++ ':' :: rest)
    (isSign : ∀ next ∈ rest.head?, isGap next = true) :
    readPlain context cursor = some ⟨word, false, cursor.skipMany word.length⟩ := by
  rw [readPlain,
    readPlainWithin_word isWord noComment outside notMark isRest (endsWord_of_colon isSign)]
  rfl

end Pipework.Yaml
