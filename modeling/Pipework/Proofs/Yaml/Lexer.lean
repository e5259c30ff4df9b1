import Pipework.Proofs.Yaml.Plain

/-!
# Reading keys and lines

The tokens of a block mapping come line by line: a key with its colon
(`Yaml.Lexer.exists_reads_key`), the plain line behind it (`Yaml.Lexer.exists_reads_line`), and at
the end the ends of the blocks that are still open (`Yaml.Lexer.exists_readAll_end`).
-/

namespace Pipework.Yaml.Lexer

/-! ## What is read -/

/-- The slots that are filled, the blocks that are open, and the key that may have started. -/
structure Progress where
  slots : List (List Token)
  indent : Int
  outer : List Int
  key? : Option KeyStart

namespace Progress

/-- Before a text. -/
def start : Progress := ⟨[], -1, [], none⟩

/-- With a token behind all others. -/
def push (progress : Progress) (token : Token) : Progress :=
  { progress with slots := [token] :: progress.slots }

theorem push_mk
    (slots : List (List Token)) (indent : Int) (outer : List Int) (key? : Option KeyStart)
    (token : Token) :
    (⟨slots, indent, outer, key?⟩ : Progress).push token =
      ⟨[token] :: slots, indent, outer, key?⟩ := rfl

/-- With the blocks inside some others ended that lie right of a column. -/
def closeWithin : List Int → Progress → Int → Progress
  | [], progress, _ => progress
  | indent :: outer, progress, column =>
      if column < progress.indent then
        closeWithin outer ({ progress with indent, outer }.push .blockEnd) column
      else progress

/-- With the blocks ended that lie right of a column. -/
def close (progress : Progress) (column : Int) : Progress :=
  closeWithin progress.outer progress column

/-- With a key that starts in a column, and a block of its own if it is the first one there. -/
def withKey (progress : Progress) (column : Nat) (key : String) : Progress :=
  if progress.indent < column then
    { slots := [.value] :: [.scalar true key] :: [.blockMappingStart, .key] :: progress.slots,
      indent := column, outer := progress.indent :: progress.outer, key? := none }
  else
    { progress with
      slots := [.value] :: [.scalar true key] :: [.key] :: progress.slots, key? := none }

@[simp] theorem key?_closeWithin
    (outer : List Int) (progress : Progress) (column : Int) :
    (closeWithin outer progress column).key? = progress.key? := by
  induction outer generalizing progress with
  | nil => rfl
  | cons indent outer inductionHypothesis =>
      rw [closeWithin]
      split
      · exact inductionHypothesis _
      · rfl

theorem close_of_le
    {progress : Progress} {column : Int} (isRight : progress.indent ≤ column) :
    progress.close column = progress := by
  rw [close]
  cases progress.outer with
  | nil => rfl
  | cons indent outer => exact if_neg (Int.not_lt.mpr isRight)

theorem indent_withKey
    {progress : Progress} {column : Nat} (isRight : progress.indent ≤ column) (key : String) :
    (progress.withKey column key).indent = column := by
  rw [withKey]
  split
  · rfl
  · rename_i notLeft
    exact Int.le_antisymm isRight (Int.not_lt.mp notLeft)

theorem key?_withKey
    (progress : Progress) (column : Nat) (key : String) :
    (progress.withKey column key).key? = none := by
  rw [withKey]
  split <;> rfl

/-- Right of the innermost block a key starts a block. -/
theorem withKey_close_of_lt
    {slots : List (List Token)} {indent : Int} {outer : List Int} {column : Nat}
    (isRight : indent < column) (key : String) :
    ((⟨slots, indent, outer, none⟩ : Progress).close column).withKey column key =
      ⟨[.value] :: [.scalar true key] :: [.blockMappingStart, .key] :: slots, column,
        indent :: outer, none⟩ := by
  rw [close_of_le (Int.le_of_lt isRight), withKey, if_pos isRight]

/-- In the column of the innermost block a key belongs to it. -/
theorem withKey_close_self
    (slots : List (List Token)) (outer : List Int) (column : Nat) (key : String) :
    ((⟨slots, column, outer, none⟩ : Progress).close column).withKey column key =
      ⟨[.value] :: [.scalar true key] :: [.key] :: slots, column, outer, none⟩ := by
  rw [close_of_le (Int.le_refl _), withKey, if_neg (Int.lt_irrefl _)]

/-- In the column of the block around it a key ends the innermost block. -/
theorem withKey_close_of_gt
    (slots : List (List Token)) {indent : Int} (outer : List Int) {column : Nat}
    (isLeft : column < indent) (key : String) :
    ((⟨slots, indent, column :: outer, none⟩ : Progress).close column).withKey column key =
      ⟨[.value] :: [.scalar true key] :: [.key] :: [.blockEnd] :: slots, column, outer,
        none⟩ := by
  rw [close, closeWithin, if_pos isLeft]
  exact withKey_close_self ([.blockEnd] :: slots) outer column key

end Progress

/-- A lexer outside brackets, and the text behind it. -/
structure Stands (lexer : Lexer) (progress : Progress) (keyAllowed : Bool) (rest : List Char)
    (column : Nat) : Prop where
  isRest : lexer.cursor.rest = rest
  isColumn : lexer.cursor.column = column
  isSlots : lexer.slots = progress.slots
  isIndent : lexer.indent = progress.indent
  isOuter : lexer.outer = progress.outer
  isKey : lexer.keyStart? = progress.key?
  isKeyAllowed : lexer.keyAllowed = keyAllowed
  noBrackets : lexer.outerKeys = []

/-- Whether a lexer reads so many tokens and then is like another one. -/
def Reads (count : Nat) (lexer next : Lexer) : Prop :=
  ∀ fuel, readAll (fuel + count) lexer = readAll fuel next

theorem Reads.trans
    {first second : Nat} {lexer middle next : Lexer} (toMiddle : Reads first lexer middle)
    (toNext : Reads second middle next) :
    Reads (second + first) lexer next := fun fuel => by
  rw [← Nat.add_assoc, toMiddle, toNext]

/-! ## Texts -/

/-- A line and the spaces in front of the next one. -/
def lineText (line : List Char) (count : Nat) (rest : List Char) : List Char :=
  line ++ '\n' :: (List.replicate count ' ' ++ rest)

/-- A key and its line, lines without anything, and the spaces in front of the next one. -/
def entryText (key : String) (line : List Char) (lines count : Nat) (rest : List Char) :
    List Char :=
  key.toList ++ ':' :: (List.replicate 1 ' ' ++ (line ++ '\n' ::
    (List.replicate lines '\n' ++ (List.replicate count ' ' ++ rest))))

/-- A key with nothing on its line, and the spaces in front of the next line. -/
def headingText (key : String) (count : Nat) (rest : List Char) : List Char :=
  key.toList ++ ':' :: lineText [] count rest

/-- Whether a token starts a text. -/
def StartsToken (rest : List Char) : Prop :=
  ∀ character ∈ rest.head?, isGap character = false ∧ character ≠ '#'

theorem startsToken_line
    {line : List Char} (isLine : IsPlainLine line) (rest : List Char) :
    StartsToken (line ++ rest) := by
  obtain ⟨first, others, rfl, isVisible⟩ := isLine.words.exists_visible
  intro character isFirst
  obtain rfl := Option.some.inj isFirst
  exact ⟨isVisible, fun isSign => isLine.starts.noComment (congrArg some isSign)⟩

theorem StartsToken.endsGap
    {rest : List Char} (startsToken : StartsToken rest) :
    EndsGap rest := fun character isFirst => (startsToken character isFirst).1

theorem endsGap_lineText
    {line : List Char} (isComment : line.head? = some '#') (count : Nat) (rest : List Char) :
    EndsGap (lineText line count rest) := by
  obtain ⟨others, rfl⟩ := List.head?_eq_some_iff.mp isComment
  intro character isFirst
  obtain rfl := Option.some.inj isFirst
  decide

/-- Whether a text has no byte order mark. -/
def NoMark (rest : List Char) : Prop := rest.head? ≠ some (Char.ofNat 0xFEFF)

theorem NoMark.behind_spaces
    {rest : List Char} (noMark : NoMark rest) (count : Nat) :
    NoMark (List.replicate count ' ' ++ rest) := by
  cases count with
  | zero => exact noMark
  | succ count => exact fun isMark => nomatch isMark

/-- Whether nothing but a comment stands on a line. -/
def IsBlankLine (line : List Char) : Prop :=
  line.head?.all (· = '#') = true ∧ line.any isBreak = false

instance (line : List Char) : Decidable (IsBlankLine line) :=
  inferInstanceAs (Decidable (_ ∧ _))

namespace Stands

theorem start
    (text : List Char) :
    (Lexer.start text).Stands Progress.start true text 0 :=
  ⟨rfl, rfl, rfl, rfl, rfl, rfl, rfl, rfl⟩

variable {lexer : Lexer} {progress : Progress} {keyAllowed : Bool} {rest : List Char}
  {column : Nat}

theorem isFlow_eq_false
    (stands : lexer.Stands progress keyAllowed rest column) :
    lexer.isFlow = false := by
  rw [isFlow, flowLevel, stands.noBrackets]
  rfl

theorem refreshKeys_eq_some
    (stands : lexer.Stands progress keyAllowed rest column)
    (isFresh : ∀ key ∈ progress.key?, lexer.isStale key = false) :
    lexer.refreshKeys = some lexer := by
  have staysKey : lexer.refreshKey lexer.keyStart? = some lexer.keyStart? := by
    rw [stands.isKey]
    cases isKey : progress.key? with
    | none => rfl
    | some key => exact if_neg (Bool.not_eq_true _ ▸ isFresh key isKey)
  have staysOuter : lexer.outerKeys.mapM lexer.refreshKey = some lexer.outerKeys := by
    rw [stands.noBrackets]
    rfl
  rw [refreshKeys, staysKey, staysOuter]
  rfl

theorem dropKey_eq_some
    (stands : lexer.Stands progress keyAllowed rest column) (noKey : progress.key? = none) :
    lexer.dropKey = some lexer := by
  rw [dropKey, stands.isKey, noKey]

theorem closeBlocksWithin
    {fuel : Nat} (stands : lexer.Stands progress keyAllowed rest column) (place : Int)
    {outer : List Int} (isOuter : progress.outer = outer) (enough : outer.length < fuel) :
    (closeBlocksWithin fuel lexer place).Stands (progress.closeWithin outer place) keyAllowed
      rest column := by
  induction outer generalizing lexer progress fuel with
  | nil =>
      obtain ⟨fuel, rfl⟩ := Nat.exists_eq_add_one_of_ne_zero (Nat.ne_zero_of_lt enough)
      rw [Lexer.closeBlocksWithin, stands.isOuter, isOuter]
      split <;> exact stands
  | cons indent outer inductionHypothesis =>
      obtain ⟨fuel, rfl⟩ := Nat.exists_eq_add_one_of_ne_zero (Nat.ne_zero_of_lt enough)
      rw [Lexer.closeBlocksWithin, stands.isOuter, isOuter, stands.isFlow_eq_false,
        stands.isIndent, Bool.not_false, Bool.true_and, Progress.closeWithin]
      by_cases isLeft : place < progress.indent
      · rw [if_pos isLeft, if_pos (decide_eq_true isLeft)]
        refine inductionHypothesis ?_ rfl (Nat.lt_of_succ_lt_succ enough)
        exact ⟨stands.isRest, stands.isColumn, congrArg (List.cons _) stands.isSlots, rfl, rfl,
          stands.isKey, stands.isKeyAllowed, stands.noBrackets⟩
      · rw [if_neg isLeft, if_neg (by simpa using isLeft)]
        exact stands

theorem closeBlocks
    (stands : lexer.Stands progress keyAllowed rest column) (place : Int) :
    (lexer.closeBlocks place).Stands (progress.close place) keyAllowed rest column :=
  stands.closeBlocksWithin place rfl (stands.isOuter ▸ Nat.lt_succ_self _)

theorem closeBlocks_of_le
    (stands : lexer.Stands progress keyAllowed rest column) {place : Int}
    (isRight : progress.indent ≤ place) :
    (lexer.closeBlocks place).Stands progress keyAllowed rest column := by
  have closes := stands.closeBlocks place
  rw [Progress.close_of_le isRight] at closes
  exact closes

/-! ## Blanks -/

theorem skipBlanks_eq_skipMany
    {count : Nat}
    (stands : lexer.Stands progress keyAllowed (List.replicate count ' ' ++ rest) column)
    (noMark : NoMark (List.replicate count ' ' ++ rest)) (startsToken : StartsToken rest)
    (fuel : Nat) :
    skipBlanks (fuel + 1) lexer = { lexer with cursor := lexer.cursor.skipMany count } := by
  have notMark : lexer.cursor.isAhead 0 (Char.ofNat 0xFEFF) = false := by
    rw [Cursor.isAhead_zero, stands.isRest, beq_eq_false_iff_ne]
    exact noMark
  have isBehind : (lexer.cursor.skipMany count).rest = rest := by
    rw [Cursor.skipMany, stands.isRest, List.drop_left' List.length_replicate]
  have isSkipped :
      (lexer.cursor.skipWhile fun character =>
          character = ' ' || ((lexer.isFlow || !lexer.keyAllowed) && character = '\t')) =
        lexer.cursor.skipMany count := by
    rw [Cursor.skipWhile_eq_skipMany stands.isRest, List.length_replicate]
    · intro character member
      rw [List.eq_of_mem_replicate member]
      rfl
    · intro character isFirst
      obtain ⟨notBlank, -⟩ := isGap_eq_false_iff.mp (startsToken character isFirst).1
      rw [isSpaceOrTab, Bool.or_eq_false_iff] at notBlank
      rw [notBlank.1, notBlank.2, Bool.and_false, Bool.or_false]
  have noComment : (lexer.cursor.skipMany count).isAhead 0 '#' = false := by
    rw [Cursor.isAhead_zero, isBehind, beq_eq_false_iff_ne]
    exact fun isComment => (startsToken _ isComment).2 rfl
  have noBreak : (lexer.cursor.skipMany count).next?.any isBreak = false := by
    rw [Cursor.next?, isBehind, Option.any_eq_false]
    exact fun character isFirst => (isGap_eq_false_iff.mp (startsToken character isFirst).1).2
  rw [skipBlanks, notMark, Bool.and_false, if_neg Bool.false_ne_true, isSkipped, noComment,
    if_neg Bool.false_ne_true, noBreak, if_neg Bool.false_ne_true]

theorem skipBlanks_eq_self
    (stands : lexer.Stands progress keyAllowed rest column) (noMark : NoMark rest)
    (startsToken : StartsToken rest) (fuel : Nat) :
    skipBlanks (fuel + 1) lexer = lexer := by
  have behindNone : lexer.Stands progress keyAllowed (List.replicate 0 ' ' ++ rest) column :=
    stands
  rw [behindNone.skipBlanks_eq_skipMany noMark startsToken, Cursor.skipMany_zero]

theorem ready
    (stands : lexer.Stands progress keyAllowed rest column) (noMark : NoMark rest)
    (startsToken : StartsToken rest) :
    (skipBlanks (lexer.cursor.rest.length + 1) lexer).Stands progress keyAllowed rest
      column := by
  rw [stands.skipBlanks_eq_self noMark startsToken]
  exact stands

/-- Where a token starts behind spaces. -/
theorem skipBlanks_spaces
    {count : Nat}
    (stands : lexer.Stands progress keyAllowed (List.replicate count ' ' ++ rest) column)
    (noMark : NoMark (List.replicate count ' ' ++ rest)) (startsToken : StartsToken rest)
    (fuel : Nat) :
    (skipBlanks (fuel + 1) lexer).Stands progress keyAllowed rest (column + count) := by
  have isBehind : (lexer.cursor.skipMany count).rest = rest := by
    rw [Cursor.skipMany, stands.isRest, List.drop_left' List.length_replicate]
  rw [stands.skipBlanks_eq_skipMany noMark startsToken]
  exact ⟨isBehind, congrArg (· + count) stands.isColumn, stands.isSlots, stands.isIndent,
    stands.isOuter, stands.isKey, stands.isKeyAllowed, stands.noBrackets⟩

/-- Behind a line without a token. -/
theorem skipBlanks_line
    {line : List Char}
    (stands : lexer.Stands progress keyAllowed (line ++ '\n' :: rest) column)
    (isBlankLine : IsBlankLine line) (fuel : Nat) :
    ∃ next, skipBlanks (fuel + 1) lexer = skipBlanks fuel next ∧
      next.Stands progress true rest 0 := by
  obtain ⟨startsComment, noBreaks⟩ := isBlankLine
  have startsLine : ∀ character ∈ (line ++ '\n' :: rest).head?,
      character = '#' ∨ character = '\n' := by
    intro character isFirst
    cases line with
    | nil => exact Or.inr (Option.some.inj isFirst).symm
    | cons first others =>
        obtain rfl := Option.some.inj isFirst
        exact Or.inl (of_decide_eq_true startsComment)
  have notMark : lexer.cursor.isAhead 0 (Char.ofNat 0xFEFF) = false := by
    rw [Cursor.isAhead_zero, stands.isRest, beq_eq_false_iff_ne]
    exact fun isMark => by rcases startsLine _ isMark with isSign | isSign <;> exact nomatch isSign
  have isSkipped :
      (lexer.cursor.skipWhile fun character =>
          character = ' ' || ((lexer.isFlow || !lexer.keyAllowed) && character = '\t')) =
        lexer.cursor := by
    have isRest : lexer.cursor.rest = [] ++ (line ++ '\n' :: rest) := stands.isRest
    refine Cursor.skipWhile_eq_skipMany isRest nofun ?_
    intro character isFirst
    rcases startsLine character isFirst with rfl | rfl <;> exact Bool.and_false _
  have isLine : (if lexer.cursor.isAhead 0 '#' then lexer.cursor.skipLine else lexer.cursor) =
      lexer.cursor.skipMany line.length := by
    rw [Cursor.isAhead_zero, stands.isRest]
    cases line with
    | nil => rfl
    | cons first others =>
        obtain rfl : first = '#' := of_decide_eq_true startsComment
        refine Cursor.skipWhile_eq_skipMany stands.isRest ?_ ?_
        · exact fun character member => congrArg not (Bool.eq_false_iff.mpr
          (List.any_eq_false.mp noBreaks character member))
        · intro character isFirst
          obtain rfl := Option.some.inj isFirst
          rfl
  have isBehind := Cursor.rest_skipMany stands.isRest
  rw [skipBlanks, notMark, Bool.and_false, if_neg Bool.false_ne_true, isSkipped, isLine,
    Cursor.next?_of_rest isBehind]
  refine ⟨_, rfl, ?_⟩
  rw [Cursor.skipBreak_of_newline isBehind]
  exact ⟨rfl, rfl, stands.isSlots, stands.isIndent, stands.isOuter, stands.isKey,
    by rw [stands.isFlow_eq_false, Bool.not_false, Bool.or_true], stands.noBrackets⟩

/-- Where a token starts on the next line. -/
theorem skipBlanks_next
    {line : List Char} {count : Nat}
    (stands : lexer.Stands progress keyAllowed (lineText line count rest) column)
    (isBlankLine : IsBlankLine line) (noMark : NoMark rest) (startsToken : StartsToken rest) :
    (skipBlanks (lexer.cursor.rest.length + 1) lexer).Stands progress true rest count := by
  have isFuel : lexer.cursor.rest.length =
      line.length + (List.replicate count ' ' ++ rest).length + 1 := by
    rw [stands.isRest, lineText, List.length_append, List.length_cons]
    rfl
  obtain ⟨next, isNext, standsNext⟩ := stands.skipBlanks_line isBlankLine _
  rw [isNext, isFuel]
  exact Nat.zero_add count ▸ standsNext.skipBlanks_spaces (noMark.behind_spaces count) startsToken _

end Stands

/-! ## Plain tokens -/

theorem readToken_eq_readPlainScalar
    {lexer : Lexer} {first : Char} {others rest : List Char}
    (isRest : lexer.cursor.rest = first :: others ++ rest) (isVisible : isGap first = false)
    (starts : StartsPlain (first :: others)) (outside : lexer.isFlow = false)
    (notMark : lexer.cursor.isDocumentMark = false) :
    lexer.readToken first = lexer.readPlainScalar := by
  rw [Cursor.isDocumentMark, Bool.or_eq_false_iff] at notMark
  rcases starts with notIndicator | ⟨isMark, second, isSecond, isVisibleSecond⟩
  · have differs : ∀ sign ∈ indicators, first ≠ sign := fun sign member isSign =>
      notIndicator (isSign ▸ member)
    have startsHere : lexer.startsPlain first = true := by
      rw [startsPlain, isVisible, Bool.eq_false_iff.mpr (mt List.contains_iff_mem.mp notIndicator)]
      rfl
    simp only [readToken, notMark.1, notMark.2, startsHere, differs '%' (by decide),
      differs '[' (by decide), differs '\x7b' (by decide), differs ']' (by decide),
      differs '\x7d' (by decide), differs ',' (by decide), differs '-' (by decide),
      differs '?' (by decide), differs ':' (by decide), differs '*' (by decide),
      differs '&' (by decide), differs '!' (by decide), differs '|' (by decide),
      differs '>' (by decide), differs '\'' (by decide), differs '"' (by decide),
      decide_false, Bool.false_and, Bool.and_false, Bool.false_eq_true, if_false, if_true]
  · obtain ⟨others, rfl⟩ := List.head?_eq_some_iff.mp isSecond
    have isAhead : lexer.cursor.ahead? 1 = some second := by
      rw [Cursor.ahead?, isRest]
      rfl
    have noGap : lexer.cursor.isGapAhead 1 = false := by
      rw [Cursor.isGapAhead, isAhead]
      exact isVisibleSecond
    have noSign : lexer.isSign = false := by
      rw [isSign, outside, noGap]
      rfl
    have startsHere : lexer.startsPlain first = true := by
      rw [startsPlain, outside, isAhead, noGap, Option.any_some,
        (isGap_eq_false_iff.mp isVisibleSecond).1]
      simp only [List.mem_cons, List.not_mem_nil, or_false] at isMark
      rcases isMark with rfl | rfl | rfl <;> rfl
    simp only [List.mem_cons, List.not_mem_nil, or_false] at isMark
    rcases isMark with rfl | rfl | rfl <;>
      simp [readToken, notMark.1, notMark.2, noGap, noSign, startsHere]

/-- A key that is written as it stands: a word that starts with a letter. -/
structure IsKey (key : String) : Prop where
  isWord : IsPlainWord key.toList
  startsAlpha : key.toList.head?.any Char.isAlpha = true
  isShort : key.toList.length ≤ longestKey

instance (key : String) : Decidable (IsKey key) :=
  decidable_of_iff
    (IsPlainWord key.toList ∧ key.toList.head?.any Char.isAlpha = true ∧
      key.toList.length ≤ longestKey)
    ⟨fun ⟨isWord, startsAlpha, isShort⟩ => ⟨isWord, startsAlpha, isShort⟩,
      fun isKey => ⟨isKey.isWord, isKey.startsAlpha, isKey.isShort⟩⟩

namespace IsKey

variable {key : String}

theorem exists_letter
    (isKey : IsKey key) :
    ∃ letter others, key.toList = letter :: others ∧ letter.isAlpha = true := by
  obtain ⟨letter, isFirst, isAlpha⟩ := (Option.any_eq_true _ _).mp isKey.startsAlpha
  obtain ⟨others, isList⟩ := List.head?_eq_some_iff.mp isFirst
  exact ⟨letter, others, isList, isAlpha⟩

theorem notIndicator
    {letter : Char} (isAlpha : letter.isAlpha = true) :
    letter ∉ indicators := by
  have noneAlpha : indicators.any Char.isAlpha = false := by decide
  exact fun member => List.any_eq_false.mp noneAlpha letter member isAlpha

theorem noComment
    (isKey : IsKey key) :
    key.toList.head? ≠ some '#' := by
  obtain ⟨letter, others, isList, isAlpha⟩ := isKey.exists_letter
  rw [isList]
  rintro ⟨⟩
  exact absurd isAlpha (by decide)

theorem notMark
    (isKey : IsKey key) {cursor : Cursor} {rest : List Char}
    (isRest : cursor.rest = key.toList ++ rest) :
    cursor.isDocumentMark = false := by
  obtain ⟨letter, others, isList, isAlpha⟩ := isKey.exists_letter
  have differs : ∀ sign : Char, sign.isAlpha = false → cursor.isAhead 0 sign = false := by
    intro sign notAlpha
    rw [Cursor.isAhead_zero, isRest, isList, beq_eq_false_iff_ne]
    rintro ⟨⟩
    exact Bool.false_ne_true (notAlpha.symm.trans isAlpha)
  rw [Cursor.isDocumentMark, Cursor.isMark, Cursor.isMark, differs '-' (by decide),
    differs '.' (by decide)]
  simp only [Bool.and_false, Bool.false_and, Bool.or_false]

theorem startsToken
    (isKey : IsKey key) (rest : List Char) :
    StartsToken (key.toList ++ rest) := by
  obtain ⟨letter, others, isList, isAlpha⟩ := isKey.exists_letter
  rw [isList]
  intro character isFirst
  obtain rfl := Option.some.inj isFirst
  refine ⟨isKey.isWord.visible letter (isList ▸ List.mem_cons_self), ?_⟩
  rintro rfl
  exact absurd isAlpha (by decide)

theorem noMark
    (isKey : IsKey key) (rest : List Char) :
    NoMark (key.toList ++ rest) := by
  obtain ⟨letter, others, isList, isAlpha⟩ := isKey.exists_letter
  rw [isList]
  rintro ⟨⟩
  exact absurd isAlpha (by decide)

end IsKey

/-! ## Keys -/

namespace Stands

variable {lexer : Lexer} {progress : Progress} {keyAllowed : Bool} {rest : List Char}
  {column : Nat}

/-- What is read where a token starts. -/
theorem readAll_eq
    {first : Char}
    (isReady : (skipBlanks (lexer.cursor.rest.length + 1) lexer).Stands progress keyAllowed
      (first :: rest) column)
    (isFresh : ∀ key ∈ progress.key?,
      (skipBlanks (lexer.cursor.rest.length + 1) lexer).isStale key = false) (fuel : Nat) :
    readAll (fuel + 1) lexer =
      (((skipBlanks (lexer.cursor.rest.length + 1) lexer).closeBlocks column).readToken first
        ).bind (readAll fuel) := by
  rw [readAll, isReady.refreshKeys_eq_some isFresh]
  simp only [Option.bind_eq_bind, Option.bind_some, isReady.isColumn,
    Cursor.next?_of_rest (isReady.closeBlocks column).isRest]

theorem readPlainScalar_eq_some
    {noted : Lexer} {plain : PlainScalar} (isNoted : lexer.noteKey = some noted)
    (isRead : readPlain noted.context noted.cursor = some plain) :
    lexer.readPlainScalar = some { noted.push (.scalar true (String.ofList plain.text)) with
      cursor := plain.cursor, keyAllowed := plain.endsLine } := by
  rw [readPlainScalar, isNoted]
  simp only [Option.bind_eq_bind, Option.bind_some, isRead]
  rfl

theorem noteKey
    (stands : lexer.Stands progress true rest column) (noKey : progress.key? = none) :
    lexer.noteKey = some { lexer with
      slots := [] :: lexer.slots,
      keyStart? := some
        { slot := lexer.slots.length, line := lexer.cursor.line, column := lexer.cursor.column,
          offset := lexer.cursor.offset,
          isRequired := !lexer.isFlow && lexer.indent = lexer.cursor.column } } := by
  rw [Lexer.noteKey, if_pos stands.isKeyAllowed, stands.dropKey_eq_some noKey]
  rfl

theorem noteKey_eq_self
    (stands : lexer.Stands progress false rest column) :
    lexer.noteKey = some lexer := by
  rw [Lexer.noteKey, stands.isKeyAllowed]
  rfl

/-- A word that may be a key. -/
theorem readPlainScalar_key
    {key : String} (isKey : IsKey key)
    (stands : lexer.Stands progress true (key.toList ++ ':' :: rest) column)
    (noKey : progress.key? = none) (isSign : ∀ next ∈ rest.head?, isGap next = true) :
    ∃ next start, lexer.readPlainScalar = some next ∧
      next.Stands { progress with
          slots := [.scalar true key] :: [] :: progress.slots, key? := some start }
        false (':' :: rest) (column + key.toList.length) ∧
      start.slot = progress.slots.length ∧ start.column = column ∧
      next.isStale start = false := by
  have outside : (⟨lexer.flowLevel, lexer.indent⟩ : Context).isFlow = false :=
    stands.isFlow_eq_false
  have isRead := readPlain_key isKey.isWord isKey.noComment outside (isKey.notMark stands.isRest)
    stands.isRest isSign
  rw [readPlainScalar_eq_some (stands.noteKey noKey) isRead]
  refine ⟨_, _, rfl, ⟨?_, ?_, ?_, stands.isIndent, stands.isOuter, rfl, rfl, stands.noBrackets⟩,
    congrArg List.length stands.isSlots, stands.isColumn, ?_⟩
  · exact Cursor.rest_skipMany stands.isRest
  · exact congrArg (· + key.toList.length) stands.isColumn
  · exact congrArg₂ (fun text slots => [Token.scalar true text] :: [] :: slots)
      String.ofList_toList stands.isSlots
  · exact Bool.or_eq_false_iff.mpr ⟨decide_eq_false (Nat.lt_irrefl _),
      decide_eq_false (Nat.not_lt.mpr (Nat.add_le_add_left isKey.isShort _))⟩

theorem readValueMark_key
    {key : String} {start : KeyStart}
    (stands : lexer.Stands { progress with
        slots := [.scalar true key] :: [] :: progress.slots, key? := some start }
      keyAllowed (':' :: rest) column)
    (isSlot : start.slot = progress.slots.length) :
    ∃ next, lexer.readValueMark = some next ∧
      next.Stands (progress.withKey start.column key) false rest (column + 1) := by
  have isFilled (tokens : List Token) : (lexer.fill start.slot tokens).slots =
      [.scalar true key] :: tokens :: progress.slots := by
    have isIndex : lexer.slots.length - 1 - start.slot = 1 := by
      rw [stands.isSlots, isSlot]
      simp only [List.length_cons]
      omega
    rw [fill, isIndex, stands.isSlots]
    rfl
  have isOpening : lexer.opensBlock start.column = decide (progress.indent < start.column) := by
    rw [opensBlock, stands.isFlow_eq_false, stands.isIndent]
    rfl
  have isBehind : (lexer.cursor.skipMany 1).rest = rest := by
    rw [Cursor.skipMany, stands.isRest, List.drop_one, List.tail_cons]
  rw [readValueMark, stands.isKey]
  refine ⟨_, rfl, ?_⟩
  rw [isOpening, Progress.withKey]
  by_cases opens : progress.indent < start.column
  · rw [if_pos opens, decide_eq_true opens, if_pos rfl, if_pos rfl]
    exact ⟨isBehind, congrArg (· + 1) stands.isColumn,
      congrArg (List.cons _) (isFilled _), rfl,
      congrArg₂ List.cons stands.isIndent stands.isOuter, rfl, rfl, stands.noBrackets⟩
  · rw [if_neg opens, decide_eq_false opens, if_neg Bool.false_ne_true,
      if_neg Bool.false_ne_true]
    exact ⟨isBehind, congrArg (· + 1) stands.isColumn,
      congrArg (List.cons _) (isFilled _), stands.isIndent, stands.isOuter, rfl, rfl,
      stands.noBrackets⟩

end Stands

theorem readToken_colon
    {lexer : Lexer} {rest : List Char} (isRest : lexer.cursor.rest = ':' :: rest)
    (isSign : ∀ next ∈ rest.head?, isGap next = true) :
    lexer.readToken ':' = lexer.readValueMark := by
  have notMark (sign : Char) (differs : ':' ≠ sign) : lexer.cursor.isMark sign = false := by
    rw [Cursor.isMark, Cursor.isAhead_zero, isRest, List.head?_cons,
      beq_eq_false_iff_ne.mpr (mt Option.some.inj differs)]
    simp only [Bool.and_false, Bool.false_and]
  have isSignHere : lexer.isSign = true := by
    rw [Lexer.isSign, Cursor.isGapAhead_one isRest, (Option.all_eq_true _ _).mpr isSign, Bool.or_true]
  simp [readToken, notMark '-' (by decide), notMark '.' (by decide), isSignHere]

/-- A key and its colon. -/
theorem exists_reads_key
    {lexer : Lexer} {progress : Progress} {key : String} {rest : List Char} {column : Nat}
    (isKey : IsKey key)
    (isReady : (skipBlanks (lexer.cursor.rest.length + 1) lexer).Stands progress true
      (key.toList ++ ':' :: rest) column)
    (noKey : progress.key? = none) (isSign : ∀ next ∈ rest.head?, isGap next = true)
    (isRight : (progress.close column).indent ≤ column) :
    ∃ next, Reads 2 lexer next ∧
      next.Stands ((progress.close column).withKey column key) false rest
        (column + key.toList.length + 1) := by
  obtain ⟨letter, others, isList, isAlpha⟩ := isKey.exists_letter
  have stands := isReady.closeBlocks column
  have starts : StartsPlain (letter :: others) := Or.inl (IsKey.notIndicator isAlpha)
  have isToken := readToken_eq_readPlainScalar (isList ▸ stands.isRest)
    (isKey.isWord.visible letter (isList ▸ List.mem_cons_self)) starts stands.isFlow_eq_false
    (isKey.notMark stands.isRest)
  obtain ⟨read, start, isRead, standsRead, isSlot, isColumn, isFresh⟩ :=
    stands.readPlainScalar_key isKey ((Progress.key?_closeWithin _ _ _).trans noKey) isSign
  have startsColon : StartsToken (':' :: rest) := by
    intro character isFirst
    obtain rfl := Option.some.inj isFirst
    decide
  have noMark : NoMark (':' :: rest) := fun isMark => nomatch isMark
  have isSame := standsRead.skipBlanks_eq_self noMark startsColon read.cursor.rest.length
  have staysRight : (progress.close column).indent ≤ (column + key.toList.length : Nat) := by
    omega
  have standsColon := standsRead.closeBlocks_of_le staysRight
  obtain ⟨next, isNext, standsNext⟩ := standsColon.readValueMark_key isSlot
  refine ⟨next, fun fuel => ?_, isColumn ▸ standsNext⟩
  have isReadyColon : (skipBlanks (read.cursor.rest.length + 1) read).Stands _ false
      (':' :: rest) _ := isSame.symm ▸ standsRead
  have isFreshColon : ∀ key ∈ some start,
      (skipBlanks (read.cursor.rest.length + 1) read).isStale key = false := by
    rintro _ ⟨⟩
    exact isSame.symm ▸ isFresh
  rw [isList] at isReady
  rw [isReady.readAll_eq (fun key isKey => nomatch noKey.symm.trans isKey), isToken, isRead,
    Option.bind_some, isReadyColon.readAll_eq isFreshColon, isSame,
    readToken_colon standsColon.isRest isSign, isNext, Option.bind_some]

/-! ## Lines -/

/-- A plain line, behind which lines without anything may stand. -/
theorem exists_reads_line
    {lexer : Lexer} {progress : Progress} {line rest : List Char} {column lines count : Nat}
    (isLine : IsPlainLine line)
    (isReady : (skipBlanks (lexer.cursor.rest.length + 1) lexer).Stands progress false
      (line ++ '\n' :: (List.replicate lines '\n' ++ (List.replicate count ' ' ++ rest)))
      column)
    (noKey : progress.key? = none) (ends : EndsGap rest) (isRight : progress.indent < column)
    (isLeft : count ≤ progress.indent) :
    ∃ next, Reads 1 lexer next ∧
      next.Stands (progress.push (.scalar true (String.ofList line))) true rest count := by
  obtain ⟨first, others, rfl, isVisible⟩ := isLine.words.exists_visible
  have stands := isReady.closeBlocks_of_le (Int.le_of_lt isRight)
  generalize isLexer :
    (skipBlanks (lexer.cursor.rest.length + 1) lexer).closeBlocks column = ready at stands
  have isColumn := stands.isColumn
  have isIndent := stands.isIndent
  have isToken := readToken_eq_readPlainScalar stands.isRest isVisible isLine.starts
    stands.isFlow_eq_false (Cursor.isDocumentMark_of_column (by omega))
  obtain ⟨after, beyond, isReadGap, hasBreaks, isBeyond, isCount⟩ :=
    exists_readGap_of_lines ready.context.contentColumn (Cursor.rest_skipMany stands.isRest) ends
  have isRead : readPlain ready.context ready.cursor = _ :=
    readPlain_line isLine stands.isFlow_eq_false stands.isRest (by decide) isReadGap
      (by simp only [Context.contentColumn, context]; omega)
      (by simp only [Context.contentColumn, context]; omega)
  rw [List.isEmpty_eq_false_iff.mpr hasBreaks] at isRead
  have isScalar := Stands.readPlainScalar_eq_some stands.noteKey_eq_self isRead
  refine ⟨{ ready.push (.scalar true (String.ofList (first :: others))) with
    cursor := beyond, keyAllowed := true }, fun fuel => ?_, ?_⟩
  · rw [isReady.readAll_eq (fun key isKey => nomatch noKey.symm.trans isKey), isLexer, isToken,
      isScalar]
    rfl
  · exact ⟨isBeyond, isCount, congrArg (List.cons _) stands.isSlots, stands.isIndent,
      stands.isOuter, stands.isKey, rfl, stands.noBrackets⟩

/-- A key with nothing on its line. -/
theorem exists_reads_heading
    {lexer : Lexer} {progress : Progress} {key : String} {rest : List Char}
    {column count : Nat} (isKey : IsKey key)
    (isReady : (skipBlanks (lexer.cursor.rest.length + 1) lexer).Stands progress true
      (headingText key count rest) column)
    (noKey : progress.key? = none) (isRight : (progress.close column).indent ≤ column) :
    ∃ next behind, Reads 2 lexer next ∧
      next.Stands ((progress.close column).withKey column key) false (lineText [] count rest)
        behind := by
  obtain ⟨next, toNext, standsNext⟩ :=
    exists_reads_key isKey isReady noKey (fun _ isNext => Option.some.inj isNext ▸ rfl) isRight
  exact ⟨next, _, toNext, standsNext⟩

/-- A key and the plain line behind it. -/
theorem exists_reads_entry
    {lexer : Lexer} {progress : Progress} {key : String} {line rest : List Char}
    {column lines count : Nat} (isKey : IsKey key) (isLine : IsPlainLine line)
    (isReady : (skipBlanks (lexer.cursor.rest.length + 1) lexer).Stands progress true
      (entryText key line lines count rest) column)
    (noKey : progress.key? = none) (ends : EndsGap rest)
    (isRight : (progress.close column).indent ≤ column) (isLeft : count ≤ column) :
    ∃ next, Reads 3 lexer next ∧
      next.Stands (((progress.close column).withKey column key).push
        (.scalar true (String.ofList line))) true rest count := by
  obtain ⟨middle, toMiddle, standsMiddle⟩ :=
    exists_reads_key isKey isReady noKey (fun _ isNext => Option.some.inj isNext ▸ rfl) isRight
  have isReadyLine := standsMiddle.skipBlanks_spaces (fun isMark => nomatch isMark)
    (startsToken_line isLine _) middle.cursor.rest.length
  have isIndent := Progress.indent_withKey isRight key
  obtain ⟨next, toNext, standsNext⟩ :=
    exists_reads_line isLine isReadyLine (Progress.key?_withKey _ _ _) ends (by omega) (by omega)
  exact ⟨next, toMiddle.trans toNext, standsNext⟩

/-- At the end of a text the blocks end that are still open. -/
theorem exists_readAll_end
    {lexer : Lexer} {progress : Progress} {keyAllowed : Bool} {column : Nat}
    (isReady : (skipBlanks (lexer.cursor.rest.length + 1) lexer).Stands progress keyAllowed []
      column)
    (noKey : progress.key? = none) (fuel : Nat) :
    ∃ last, readAll (fuel + 1) lexer = some last ∧
      last.slots = ((progress.close column).close (-1)).slots := by
  have stands := isReady.closeBlocks column
  have ends := stands.closeBlocks (-1)
  have isFresh : ∀ key ∈ progress.key?,
      (skipBlanks (lexer.cursor.rest.length + 1) lexer).isStale key = false :=
    fun key isKey => nomatch noKey.symm.trans isKey
  have noNext : ((skipBlanks (lexer.cursor.rest.length + 1) lexer).closeBlocks column
      ).cursor.next? = none := by
    rw [Cursor.next?, stands.isRest]
    rfl
  refine ⟨_, ?_, ends.isSlots⟩
  rw [readAll, isReady.refreshKeys_eq_some isFresh]
  simp only [Option.bind_eq_bind, Option.bind_some, isReady.isColumn, noNext]
  refine ends.dropKey_eq_some ?_
  simp only [Progress.close, Progress.key?_closeWithin, noKey]

end Pipework.Yaml.Lexer
