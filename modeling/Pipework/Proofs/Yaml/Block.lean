import Pipework.Proofs.Yaml.Gap

/-!
# What a block scalar takes

A block scalar ends in front of a comment that starts a line, and it is shorter than what its
reader takes (`Yaml.readBlock_takes`).
-/

namespace Pipework.Yaml

theorem dropWhile_append_cons_of_stops
    {test : Char → Bool} {stop : Char} (stops : test stop = false) (front rest : List Char) :
    (front ++ stop :: rest).dropWhile test = front.dropWhile test ++ stop :: rest := by
  induction front with
  | nil => exact List.dropWhile_cons_of_neg (Bool.eq_false_iff.mp stops)
  | cons first front inductionHypothesis =>
      rw [List.cons_append, List.dropWhile_cons, List.dropWhile_cons, inductionHypothesis]
      split <;> rfl

/-! ## Places in front of a comment -/

namespace Cursor

variable {cursor behind : Cursor} {character : Char} {comment : List Char}

theorem rest_skipWhile
    (cursor : Cursor) (test : Char → Bool) :
    (cursor.skipWhile test).rest = cursor.rest.dropWhile test :=
  rest_skipMany List.takeWhile_append_dropWhile.symm

/-- A place in front of a comment that starts a line. -/
def InFront (comment : List Char) (cursor : Cursor) : Prop :=
  '\n' :: '#' :: comment <:+ cursor.rest

/-- A place in front of a comment that starts a line, or at its sign. -/
def Before (comment : List Char) (cursor : Cursor) : Prop :=
  (cursor.rest = '#' :: comment ∧ cursor.column = 0) ∨ cursor.InFront comment

theorem InFront.skip
    (inFront : cursor.InFront comment) (isNext : cursor.next? = some character)
    (noBreak : isBreak character = false) :
    cursor.skip.InFront comment := by
  obtain ⟨rest, isRest⟩ := exists_rest_of_next? isNext
  rw [InFront, isRest, List.suffix_cons_iff] at inFront
  rcases inFront with isHere | isBehind
  · obtain rfl := (List.cons.inj isHere).1
    exact nomatch noBreak
  · rw [InFront, rest_skip isRest]
    exact isBehind

/-- What ends no line leads on to the end of the line at most. -/
theorem InFront.skipWhile
    (inFront : cursor.InFront comment) {test : Char → Bool} (stops : test '\n' = false) :
    (cursor.skipWhile test).InFront comment := by
  obtain ⟨front, isRest⟩ := inFront
  rw [InFront, rest_skipWhile, ← isRest, dropWhile_append_cons_of_stops stops]
  exact List.suffix_append _ _

theorem InFront.skipBreak
    (inFront : cursor.InFront comment) (isNext : cursor.next? = some character)
    (ends : isBreak character = true) :
    cursor.skipBreak.Before comment := by
  obtain ⟨front, isRest⟩ := inFront
  obtain ⟨others, isText⟩ := exists_rest_of_next? isNext
  obtain ⟨taken, -, areBreaks, isTaken⟩ := exists_rest_of_break isText ends
  rcases List.append_eq_append_iff.mp (isTaken.symm.trans isRest.symm) with
    ⟨more, -, isBehind⟩ | ⟨more, rfl, isBehind⟩
  · exact Or.inr ⟨more, isBehind.symm⟩
  · -- Of what is behind the front only the break can be taken.
    rcases more with _ | ⟨first, _ | ⟨second, more⟩⟩
    · exact Or.inr ⟨[], isBehind⟩
    · exact Or.inl ⟨(List.cons.inj isBehind).2.symm, rfl⟩
    · have isSign : '#' = second := (List.cons.inj (List.cons.inj isBehind).2).1
      have endsSign := areBreaks second (by simp)
      rw [← isSign] at endsSign
      exact nomatch endsSign

namespace Before

theorem inFront
    (before : cursor.Before comment) (isNext : cursor.next? = some character)
    (notSign : character ≠ '#') :
    cursor.InFront comment := by
  refine before.resolve_left fun ⟨isRest, _⟩ => notSign ?_
  rw [next?, isRest] at isNext
  exact (Option.some.inj isNext).symm

theorem skip
    (before : cursor.Before comment) (isNext : cursor.next? = some character)
    (notSign : character ≠ '#') (noBreak : isBreak character = false) :
    cursor.skip.Before comment :=
  Or.inr ((before.inFront isNext notSign).skip isNext noBreak)

theorem skipBreak
    (before : cursor.Before comment) (isNext : cursor.next? = some character)
    (ends : isBreak character = true) :
    cursor.skipBreak.Before comment := by
  refine (before.inFront isNext ?_).skipBreak isNext ends
  rintro rfl
  exact nomatch ends

theorem length_lt
    (before : cursor.Before comment) :
    comment.length < cursor.rest.length := by
  rcases before with ⟨isRest, -⟩ | inFront
  · rw [isRest]
    exact Nat.lt_succ_self _
  · exact Nat.lt_of_lt_of_le (Nat.lt_add_of_pos_right (by decide : 0 < 2)) inFront.length_le

end Before

/-! ## Ways from place to place -/

/-- A way to a place behind, on the same line as far as a comment tells it. -/
structure StaysOnLine (cursor behind : Cursor) : Prop where
  isLeft : behind.rest <:+ cursor.rest
  inFront : ∀ comment, cursor.InFront comment → behind.InFront comment

/-- A way to a place behind that leads past no comment that starts a line. -/
structure LeadsOn (cursor behind : Cursor) : Prop where
  isLeft : behind.rest <:+ cursor.rest
  before : ∀ comment, cursor.Before comment → behind.Before comment

namespace StaysOnLine

variable {between : Cursor}

theorem refl
    (cursor : Cursor) :
    cursor.StaysOnLine cursor :=
  ⟨List.suffix_rfl, fun _ inFront => inFront⟩

theorem trans
    (first : cursor.StaysOnLine between) (second : between.StaysOnLine behind) :
    cursor.StaysOnLine behind :=
  ⟨second.isLeft.trans first.isLeft,
    fun comment inFront => second.inFront comment (first.inFront comment inFront)⟩

theorem skip
    (isNext : cursor.next? = some character) (noBreak : isBreak character = false) :
    cursor.StaysOnLine cursor.skip :=
  ⟨cursor.suffix_skip, fun _ inFront => inFront.skip isNext noBreak⟩

theorem skipWhile
    (cursor : Cursor) {test : Char → Bool} (stops : test '\n' = false) :
    cursor.StaysOnLine (cursor.skipWhile test) :=
  ⟨cursor.suffix_skipMany _, fun _ inFront => inFront.skipWhile stops⟩

end StaysOnLine

namespace LeadsOn

variable {between : Cursor}

theorem refl
    (cursor : Cursor) :
    cursor.LeadsOn cursor :=
  ⟨List.suffix_rfl, fun _ before => before⟩

theorem trans
    (first : cursor.LeadsOn between) (second : between.LeadsOn behind) :
    cursor.LeadsOn behind :=
  ⟨second.isLeft.trans first.isLeft,
    fun comment before => second.before comment (first.before comment before)⟩

theorem skip
    (isNext : cursor.next? = some character) (notSign : character ≠ '#')
    (noBreak : isBreak character = false) :
    cursor.LeadsOn cursor.skip :=
  ⟨cursor.suffix_skip, fun _ before => before.skip isNext notSign noBreak⟩

theorem skipBreak
    (isNext : cursor.next? = some character) (ends : isBreak character = true) :
    cursor.LeadsOn cursor.skipBreak :=
  ⟨cursor.suffix_skipBreak, fun _ before => before.skipBreak isNext ends⟩

end LeadsOn

end Cursor

variable {cursor behind : Cursor}

/-! ## Heads -/

theorem length_skipBreak_lt
    {character : Char} (isNext : cursor.next? = some character) :
    cursor.skipBreak.rest.length + 1 ≤ cursor.rest.length := by
  obtain ⟨rest, isRest⟩ := Cursor.exists_rest_of_next? isNext
  rw [Cursor.skipBreak]
  split <;> simp_all

theorem length_skip_lt
    {character : Char} (isNext : cursor.next? = some character) :
    cursor.skip.rest.length + 1 = cursor.rest.length := by
  obtain ⟨rest, isRest⟩ := Cursor.exists_rest_of_next? isNext
  rw [Cursor.rest_skip isRest, isRest, List.length_cons]

/-- A sign of chomping takes a character. -/
theorem readChomping_takes
    {chomping? : Option Chomping} (isRead : readChomping cursor = (chomping?, behind)) :
    cursor.StaysOnLine behind ∧
      (chomping? ≠ none → behind.rest.length + 1 ≤ cursor.rest.length) := by
  rw [readChomping] at isRead
  split at isRead
  · rename_i chomping isSign
    obtain ⟨rfl, rfl⟩ := Prod.mk.inj isRead
    obtain ⟨sign, isNext, isChomping⟩ := Option.bind_eq_some_iff.mp isSign
    have noBreak : isBreak sign = false := by
      rw [chompingOf?] at isChomping
      split_ifs at isChomping with isPlus isMinus
      · exact isPlus ▸ rfl
      · exact isMinus ▸ rfl
    exact ⟨.skip isNext noBreak, fun _ => Nat.le_of_eq (length_skip_lt isNext)⟩
  · obtain ⟨rfl, rfl⟩ := Prod.mk.inj isRead
    exact ⟨.refl _, fun some => absurd rfl some⟩

/-- An indentation that is given is not zero. -/
theorem readIndentation_takes
    {indentation : Option Nat} (isRead : readIndentation cursor = some (indentation, behind)) :
    cursor.StaysOnLine behind ∧ ∀ count ∈ indentation, 1 ≤ count := by
  rw [readIndentation] at isRead
  split at isRead
  · rename_i digit isNext
    split_ifs at isRead with isZero isDigit
    · obtain ⟨rfl, rfl⟩ := Prod.mk.inj (Option.some.inj isRead)
      have bounds : 48 ≤ digit.toNat ∧ digit.toNat ≤ 57 := Char.isDigit_iff_toNat.mp isDigit
      have notZero : digit.toNat ≠ 48 := fun isZeroHere => isZero (Char.toNat_inj.mp isZeroHere)
      have noBreak : isBreak digit = false := by
        rw [Bool.eq_false_iff]
        intro ends
        simp only [isBreak, Bool.or_eq_true, decide_eq_true_eq] at ends
        rcases ends with (((rfl | rfl) | isBreak) | isBreak) | isBreak
        · exact absurd bounds (by decide)
        · exact absurd bounds (by decide)
        all_goals omega
      refine ⟨.skip isNext noBreak, fun count isCount => ?_⟩
      obtain rfl := Option.some.inj isCount
      omega
    · obtain ⟨rfl, rfl⟩ := Prod.mk.inj (Option.some.inj isRead)
      exact ⟨.refl _, fun count isCount => absurd isCount (Option.not_mem_none count)⟩
  · obtain ⟨rfl, rfl⟩ := Prod.mk.inj (Option.some.inj isRead)
    exact ⟨.refl _, fun count isCount => absurd isCount (Option.not_mem_none count)⟩

/-- The head of a block scalar takes the rest of its line, or the text ends with it. -/
structure TakesHead (cursor : Cursor) (chomping : Chomping) (indentation : Option Nat)
    (start : Cursor) : Prop where
  isLeft : start.rest <:+ cursor.rest
  before : ∀ comment, cursor.InFront comment → start.Before comment
  isIndented : ∀ count ∈ indentation, 1 ≤ count
  isShort : start.rest = [] ∨ start.column = 0 ∧ start.rest.length + 1 ≤ cursor.rest.length ∧
    (chomping = .keep → start.rest.length + 2 ≤ cursor.rest.length)

/-- The head ends with its line: a break is taken with it, and what is kept of the breaks at the end
costs a sign on the line. -/
theorem TakesHead.of_isLineEnd
    {ending : Cursor} {chomping? : Option Chomping} {indentation : Option Nat}
    (toEnding : cursor.StaysOnLine ending) (isIndented : ∀ count ∈ indentation, 1 ≤ count)
    (hasSign : chomping? ≠ none → ending.rest.length + 1 ≤ cursor.rest.length)
    (isLineEnd : ending.isLineEnd = true) :
    TakesHead cursor (chomping?.getD .clip) indentation
      (if ending.next?.isSome then ending.skipBreak else ending) := by
  cases isNext : ending.next? with
  | none =>
      exact ⟨toEnding.isLeft, fun comment inFront => Or.inr (toEnding.inFront comment inFront),
        isIndented, Or.inl (List.head?_eq_none_iff.mp isNext)⟩
  | some character =>
      have ends : isBreak character = true := by simpa [Cursor.isLineEnd, isNext] using isLineEnd
      have isShorter := length_skipBreak_lt isNext
      refine ⟨ending.suffix_skipBreak.trans toEnding.isLeft,
        fun comment inFront => (toEnding.inFront comment inFront).skipBreak isNext ends,
        isIndented, Or.inr ⟨rfl, Nat.le_trans isShorter toEnding.isLeft.length_le, fun keeps => ?_⟩⟩
      have isSome : chomping? ≠ none := by
        rintro rfl
        exact nomatch keeps
      exact Nat.le_trans (Nat.succ_le_succ isShorter) (hasSign isSome)

theorem readBlockHead_takes
    {chomping : Chomping} {indentation : Option Nat} {start : Cursor}
    (isRead : readBlockHead cursor = some (chomping, indentation, start)) :
    TakesHead cursor chomping indentation start := by
  rw [readBlockHead] at isRead
  generalize isEarly : readChomping cursor = early at isRead
  obtain ⟨early, afterSign⟩ := early
  obtain ⟨⟨given, afterDigit⟩, isIndentation, isRead⟩ := Option.bind_eq_some_iff.mp isRead
  dsimp only at isIndentation isRead
  generalize isLate :
    (if early.isNone && given.isSome then readChomping afterDigit else (early, afterDigit)) =
      late at isRead
  obtain ⟨late, behind⟩ := late
  dsimp only at isRead
  generalize isEnding :
    (if (behind.skipWhile isSpaceOrTab).isAhead 0 '#' then
        (behind.skipWhile isSpaceOrTab).skipLine
      else behind.skipWhile isSpaceOrTab) = ending at isRead
  have toSign := readChomping_takes isEarly
  have toDigit := readIndentation_takes isIndentation
  have toBehind : cursor.StaysOnLine behind ∧
      (late ≠ none → behind.rest.length + 1 ≤ cursor.rest.length) := by
    split at isLate
    · have toLate := readChomping_takes isLate
      have isShort := (toSign.1.trans toDigit.1).isLeft.length_le
      exact ⟨(toSign.1.trans toDigit.1).trans toLate.1,
        fun isSome => Nat.le_trans (toLate.2 isSome) isShort⟩
    · obtain ⟨rfl, rfl⟩ := Prod.mk.inj isLate
      have isShort := toDigit.1.isLeft.length_le
      exact ⟨toSign.1.trans toDigit.1,
        fun isSome => Nat.le_trans (Nat.succ_le_succ isShort) (toSign.2 isSome)⟩
  have toEnding : behind.StaysOnLine ending := by
    have toLine := Cursor.StaysOnLine.skipWhile behind (show isSpaceOrTab '\n' = false from rfl)
    rw [← isEnding]
    split
    · exact toLine.trans (.skipWhile _ rfl)
    · exact toLine
  have hasSign (isSome : late ≠ none) : ending.rest.length + 1 ≤ cursor.rest.length :=
    Nat.le_trans (Nat.succ_le_succ toEnding.isLeft.length_le) (toBehind.2 isSome)
  split at isRead
  · exact nomatch isRead
  · rename_i isLineEnd
    obtain ⟨rfl, isRest⟩ := Prod.mk.inj (Option.some.inj isRead)
    obtain ⟨rfl, rfl⟩ := Prod.mk.inj isRest
    exact .of_isLineEnd (toBehind.1.trans toEnding) toDigit.2 hasSign (by simpa using isLineEnd)

/-! ## Lines -/

/-- Breaks are taken with the blanks in front of what starts the next line. -/
structure TakesBreaks (breaks : List Char) (cursor : Cursor) (found : List Char)
    (behind : Cursor) : Prop where
  leadsOn : cursor.LeadsOn behind
  isShort : found.length + behind.rest.length ≤ breaks.length + cursor.rest.length
  isShortIndented : found.length + behind.column + behind.rest.length ≤
    breaks.length + cursor.column + cursor.rest.length

theorem readBlockBreaks_takes
    {column? : Option Nat} {fuel widest wider : Nat} {breaks found : List Char}
    (isRead : readBlockBreaks column? fuel breaks widest cursor = some (found, wider, behind)) :
    TakesBreaks breaks cursor found behind := by
  induction fuel generalizing breaks widest cursor with
  | zero => exact nomatch isRead
  | succ fuel inductionHypothesis =>
      rw [readBlockBreaks] at isRead
      dsimp only at isRead
      split at isRead
      · rename_i character isNext
        split_ifs at isRead with isSpace isTab ends
        · rw [Bool.and_eq_true, decide_eq_true_eq] at isSpace
          obtain ⟨-, rfl⟩ := isSpace
          obtain ⟨leadsOn, isShort, isShortIndented⟩ := inductionHypothesis isRead
          have isLength := length_skip_lt isNext
          have isColumn : cursor.skip.column = cursor.column + 1 := rfl
          exact ⟨(Cursor.LeadsOn.skip isNext (by decide) (by decide)).trans leadsOn, by omega,
            by omega⟩
        · obtain ⟨leadsOn, isShort, isShortIndented⟩ := inductionHypothesis isRead
          have isLength := length_skipBreak_lt isNext
          have isColumn : cursor.skipBreak.column = 0 := rfl
          rw [List.length_append, List.length_singleton] at isShort isShortIndented
          exact ⟨(Cursor.LeadsOn.skipBreak isNext ends).trans leadsOn, by omega, by omega⟩
        · obtain ⟨rfl, isRest⟩ := Prod.mk.inj (Option.some.inj isRead)
          obtain ⟨-, rfl⟩ := Prod.mk.inj isRest
          exact ⟨.refl _, Nat.le_refl _, Nat.le_refl _⟩
      · obtain ⟨rfl, isRest⟩ := Prod.mk.inj (Option.some.inj isRead)
        obtain ⟨-, rfl⟩ := Prod.mk.inj isRest
        exact ⟨.refl _, Nat.le_refl _, Nat.le_refl _⟩

/-- How many characters of a block scalar are read. -/
def BlockText.size (block : BlockText) : Nat :=
  block.text.length + block.lineBreak.length + block.emptyLines.length

theorem BlockText.size_empty
    (emptyLines : List Char) (isIndented : Bool) :
    (⟨[], [], emptyLines, isIndented⟩ : BlockText).size = emptyLines.length :=
  Nat.zero_add _

theorem BlockText.length_joined_le
    (block : BlockText) (isLiteral nextIndented : Bool) :
    (block.joined isLiteral nextIndented).length ≤ block.size := by
  rw [joined, size]
  split
  · rename_i folds
    have isBreak : block.lineBreak.length = 1 := by
      simp only [Bool.and_eq_true, decide_eq_true_eq] at folds
      rw [folds.1.1.2, List.length_singleton]
    rw [List.length_append]
    split
    · rw [List.length_singleton]
      omega
    · omega
  · simp only [List.length_append, Nat.le_refl]

/-- The place behind a line and its break. -/
def Cursor.nextLine (cursor : Cursor) : Cursor :=
  if cursor.skipLine.next?.isSome then cursor.skipLine.skipBreak else cursor.skipLine

theorem isBreak_of_skipLine
    {character : Char} (isNext : cursor.skipLine.next? = some character) :
    isBreak character = true := by
  have isFirst := List.head?_dropWhile_not (fun character => !isBreak character) cursor.rest
  rw [Cursor.skipLine, Cursor.next?, Cursor.rest_skipWhile] at isNext
  rw [isNext] at isFirst
  simpa using isFirst

theorem leadsOn_nextLine
    (inside : cursor.column ≠ 0) :
    cursor.LeadsOn cursor.nextLine := by
  have toEnding : cursor.StaysOnLine cursor.skipLine := .skipWhile cursor rfl
  have inFront {comment : List Char} (before : cursor.Before comment) :
      cursor.skipLine.InFront comment :=
    toEnding.inFront comment (before.resolve_left fun ⟨_, atStart⟩ => inside atStart)
  rw [Cursor.nextLine]
  cases isNext : cursor.skipLine.next? with
  | none => exact ⟨toEnding.isLeft, fun _ before => Or.inr (inFront before)⟩
  | some character =>
      exact ⟨cursor.skipLine.suffix_skipBreak.trans toEnding.isLeft, fun _ before =>
        (inFront before).skipBreak isNext (isBreak_of_skipLine isNext)⟩

/-- A line and its break, in whatever way it counts. -/
theorem length_nextLine_le
    (cursor : Cursor) (lineBreak : Char) :
    (cursor.rest.takeWhile fun character => !isBreak character).length +
        (if cursor.skipLine.next?.isSome then [lineBreak] else []).length +
        cursor.nextLine.rest.length ≤ cursor.rest.length := by
  have isLength := congrArg List.length
    (List.takeWhile_append_dropWhile (p := fun character => !isBreak character)
      (l := cursor.rest))
  rw [List.length_append, ← Cursor.rest_skipWhile] at isLength
  rw [Cursor.nextLine]
  cases isNext : cursor.skipLine.next? with
  | none => exact Nat.le_of_eq isLength
  | some character =>
      have isShorter := length_skipBreak_lt isNext
      rw [Cursor.skipLine] at isShorter ⊢
      simp only [Option.isSome_some, if_true, List.length_singleton]
      omega

/-- The lines of a block scalar lead past no comment that starts a line, and no more characters
come to the scalar than they take. -/
structure TakesLines (block : BlockText) (cursor : Cursor) (whole : BlockText)
    (behind : Cursor) : Prop where
  leadsOn : cursor.LeadsOn behind
  isShort : whole.size + behind.rest.length ≤ block.size + cursor.rest.length

theorem readBlockLines_takes
    {isLiteral : Bool} {column fuel : Nat} {block whole : BlockText} (inside : column ≠ 0)
    (isRead : readBlockLines isLiteral column fuel block cursor = some (whole, behind)) :
    TakesLines block cursor whole behind := by
  induction fuel generalizing block cursor with
  | zero => exact nomatch isRead
  | succ fuel inductionHypothesis =>
      rw [readBlockLines] at isRead
      split at isRead
      · rename_i isLine
        rw [Bool.and_eq_true, decide_eq_true_eq] at isLine
        obtain ⟨⟨emptyLines, wider, next⟩, isBreaks, isRead⟩ := Option.bind_eq_some_iff.mp isRead
        have toNext : TakesBreaks [] cursor.nextLine emptyLines next :=
          readBlockBreaks_takes isBreaks
        obtain ⟨leadsOn, isShort⟩ := inductionHypothesis isRead
        have isShortNext := toNext.isShort
        have isShortLine := length_nextLine_le cursor cursor.skipLine.breakChar
        have isShortText := block.length_joined_le isLiteral (cursor.next?.any isSpaceOrTab)
        rw [List.length_nil] at isShortNext
        rw [Cursor.skipLine, Cursor.skipWhile] at isShortLine
        refine ⟨((leadsOn_nextLine (isLine.1 ▸ inside)).trans toNext.leadsOn).trans leadsOn,
          Nat.le_trans isShort ?_⟩
        rw [BlockText.size, List.length_append]
        dsimp only
        omega
      · obtain ⟨rfl, rfl⟩ := Prod.mk.inj (Option.some.inj isRead)
        exact ⟨.refl _, Nat.le_refl _⟩

theorem eq_or_column_of_readBlockLines
    {isLiteral : Bool} {column fuel : Nat} {block whole : BlockText}
    (isRead : readBlockLines isLiteral column fuel block cursor = some (whole, behind)) :
    (whole = block ∧ behind = cursor) ∨ cursor.column = column := by
  cases fuel with
  | zero => exact nomatch isRead
  | succ fuel =>
      rw [readBlockLines] at isRead
      split at isRead
      · rename_i isLine
        rw [Bool.and_eq_true, decide_eq_true_eq] at isLine
        exact Or.inr isLine.1
      · obtain ⟨rfl, rfl⟩ := Prod.mk.inj (Option.some.inj isRead)
        exact Or.inl ⟨rfl, rfl⟩

/-! ## Block scalars -/

/-- The text of a block scalar: its lines, and of what is behind them as much as is kept. -/
def BlockText.chomped (block : BlockText) (chomping : Chomping) : List Char :=
  block.text ++
    match chomping with
    | .strip => []
    | .clip => block.lineBreak
    | .keep => block.lineBreak ++ block.emptyLines

theorem BlockText.length_chomped_le
    (block : BlockText) (chomping : Chomping) :
    (block.chomped chomping).length ≤ block.size := by
  rw [size]
  cases chomping <;> simp only [chomped, List.length_append, List.length_nil] <;> omega

/-- Lines start behind the first column. -/
theorem column_ne_zero
    {indentation : Option Nat} (isIndented : ∀ count ∈ indentation, 1 ≤ count)
    (base widest content : Nat) :
    (indentation.map fun count => base + count).getD (max widest (max content 1)) ≠ 0 := by
  cases indentation with
  | none =>
      rw [Option.map_none, Option.getD_none]
      omega
  | some count =>
      have isPositive := isIndented count rfl
      rw [Option.map_some, Option.getD_some]
      omega

/-- A block scalar ends in front of a comment that starts a line. If there is any text, then it
is shorter than what its reader takes: the sign, a break and a column go. -/
theorem readBlock_takes
    {isLiteral : Bool} {context : Context} {sign : Char} {text : List Char}
    (isNext : cursor.next? = some sign)
    (isRead : readBlock isLiteral context cursor = some (text, behind)) :
    behind.rest <:+ cursor.rest.tail ∧
      (∀ comment, cursor.skip.InFront comment → behind.Before comment) ∧
      (text = [] ∨ text.length + (behind.rest.length + 3) ≤ cursor.rest.length) := by
  rw [readBlock] at isRead
  obtain ⟨⟨chomping, indentation, start⟩, isHead, isRead⟩ := Option.bind_eq_some_iff.mp isRead
  dsimp only at isRead
  obtain ⟨⟨emptyLines, widest, first⟩, isBreaks, isRead⟩ := Option.bind_eq_some_iff.mp isRead
  dsimp only at isRead
  obtain ⟨⟨whole, ending⟩, isLines, isRead⟩ := Option.bind_eq_some_iff.mp isRead
  obtain ⟨isText, rfl⟩ := Prod.mk.inj (Option.some.inj isRead)
  have isChomped : text = whole.chomped chomping := isText.symm
  have takesHead := readBlockHead_takes isHead
  have takesBreaks := readBlockBreaks_takes isBreaks
  have inside := column_ne_zero takesHead.isIndented (max context.indent 0).toNat widest
    context.contentColumn
  have takesLines := readBlockLines_takes inside isLines
  refine ⟨(takesLines.leadsOn.isLeft.trans takesBreaks.leadsOn.isLeft).trans takesHead.isLeft,
    fun comment inFront => takesLines.leadsOn.before comment
      (takesBreaks.leadsOn.before comment (takesHead.before comment inFront)), ?_⟩
  have isLength := length_skip_lt isNext
  have isShortText := whole.length_chomped_le chomping
  have isShortBreaks := takesBreaks.isShort
  have isShortIndented := takesBreaks.isShortIndented
  have isShortLines := takesLines.isShort
  rw [← isChomped] at isShortText
  rw [List.length_nil, Nat.zero_add] at isShortBreaks isShortIndented
  rw [BlockText.size_empty] at isShortLines
  dsimp only
  rcases takesHead.isShort with isEnd | ⟨atStart, isShort, keeps⟩
  · rw [isEnd, List.length_nil] at isShortBreaks
    exact Or.inl (List.length_eq_zero_iff.mp (by omega))
  · rcases eq_or_column_of_readBlockLines isLines with ⟨rfl, rfl⟩ | isColumn
    · rw [BlockText.size_empty] at isShortText
      cases chomping with
      | clip | strip => exact Or.inl isChomped
      | keep =>
          have isShortKept := keeps rfl
          right
          omega
    · right
      omega

end Pipework.Yaml
