import Pipework.Proofs.Yaml.Reading

/-!
# Texts without brackets and marks

In a text without brackets, marks and quotes the lexer stays outside brackets and inside the block
of the first column (`Yaml.Lexer.Nested.onwards`).
-/

namespace Pipework.Yaml.Lexer

/-- A state outside brackets, in the block of the first column or in one inside that. -/
structure Nested (lexer : Lexer) : Prop where
  noBrackets : lexer.flowLevel = 0
  inBlock : ∃ outer,
    (lexer.indent :: lexer.outer).dropWhile (fun column => 0 < column) = 0 :: outer

variable {before after lexer : Lexer}

namespace Nested

theorem indent_nonneg
    (nested : lexer.Nested) :
    0 ≤ lexer.indent := by
  obtain ⟨outer, inBlock⟩ := nested.inBlock
  by_contra isLeft
  rw [List.dropWhile_cons_of_neg (by simp; omega)] at inBlock
  exact isLeft (Int.le_of_eq (List.cons.inj inBlock).1.symm)

theorem isFlow_eq_false
    (nested : lexer.Nested) :
    lexer.isFlow = false := by
  rw [isFlow, nested.noBrackets]
  rfl

theorem onwardsColumn_ne_zero
    (nested : lexer.Nested) :
    lexer.context.onwardsColumn ≠ 0 := by
  have isInside := nested.indent_nonneg
  rw [Context.onwardsColumn, show lexer.context.isFlow = false from nested.isFlow_eq_false,
    if_neg Bool.false_ne_true]
  change (lexer.indent + 1).toNat ≠ 0
  omega

theorem of_same
    (nested : before.Nested) (isLevel : after.flowLevel = before.flowLevel)
    (isIndent : after.indent = before.indent) (isOuter : after.outer = before.outer) :
    after.Nested :=
  ⟨isLevel.trans nested.noBrackets, by rw [isIndent, isOuter]; exact nested.inBlock⟩

theorem keeps
    (nested : before.Nested) (keeps : before.Keeps after) :
    after.Nested :=
  nested.of_same keeps.isLevel keeps.isIndent keeps.isOuter

/-- A block starts right of the innermost one. -/
theorem enterBlock
    (nested : lexer.Nested) {column : Nat} (opens : lexer.opensBlock column = true) :
    (lexer.enterBlock column).Nested := by
  obtain ⟨outer, inBlock⟩ := nested.inBlock
  have isInside := nested.indent_nonneg
  rw [opensBlock, Bool.and_eq_true, decide_eq_true_eq] at opens
  have isRight : (0 : Int) < (lexer.enterBlock column).indent :=
    Int.lt_of_le_of_lt isInside opens.2
  refine ⟨nested.noBrackets, outer, ?_⟩
  rw [← inBlock]
  exact List.dropWhile_cons_of_pos (decide_eq_true isRight)

theorem openBlock
    (nested : lexer.Nested) (token : Token) :
    (lexer.openBlock token).Nested := by
  rw [Lexer.openBlock]
  split
  · rename_i opens
    exact (nested.enterBlock opens).of_same rfl rfl rfl
  · exact nested

theorem closeBlocksWithin
    (nested : lexer.Nested) (fuel column : Nat) :
    (closeBlocksWithin fuel lexer column).Nested := by
  induction fuel generalizing lexer with
  | zero => exact nested
  | succ fuel inductionHypothesis =>
      rw [Lexer.closeBlocksWithin]
      split
      · rename_i isRight
        rw [Bool.and_eq_true, decide_eq_true_eq] at isRight
        split
        · exact nested
        · rename_i indent outer isOuter
          refine inductionHypothesis ⟨nested.noBrackets, ?_⟩
          obtain ⟨below, inBlock⟩ := nested.inBlock
          rw [List.dropWhile_cons_of_pos (by simp; omega), isOuter] at inBlock
          exact ⟨below, inBlock⟩
      · exact nested

theorem ready
    {next : Lexer} (nested : lexer.Nested) (isReady : lexer.ready? = some next) :
    next.Nested := by
  obtain ⟨refreshed, isRefreshed, rfl⟩ := Option.map_eq_some_iff.mp isReady
  obtain ⟨cursor, keyAllowed, -, isSkipped⟩ :=
    exists_skipBlanks (lexer.cursor.rest.length + 1) lexer
  rw [isSkipped] at isRefreshed
  have nestedSkipped : { lexer with cursor, keyAllowed }.Nested := nested.of_same rfl rfl rfl
  exact (nestedSkipped.keeps (keeps_of_refreshKeys isRefreshed)).closeBlocksWithin _ _

/-! ## Tokens -/

theorem readFlowEntry
    (nested : before.Nested) (isRead : before.readFlowEntry = some after) :
    after.Nested := by
  obtain ⟨free, isFree, isRead⟩ := Option.bind_eq_some_iff.mp isRead
  obtain rfl := Option.some.inj isRead
  exact (nested.keeps (keeps_of_dropKey isFree)).of_same rfl rfl rfl

theorem readValueMark
    (nested : before.Nested) (isRead : before.readValueMark = some after) :
    after.Nested := by
  rw [Lexer.readValueMark] at isRead
  split at isRead
  · rename_i key _
    obtain rfl := Option.some.inj isRead
    have nestedFilled (filling : List Token) : (before.fill key.slot filling).Nested :=
      nested.of_same rfl rfl rfl
    cases opens : before.opensBlock key.column with
    | false => exact (nestedFilled [.key]).of_same rfl rfl rfl
    | true => exact ((nestedFilled [.blockMappingStart, .key]).enterBlock opens).of_same rfl rfl rfl
  · obtain ⟨-, isRead⟩ := Option.ite_none_left_eq_some.mp isRead
    obtain rfl := Option.some.inj isRead
    exact (nested.openBlock _).of_same rfl rfl rfl

theorem readPlainScalar
    (nested : before.Nested) (isRead : before.readPlainScalar = some after) :
    after.Nested := by
  obtain ⟨noted, isNoted, isRead⟩ := Option.bind_eq_some_iff.mp isRead
  obtain ⟨plain, isPlain, isRead⟩ := Option.bind_eq_some_iff.mp isRead
  obtain rfl := Option.some.inj isRead
  exact (nested.keeps (keeps_of_noteKey isNoted)).of_same rfl rfl rfl

end Nested

/-- The characters of brackets, marks, quotes and properties. -/
def marks : List Char := "%-.[]\x7b\x7d?*&!|>'\"".toList

/-- Without a mark a token is a comma, a colon or a plain scalar. -/
theorem readToken_of_notMem
    {character : Char} (isNext : lexer.cursor.next? = some character)
    (noMark : character ∉ marks) :
    lexer.readToken character =
      if character = ',' then lexer.readFlowEntry
      else if character = ':' && lexer.isSign then lexer.readValueMark
      else if lexer.startsPlain character then lexer.readPlainScalar
      else none := by
  obtain ⟨rest, isRest⟩ := Cursor.exists_rest_of_next? isNext
  have differs (sign : Char) (isMark : sign ∈ marks) : character ≠ sign := fun same =>
    noMark (same ▸ isMark)
  have notMark (sign : Char) (isMark : sign ∈ marks) : lexer.cursor.isMark sign = false := by
    rw [Cursor.isMark, Cursor.isAhead_zero, isRest, List.head?_cons,
      beq_eq_false_iff_ne.mpr (mt Option.some.inj (differs sign isMark)), Bool.and_false,
      Bool.false_and, Bool.false_and, Bool.false_and]
  simp [readToken, notMark '-' (by decide), notMark '.' (by decide), differs '%' (by decide),
    differs '[' (by decide), differs ']' (by decide), differs '\x7b' (by decide),
    differs '\x7d' (by decide), differs '-' (by decide), differs '?' (by decide),
    differs '*' (by decide), differs '&' (by decide), differs '!' (by decide),
    differs '|' (by decide), differs '>' (by decide), differs '\'' (by decide),
    differs '"' (by decide)]

/-- In a text without marks the lexer stays outside brackets and inside its block. -/
theorem Nested.onwards
    {next : Lexer} {character : Char} (nested : before.Nested)
    (noMarks : ∀ character ∈ before.cursor.rest, character ∉ marks)
    (isNext : before.cursor.next? = some character)
    (isRead : before.readToken character = some after) (isReady : after.ready? = some next) :
    next.Nested := by
  have isHere : character ∈ before.cursor.rest := List.mem_of_mem_head? isNext
  rw [readToken_of_notMem isNext (noMarks character isHere)] at isRead
  split_ifs at isRead
  · exact (nested.readFlowEntry isRead).ready isReady
  · exact (nested.readValueMark isRead).ready isReady
  · exact (nested.readPlainScalar isRead).ready isReady

end Pipework.Yaml.Lexer
