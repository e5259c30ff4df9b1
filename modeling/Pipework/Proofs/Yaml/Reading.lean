import Pipework.Proofs.Yaml.Block
import Pipework.Proofs.Yaml.Folding
import Pipework.Proofs.Yaml.Quoted

/-!
# Where scalars are read

Every scalar among the tokens of a text was read at some place in it, outside brackets and blocks
that were not open before the first character was taken (`Yaml.Lexer.exists_reading`).
-/

namespace Pipework.Yaml.Lexer

/-! ## Steps without a scalar -/

theorem mem_tokens
    {lexer : Lexer} {token : Token} :
    token ∈ lexer.tokens ↔ ∃ slot ∈ lexer.slots, token ∈ slot := by
  simp only [tokens, List.mem_flatten, List.mem_reverse]

/-- Whether a token is a scalar. -/
def isScalar : Token → Bool
  | .scalar .. => true
  | _ => false

theorem scalar_notMem
    {slot : List Token} (noScalar : slot.any isScalar = false) (isPlain : Bool) (text : String) :
    .scalar isPlain text ∉ slot := fun member =>
  List.any_eq_false.mp noScalar _ member rfl

/-- A state at the same place without any other scalar. -/
structure Stays (before after : Lexer) : Prop where
  isCursor : after.cursor = before.cursor
  scalars : ∀ isPlain text,
    .scalar isPlain text ∈ after.tokens → .scalar isPlain text ∈ before.tokens

/-- A state in the same blocks and brackets at the same place, without any other scalar. -/
structure Keeps (before after : Lexer) : Prop extends Stays before after where
  isIndent : after.indent = before.indent
  isOuter : after.outer = before.outer
  isLevel : after.flowLevel = before.flowLevel

variable {before middle after lexer : Lexer}

theorem Stays.refl
    (lexer : Lexer) :
    lexer.Stays lexer :=
  ⟨rfl, fun _ _ member => member⟩

theorem Stays.trans
    (first : before.Stays middle) (second : middle.Stays after) :
    before.Stays after :=
  ⟨second.isCursor.trans first.isCursor,
    fun isPlain text member => first.scalars isPlain text (second.scalars isPlain text member)⟩

theorem Keeps.refl
    (lexer : Lexer) :
    lexer.Keeps lexer :=
  ⟨.refl lexer, rfl, rfl, rfl⟩

theorem Keeps.isContext
    (keeps : before.Keeps after) :
    after.context = before.context := by
  rw [context, context, keeps.isLevel, keeps.isIndent]

theorem stays_of_slots
    (isCursor : after.cursor = before.cursor) (isSlots : after.slots = before.slots) :
    before.Stays after := by
  refine ⟨isCursor, fun isPlain text member => ?_⟩
  rw [tokens, isSlots] at member
  exact member

theorem mem_tokens_of_cons
    {slot : List Token} {token : Token} (isSlots : after.slots = slot :: before.slots) :
    token ∈ after.tokens ↔ token ∈ slot ∨ token ∈ before.tokens := by
  simp only [mem_tokens, isSlots, List.mem_cons, exists_eq_or_imp]

/-- Another slot without a scalar. -/
theorem stays_of_cons
    {slot : List Token} (isCursor : after.cursor = before.cursor)
    (isSlots : after.slots = slot :: before.slots) (noScalar : slot.any isScalar = false) :
    before.Stays after :=
  ⟨isCursor, fun isPlain text member =>
    ((mem_tokens_of_cons isSlots).mp member).resolve_left (scalar_notMem noScalar isPlain text)⟩

theorem closeBlocks_stays
    (lexer : Lexer) (column : Int) :
    lexer.Stays (lexer.closeBlocks column) := by
  rw [closeBlocks]
  generalize lexer.outer.length + 1 = fuel
  induction fuel generalizing lexer with
  | zero => exact .refl lexer
  | succ fuel inductionHypothesis =>
      rw [closeBlocksWithin]
      split
      · split
        · exact .refl lexer
        · refine Stays.trans ?_ (inductionHypothesis _)
          exact stays_of_cons rfl rfl rfl
      · exact .refl lexer

theorem openBlock_stays
    (lexer : Lexer) {token : Token} (noScalar : [token].any isScalar = false) :
    lexer.Stays (lexer.openBlock token) := by
  rw [openBlock]
  split
  · exact stays_of_cons rfl rfl noScalar
  · exact .refl lexer

theorem fill_stays
    (lexer : Lexer) (slot : Nat) {filling : List Token}
    (noScalar : filling.any isScalar = false) :
    lexer.Stays (lexer.fill slot filling) := by
  refine ⟨rfl, fun isPlain text member => ?_⟩
  obtain ⟨found, isFound, inFound⟩ := mem_tokens.mp member
  rcases List.mem_or_eq_of_mem_set isFound with isOld | rfl
  · exact mem_tokens.mpr ⟨found, isOld, inFound⟩
  · exact absurd inFound (scalar_notMem noScalar isPlain text)

theorem keeps_of_dropKey
    (isFree : before.dropKey = some after) :
    before.Keeps after := by
  rw [dropKey] at isFree
  split at isFree
  · split at isFree
    · exact nomatch isFree
    · obtain rfl := Option.some.inj isFree
      exact ⟨stays_of_slots rfl rfl, rfl, rfl, rfl⟩
  · obtain rfl := Option.some.inj isFree
    exact .refl _

theorem keeps_of_noteKey
    (isNoted : before.noteKey = some after) :
    before.Keeps after := by
  rw [noteKey] at isNoted
  split at isNoted
  · obtain ⟨free, isFree, isNoted⟩ := Option.bind_eq_some_iff.mp isNoted
    have keeps := keeps_of_dropKey isFree
    obtain rfl := Option.some.inj isNoted
    exact ⟨keeps.toStays.trans (stays_of_cons rfl rfl rfl), keeps.isIndent, keeps.isOuter,
      keeps.isLevel⟩
  · obtain rfl := Option.some.inj isNoted
    exact .refl _

theorem length_eq_of_mapM_eq_some
    {α β : Type} {step : α → Option β} {items : List α} {results : List β}
    (isMapped : items.mapM step = some results) :
    results.length = items.length := by
  induction items generalizing results with
  | nil =>
      obtain rfl := Option.some.inj isMapped
      rfl
  | cons item items inductionHypothesis =>
      rw [List.mapM_cons] at isMapped
      obtain ⟨result, -, isMapped⟩ := Option.bind_eq_some_iff.mp isMapped
      obtain ⟨others, areOthers, isMapped⟩ := Option.bind_eq_some_iff.mp isMapped
      obtain rfl := Option.some.inj isMapped
      exact congrArg (· + 1) (inductionHypothesis areOthers)

theorem keeps_of_refreshKeys
    (isReady : before.refreshKeys = some after) :
    before.Keeps after := by
  obtain ⟨keyStart?, -, isReady⟩ := Option.bind_eq_some_iff.mp isReady
  obtain ⟨outerKeys, isOuter, isReady⟩ := Option.bind_eq_some_iff.mp isReady
  obtain rfl := Option.some.inj isReady
  exact ⟨stays_of_slots rfl rfl, rfl, rfl, length_eq_of_mapM_eq_some isOuter⟩

/-! ## Steps -/

/-- A scalar that is read where a lexer stands. -/
inductive ReadsScalar (lexer : Lexer) : List Char → Prop
  | plain {scalar : PlainScalar} (starts : StartsPlain lexer.cursor.rest)
      (isRead : readPlain lexer.context lexer.cursor = some scalar) :
      ReadsScalar lexer scalar.text
  | quoted {kind : QuoteKind} {text : List Char} {behind : Cursor}
      (isQuote : lexer.cursor.next? = some kind.char)
      (isRead : readQuoted kind lexer.cursor = some (text, behind)) : ReadsScalar lexer text
  | block {sign : Char} {isLiteral : Bool} {text : List Char} {behind : Cursor}
      (isSign : lexer.cursor.next? = some sign) (isBlock : sign ∈ ['|', '>'])
      (isRead : readBlock isLiteral lexer.context lexer.cursor = some (text, behind)) :
      ReadsScalar lexer text

/-- What the step of a token leads to: a place behind, where the blocks and brackets are others
only if a character was taken, and no other scalar but one that is read here. -/
structure Advances (before after : Lexer) : Prop where
  isLeft : after.cursor.rest <:+ before.cursor.rest
  isContext : after.context = before.context ∨ after.cursor.rest <:+ before.cursor.rest.tail
  scalars : ∀ isPlain text, .scalar isPlain text ∈ after.tokens →
    .scalar isPlain text ∈ before.tokens ∨ before.ReadsScalar text.toList

/-- A token that is no scalar, and takes some characters. -/
theorem advances_of_skipping
    {token : Token} {count : Nat} (stays : before.Stays middle)
    (noScalar : [token].any isScalar = false)
    (isCursor : after.cursor = middle.cursor.skipMany (count + 1))
    (isSlots : after.slots = [token] :: middle.slots) :
    before.Advances after := by
  have isBehind : after.cursor.rest <:+ before.cursor.rest.tail := by
    rw [isCursor, ← stays.isCursor, ← Cursor.skip_skipMany]
    exact Cursor.suffix_skipMany _ _
  refine ⟨isBehind.trans (List.tail_suffix _), Or.inr isBehind, fun isPlain text member => ?_⟩
  rcases (mem_tokens_of_cons isSlots).mp member with isToken | isOld
  · exact absurd isToken (scalar_notMem noScalar isPlain text)
  · exact Or.inl (stays.scalars isPlain text isOld)

/-- A property of a node. -/
theorem advances_of_property
    {token : Token} (keeps : before.Keeps middle)
    (noScalar : [token].any isScalar = false)
    (isLeft : after.cursor.rest <:+ middle.cursor.rest)
    (isContext : after.context = middle.context)
    (isSlots : after.slots = [token] :: middle.slots) :
    before.Advances after := by
  rw [keeps.isCursor] at isLeft
  refine ⟨isLeft, Or.inl (isContext.trans keeps.isContext), fun isPlain text member => ?_⟩
  rcases (mem_tokens_of_cons isSlots).mp member with isToken | isOld
  · exact absurd isToken (scalar_notMem noScalar isPlain text)
  · exact Or.inl (keeps.scalars isPlain text isOld)

/-- A scalar that is read. -/
theorem advances_of_scalar
    {isPlain : Bool} {text : List Char} (keeps : before.Keeps middle)
    (isRead : before.ReadsScalar text) (isLeft : after.cursor.rest <:+ before.cursor.rest)
    (isContext : after.context = middle.context)
    (isSlots : after.slots = [.scalar isPlain (String.ofList text)] :: middle.slots) :
    before.Advances after := by
  refine ⟨isLeft, Or.inl (isContext.trans keeps.isContext), fun isPlainToo found member => ?_⟩
  rcases (mem_tokens_of_cons isSlots).mp member with isToken | isOld
  · obtain ⟨-, rfl⟩ := Token.scalar.inj (List.mem_singleton.mp isToken)
    rw [String.toList_ofList]
    exact Or.inr isRead
  · exact Or.inl (keeps.scalars isPlainToo found isOld)

/-! ## Tokens -/

theorem readDirective_advances
    (isPercent : before.cursor.next? = some '%') (isRead : before.readDirective = some after) :
    before.Advances after := by
  obtain ⟨free, isFree, isRead⟩ := Option.bind_eq_some_iff.mp isRead
  have stays := (before.closeBlocks_stays (-1)).trans (keeps_of_dropKey isFree).toStays
  obtain ⟨rest, isRest⟩ := Cursor.exists_rest_of_next? isPercent
  have isLine : free.cursor.skipLine = free.cursor.skipMany
      ((rest.takeWhile fun character => !isBreak character).length + 1) := by
    rw [stays.isCursor, Cursor.skipLine, Cursor.skipWhile, isRest]
    rfl
  dsimp only at isRead
  split at isRead
  · obtain ⟨-, isRead⟩ := Option.ite_none_right_eq_some.mp isRead
    obtain rfl := Option.some.inj isRead
    exact advances_of_skipping stays rfl isLine rfl
  · obtain rfl := Option.some.inj isRead
    exact advances_of_skipping stays rfl isLine rfl
  · cases isRead

theorem readAnchor_advances
    {token : String → Token} (noScalar : ∀ name, [token name].any isScalar = false)
    (isRead : before.readAnchor token = some after) :
    before.Advances after := by
  obtain ⟨noted, isNoted, isRead⟩ := Option.bind_eq_some_iff.mp isRead
  obtain ⟨⟨name, behind⟩, isName, isRead⟩ := Option.bind_eq_some_iff.mp isRead
  obtain rfl := Option.some.inj isRead
  refine advances_of_property (keeps_of_noteKey isNoted) (noScalar name) ?_ rfl rfl
  obtain ⟨-, isBehind⟩ := Option.ite_none_left_eq_some.mp isName
  obtain ⟨-, rfl⟩ := Prod.mk.inj (Option.some.inj isBehind)
  exact (Cursor.suffix_skipMany _ _).trans noted.cursor.suffix_skip

theorem readTag_advances
    (isRead : before.readTag = some after) :
    before.Advances after := by
  obtain ⟨noted, isNoted, isRead⟩ := Option.bind_eq_some_iff.mp isRead
  obtain ⟨-, isRead⟩ := Option.ite_none_left_eq_some.mp isRead
  obtain ⟨-, isRead⟩ := Option.ite_none_left_eq_some.mp isRead
  split at isRead
  obtain ⟨-, isRead⟩ := Option.ite_none_left_eq_some.mp isRead
  obtain ⟨-, isRead⟩ := Option.ite_none_left_eq_some.mp isRead
  obtain rfl := Option.some.inj isRead
  refine advances_of_property (keeps_of_noteKey isNoted) rfl ?_ rfl rfl
  dsimp only
  cases noted.cursor.isAhead 1 '<' with
  | false => exact Cursor.suffix_skipMany _ _
  | true =>
      exact ((Cursor.suffix_skip _).trans (Cursor.suffix_skipMany _ _)).trans
        (Cursor.suffix_skipMany _ _)

theorem readDocumentMark_advances
    {token : Token} (noScalar : [token].any isScalar = false)
    (isRead : before.readDocumentMark token = some after) :
    before.Advances after := by
  obtain ⟨free, isFree, isRead⟩ := Option.bind_eq_some_iff.mp isRead
  obtain rfl := Option.some.inj isRead
  exact advances_of_skipping
    ((before.closeBlocks_stays (-1)).trans (keeps_of_dropKey isFree).toStays) noScalar rfl rfl

theorem readOpening_advances
    {token : Token} (noScalar : [token].any isScalar = false)
    (isRead : before.readOpening token = some after) :
    before.Advances after := by
  obtain ⟨noted, isNoted, isRead⟩ := Option.bind_eq_some_iff.mp isRead
  obtain rfl := Option.some.inj isRead
  exact advances_of_skipping (keeps_of_noteKey isNoted).toStays noScalar rfl rfl

theorem readClosing_advances
    {token : Token} (noScalar : [token].any isScalar = false)
    (isRead : before.readClosing token = some after) :
    before.Advances after := by
  obtain ⟨free, isFree, isRead⟩ := Option.bind_eq_some_iff.mp isRead
  have stays := (keeps_of_dropKey isFree).toStays
  dsimp only at isRead
  split at isRead
  · obtain rfl := Option.some.inj isRead
    exact advances_of_skipping stays noScalar rfl rfl
  · obtain rfl := Option.some.inj isRead
    exact advances_of_skipping stays noScalar rfl rfl

theorem readFlowEntry_advances
    (isRead : before.readFlowEntry = some after) :
    before.Advances after := by
  obtain ⟨free, isFree, isRead⟩ := Option.bind_eq_some_iff.mp isRead
  obtain rfl := Option.some.inj isRead
  exact advances_of_skipping (keeps_of_dropKey isFree).toStays rfl rfl rfl

theorem readBlockEntry_advances
    (isRead : before.readBlockEntry = some after) :
    before.Advances after := by
  rw [readBlockEntry] at isRead
  obtain ⟨-, isRead⟩ := Option.ite_none_left_eq_some.mp isRead
  obtain ⟨free, isFree, isRead⟩ := Option.bind_eq_some_iff.mp isRead
  obtain rfl := Option.some.inj isRead
  refine advances_of_skipping (Stays.trans ?_ (keeps_of_dropKey isFree).toStays)
    rfl rfl rfl
  split
  · exact .refl before
  · exact before.openBlock_stays rfl

theorem readKeyMark_advances
    (isRead : before.readKeyMark = some after) :
    before.Advances after := by
  rw [readKeyMark] at isRead
  obtain ⟨-, isRead⟩ := Option.ite_none_left_eq_some.mp isRead
  obtain ⟨free, isFree, isRead⟩ := Option.bind_eq_some_iff.mp isRead
  obtain rfl := Option.some.inj isRead
  exact advances_of_skipping
    ((before.openBlock_stays rfl).trans (keeps_of_dropKey isFree).toStays)
    rfl rfl rfl

theorem readValueMark_advances
    (isRead : before.readValueMark = some after) :
    before.Advances after := by
  rw [readValueMark] at isRead
  split at isRead
  · rename_i key _
    dsimp only at isRead
    generalize before.opensBlock key.column = opens at isRead
    have fills : before.Stays
        (before.fill key.slot (if opens then [.blockMappingStart, .key] else [.key])) :=
      before.fill_stays key.slot (by cases opens <;> rfl)
    obtain rfl := Option.some.inj isRead
    refine advances_of_skipping ?_ rfl rfl rfl
    cases opens with
    | false => exact fills
    | true => exact fills.trans (stays_of_slots rfl rfl)
  · obtain ⟨-, isRead⟩ := Option.ite_none_left_eq_some.mp isRead
    obtain rfl := Option.some.inj isRead
    exact advances_of_skipping (before.openBlock_stays rfl) rfl rfl rfl

theorem readBlockScalar_advances
    {sign : Char} {isLiteral : Bool} (isSign : before.cursor.next? = some sign)
    (isBlock : sign ∈ ['|', '>']) (isRead : before.readBlockScalar isLiteral = some after) :
    before.Advances after := by
  obtain ⟨free, isFree, isRead⟩ := Option.bind_eq_some_iff.mp isRead
  obtain ⟨⟨text, behind⟩, isText, isRead⟩ := Option.bind_eq_some_iff.mp isRead
  obtain rfl := Option.some.inj isRead
  have keeps := keeps_of_dropKey isFree
  rw [keeps.isContext, keeps.isCursor] at isText
  exact advances_of_scalar keeps (.block isSign isBlock isText)
    ((readBlock_takes isSign isText).1.trans (List.tail_suffix _)) rfl rfl

theorem readQuotedScalar_advances
    {kind : QuoteKind} (isQuote : before.cursor.next? = some kind.char)
    (isRead : before.readQuotedScalar kind = some after) :
    before.Advances after := by
  obtain ⟨noted, isNoted, isRead⟩ := Option.bind_eq_some_iff.mp isRead
  obtain ⟨⟨text, behind⟩, isText, isRead⟩ := Option.bind_eq_some_iff.mp isRead
  obtain rfl := Option.some.inj isRead
  have keeps := keeps_of_noteKey isNoted
  rw [keeps.isCursor] at isText
  exact advances_of_scalar keeps (.quoted isQuote isText) (suffix_of_readQuoted isText) rfl rfl

theorem readPlainScalar_advances
    (starts : StartsPlain before.cursor.rest) (isRead : before.readPlainScalar = some after) :
    before.Advances after := by
  obtain ⟨noted, isNoted, isRead⟩ := Option.bind_eq_some_iff.mp isRead
  obtain ⟨plain, isPlain, isRead⟩ := Option.bind_eq_some_iff.mp isRead
  obtain rfl := Option.some.inj isRead
  have keeps := keeps_of_noteKey isNoted
  rw [keeps.isContext, keeps.isCursor] at isPlain
  exact advances_of_scalar keeps (.plain starts isPlain) (suffix_of_readPlain isPlain) rfl rfl

/-- Where a plain scalar is read, one can start. -/
theorem startsPlain_of_startsPlain
    {character : Char} {rest : List Char} (isRest : lexer.cursor.rest = character :: rest)
    (starts : lexer.startsPlain character = true)
    (notEntry : ¬(character = '-' && lexer.cursor.isGapAhead 1) = true) :
    StartsPlain lexer.cursor.rest := by
  have isVisible (notGap : lexer.cursor.isGapAhead 1 = false) :
      ∃ second ∈ rest.head?, isGap second = false := by
    rw [Cursor.isGapAhead_one isRest] at notGap
    cases isSecond : rest.head? with
    | none => exact nomatch isSecond ▸ notGap
    | some second => exact ⟨second, rfl, by simpa [isSecond] using notGap⟩
  simp only [Lexer.startsPlain, Bool.or_eq_true, Bool.and_eq_true, Bool.not_eq_true',
    decide_eq_true_eq] at starts
  rw [isRest]
  rcases starts with (⟨-, notIndicator⟩ | ⟨rfl, -⟩) | ⟨⟨-, isSign⟩, notGap⟩
  · exact Or.inl fun member =>
      Bool.false_ne_true (notIndicator.symm.trans (List.contains_iff_mem.mpr member))
  · rw [decide_eq_true rfl, Bool.true_and, Bool.not_eq_true] at notEntry
    exact Or.inr ⟨List.mem_cons_self, isVisible notEntry⟩
  · rcases isSign with rfl | rfl
    · exact Or.inr ⟨by decide, isVisible notGap⟩
    · exact Or.inr ⟨by decide, isVisible notGap⟩

theorem readToken_advances
    {character : Char} (isNext : before.cursor.next? = some character)
    (isRead : before.readToken character = some after) :
    before.Advances after := by
  obtain ⟨rest, isRest⟩ := Cursor.exists_rest_of_next? isNext
  rw [readToken] at isRead
  rcases ite_eq_iff.mp isRead with ⟨isPercent, isRead⟩ | ⟨-, isRead⟩
  · rw [Bool.and_eq_true, decide_eq_true_eq, decide_eq_true_eq] at isPercent
    exact readDirective_advances (isPercent.2 ▸ isNext) isRead
  rcases ite_eq_iff.mp isRead with ⟨-, isRead⟩ | ⟨-, isRead⟩
  · exact readDocumentMark_advances rfl isRead
  rcases ite_eq_iff.mp isRead with ⟨-, isRead⟩ | ⟨-, isRead⟩
  · exact readDocumentMark_advances rfl isRead
  rcases ite_eq_iff.mp isRead with ⟨-, isRead⟩ | ⟨-, isRead⟩
  · exact readOpening_advances rfl isRead
  rcases ite_eq_iff.mp isRead with ⟨-, isRead⟩ | ⟨-, isRead⟩
  · exact readOpening_advances rfl isRead
  rcases ite_eq_iff.mp isRead with ⟨-, isRead⟩ | ⟨-, isRead⟩
  · exact readClosing_advances rfl isRead
  rcases ite_eq_iff.mp isRead with ⟨-, isRead⟩ | ⟨-, isRead⟩
  · exact readClosing_advances rfl isRead
  rcases ite_eq_iff.mp isRead with ⟨-, isRead⟩ | ⟨-, isRead⟩
  · exact readFlowEntry_advances isRead
  rcases ite_eq_iff.mp isRead with ⟨-, isRead⟩ | ⟨notEntry, isRead⟩
  · exact readBlockEntry_advances isRead
  rcases ite_eq_iff.mp isRead with ⟨-, isRead⟩ | ⟨-, isRead⟩
  · exact readKeyMark_advances isRead
  rcases ite_eq_iff.mp isRead with ⟨-, isRead⟩ | ⟨-, isRead⟩
  · exact readValueMark_advances isRead
  rcases ite_eq_iff.mp isRead with ⟨-, isRead⟩ | ⟨-, isRead⟩
  · exact readAnchor_advances (fun _ => rfl) isRead
  rcases ite_eq_iff.mp isRead with ⟨-, isRead⟩ | ⟨-, isRead⟩
  · exact readAnchor_advances (fun _ => rfl) isRead
  rcases ite_eq_iff.mp isRead with ⟨-, isRead⟩ | ⟨-, isRead⟩
  · exact readTag_advances isRead
  rcases ite_eq_iff.mp isRead with ⟨isSign, isRead⟩ | ⟨-, isRead⟩
  · rw [Bool.and_eq_true, decide_eq_true_eq] at isSign
    exact readBlockScalar_advances isNext (by simp [isSign.1]) isRead
  rcases ite_eq_iff.mp isRead with ⟨isSign, isRead⟩ | ⟨-, isRead⟩
  · rw [Bool.and_eq_true, decide_eq_true_eq] at isSign
    exact readBlockScalar_advances isNext (by simp [isSign.1]) isRead
  rcases ite_eq_iff.mp isRead with ⟨isQuote, isRead⟩ | ⟨-, isRead⟩
  · exact readQuotedScalar_advances (by rw [isNext, isQuote]; rfl) isRead
  rcases ite_eq_iff.mp isRead with ⟨isQuote, isRead⟩ | ⟨-, isRead⟩
  · exact readQuotedScalar_advances (by rw [isNext, isQuote]; rfl) isRead
  obtain ⟨starts, isRead⟩ := Option.ite_none_right_eq_some.mp isRead
  exact readPlainScalar_advances (startsPlain_of_startsPlain isRest starts notEntry) isRead

/-! ## Runs -/

theorem suffix_of_comment
    (cursor : Cursor) :
    (if cursor.isAhead 0 '#' then cursor.skipLine else cursor).rest <:+ cursor.rest := by
  split
  · exact cursor.suffix_skipMany _
  · exact List.suffix_rfl

/-- What stands before a token is skipped. Nothing else changes but that a key may start. -/
theorem exists_skipBlanks
    (fuel : Nat) (lexer : Lexer) :
    ∃ cursor keyAllowed, cursor.rest <:+ lexer.cursor.rest ∧
      skipBlanks fuel lexer = { lexer with cursor, keyAllowed } := by
  induction fuel generalizing lexer with
  | zero => exact ⟨lexer.cursor, lexer.keyAllowed, List.suffix_rfl, rfl⟩
  | succ fuel inductionHypothesis =>
      rw [skipBlanks]
      generalize isMark :
        (if lexer.cursor.offset = 0 && lexer.cursor.isAhead 0 (Char.ofNat 0xFEFF) then
          lexer.cursor.skip
        else lexer.cursor) = cursor
      have toCursor : cursor.rest <:+ lexer.cursor.rest := by
        rw [← isMark]
        split
        · exact lexer.cursor.suffix_skip
        · exact List.suffix_rfl
      generalize isBlank : (cursor.skipWhile fun character =>
        character = ' ' || ((lexer.isFlow || !lexer.keyAllowed) && character = '\t')) = blank
      have toBlank : blank.rest <:+ lexer.cursor.rest :=
        isBlank ▸ (Cursor.suffix_skipMany _ _).trans toCursor
      have toLine := (suffix_of_comment blank).trans toBlank
      generalize (if blank.isAhead 0 '#' then blank.skipLine else blank) = line at toLine ⊢
      split
      · obtain ⟨behind, keyAllowed, isLeft, isSkipped⟩ := inductionHypothesis
          { lexer with cursor := line.skipBreak, keyAllowed := lexer.keyAllowed || !lexer.isFlow }
        exact ⟨behind, keyAllowed, (isLeft.trans line.suffix_skipBreak).trans toLine, isSkipped⟩
      · exact ⟨line, lexer.keyAllowed, toLine, rfl⟩

/-- A space before a token is skipped. -/
theorem skipBlanks_space
    {rest : List Char} (isRest : lexer.cursor.rest = ' ' :: rest) (fuel : Nat) :
    (skipBlanks (fuel + 1) lexer).cursor.rest <:+ rest := by
  have noMark : lexer.cursor.isAhead 0 (Char.ofNat 0xFEFF) = false := by
    rw [Cursor.isAhead_zero, isRest]
    rfl
  rw [skipBlanks, noMark, Bool.and_false, if_neg Bool.false_ne_true]
  generalize isBlank : (lexer.cursor.skipWhile fun character =>
    character = ' ' || ((lexer.isFlow || !lexer.keyAllowed) && character = '\t')) = blank
  have toBlank : blank.rest <:+ rest := by
    rw [← isBlank, Cursor.rest_skipWhile, isRest, List.dropWhile_cons_of_pos rfl]
    exact List.dropWhile_suffix _
  have toLine := (suffix_of_comment blank).trans toBlank
  generalize (if blank.isAhead 0 '#' then blank.skipLine else blank) = line at toLine ⊢
  split
  · obtain ⟨behind, keyAllowed, isLeft, isSkipped⟩ := exists_skipBlanks fuel
      { lexer with cursor := line.skipBreak, keyAllowed := lexer.keyAllowed || !lexer.isFlow }
    rw [isSkipped]
    exact (isLeft.trans line.suffix_skipBreak).trans toLine
  · exact toLine

/-- The state in which the next token is read. -/
def ready? (lexer : Lexer) : Option Lexer :=
  (skipBlanks (lexer.cursor.rest.length + 1) lexer).refreshKeys.map fun ready =>
    ready.closeBlocks ready.cursor.column

theorem readAll_succ
    (fuel : Nat) (lexer : Lexer) :
    readAll (fuel + 1) lexer = lexer.ready?.bind fun ready =>
      match ready.cursor.next? with
      | none => (ready.closeBlocks (-1)).dropKey
      | some character => (ready.readToken character).bind (readAll fuel) := by
  rw [readAll, ready?, Option.bind_map]
  rfl

theorem scalars_of_ready?
    {ready : Lexer} {isPlain : Bool} {found : String} (isReady : lexer.ready? = some ready)
    (isFound : .scalar isPlain found ∈ ready.tokens) :
    .scalar isPlain found ∈ lexer.tokens := by
  obtain ⟨refreshed, isRefreshed, rfl⟩ := Option.map_eq_some_iff.mp isReady
  obtain ⟨cursor, keyAllowed, -, isSkipped⟩ :=
    exists_skipBlanks (lexer.cursor.rest.length + 1) lexer
  rw [isSkipped] at isRefreshed
  have stays := (keeps_of_refreshKeys isRefreshed).toStays.trans
    (refreshed.closeBlocks_stays refreshed.cursor.column)
  exact stays.scalars isPlain found isFound

/-- A scalar among the tokens that are read is there already, or it is read in a state of which
holds what holds wherever a token is read. -/
theorem exists_reading
    {holds : Lexer → Prop} {fuel : Nat} {last : Lexer} {isPlain : Bool} {found : String}
    (onwards : ∀ {before after ready character}, holds before →
      before.cursor.next? = some character → before.readToken character = some after →
      after.ready? = some ready → holds ready)
    (atStart : ∀ ready, lexer.ready? = some ready → holds ready)
    (isRead : readAll fuel lexer = some last) (isFound : .scalar isPlain found ∈ last.tokens) :
    .scalar isPlain found ∈ lexer.tokens ∨
      ∃ reading : Lexer, holds reading ∧ reading.ReadsScalar found.toList := by
  induction fuel generalizing lexer with
  | zero => exact nomatch isRead
  | succ fuel inductionHypothesis =>
      rw [readAll_succ] at isRead
      obtain ⟨ready, isReady, isRead⟩ := Option.bind_eq_some_iff.mp isRead
      have holdsReady := atStart ready isReady
      split at isRead
      · have stays := (ready.closeBlocks_stays (-1)).trans (keeps_of_dropKey isRead).toStays
        exact Or.inl (scalars_of_ready? isReady (stays.scalars isPlain found isFound))
      · rename_i character isNext
        obtain ⟨after, isAfter, isRead⟩ := Option.bind_eq_some_iff.mp isRead
        rcases inductionHypothesis (fun _ => onwards holdsReady isNext isAfter) isRead with
          isToken | isReading
        · rcases (readToken_advances isNext isAfter).scalars isPlain found isToken with
            isBefore | isHere
          · exact Or.inl (scalars_of_ready? isReady isBefore)
          · exact Or.inr ⟨ready, holdsReady, isHere⟩
        · exact Or.inr isReading

/-! ## Where tokens are read -/

/-- A state in a text, with the blocks and brackets of a context if nothing of it was taken. -/
structure Within (text : List Char) (context : Context) (lexer : Lexer) : Prop where
  isLeft : lexer.cursor.rest <:+ text
  isContext : lexer.context = context ∨ lexer.cursor.rest <:+ text.tail

variable {text : List Char} {context : Context}

theorem suffix_tail
    {behind whole : List Char} (isLeft : behind <:+ whole) :
    behind.tail <:+ whole.tail := by
  obtain ⟨front, rfl⟩ := isLeft
  cases front with
  | nil => exact List.suffix_rfl
  | cons first front => exact (List.tail_suffix _).trans (List.suffix_append _ _)

theorem Within.of_suffix
    (within : lexer.Within text context) (isLeft : after.cursor.rest <:+ lexer.cursor.rest)
    (isContext : after.context = lexer.context ∨ after.cursor.rest <:+ lexer.cursor.rest.tail) :
    after.Within text context := by
  refine ⟨isLeft.trans within.isLeft, ?_⟩
  rcases within.isContext with isSame | isBehind
  · rcases isContext with isSameToo | isBehindToo
    · exact Or.inl (isSameToo.trans isSame)
    · exact Or.inr (isBehindToo.trans (suffix_tail within.isLeft))
  · exact Or.inr (isLeft.trans isBehind)

theorem closeBlocks_eq_self
    {column : Int} (isRight : lexer.indent ≤ column) :
    lexer.closeBlocks column = lexer := by
  rw [closeBlocks, closeBlocksWithin, if_neg]
  simp [Int.not_lt.mpr isRight]

/-- The blocks right of the column are closed before a token. -/
theorem Within.closeBlocks
    (within : lexer.Within text context) (isOpen : context.indent ≤ 0) (column : Nat) :
    (lexer.closeBlocks column).Within text context := by
  have isCursor := (lexer.closeBlocks_stays column).isCursor
  rcases within.isContext with isSame | isBehind
  · have isIndent : lexer.indent ≤ column := by
      rw [show lexer.indent = context.indent from congrArg Context.indent isSame]
      omega
    rw [closeBlocks_eq_self isIndent]
    exact within
  · exact ⟨isCursor ▸ within.isLeft, Or.inr (isCursor ▸ isBehind)⟩

theorem Within.ready
    {ready : Lexer}
    (within : (skipBlanks (lexer.cursor.rest.length + 1) lexer).Within text context)
    (isOpen : context.indent ≤ 0) (isReady : lexer.ready? = some ready) :
    ready.Within text context := by
  obtain ⟨refreshed, isRefreshed, rfl⟩ := Option.map_eq_some_iff.mp isReady
  have keeps := keeps_of_refreshKeys isRefreshed
  exact (within.of_suffix (keeps.isCursor ▸ List.suffix_rfl) (Or.inl keeps.isContext)
    ).closeBlocks isOpen _

/-- The blocks and brackets are others only behind the first character of a text. -/
theorem Within.onwards
    {ready : Lexer} {character : Char} (within : before.Within text context)
    (isOpen : context.indent ≤ 0) (isNext : before.cursor.next? = some character)
    (isRead : before.readToken character = some after) (isReady : after.ready? = some ready) :
    ready.Within text context := by
  have advances := readToken_advances isNext isRead
  have withinAfter := within.of_suffix advances.isLeft advances.isContext
  obtain ⟨cursor, keyAllowed, isLeft, isSkipped⟩ :=
    exists_skipBlanks (after.cursor.rest.length + 1) after
  refine Within.ready ?_ isOpen isReady
  rw [isSkipped]
  exact withinAfter.of_suffix isLeft (Or.inl rfl)

end Pipework.Yaml.Lexer
