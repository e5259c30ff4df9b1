import Pipework.CommandLine
import Pipework.Proofs.Project.Settings
import Pipework.Proofs.Project.Start
import Pipework.Proofs.Workspace.Batch
import Pipework.Proofs.Yaml.Nesting
import Pipework.Proofs.Yaml.Node

/-!
# The names that the first settings keep

The text of a new project's settings is read back as the settings of its name exactly when the
name is plain (`Settings.ofText_initialText_iff`). The text that is found as the name was read
somewhere behind its key. A quoted or block scalar there is too short to be the name, and so is
a plain one that is not the words of a line. So a project that was started opens as the one of its
name exactly when the name is plain (`CommandLine.load_init_iff`).
-/

namespace Pipework.Settings

open Yaml
open Yaml.Lexer (IsKey Nested Progress Reads ReadsScalar Stands Within entryText marks)

/-! ## What stands behind a name -/

/-- What stands behind a name, from the end of its line on. -/
def behindName : List Char := '\n' :: '\n' :: initialRest

/-- What stands behind the sign of the comment below a name. -/
def behindSign : List Char := initialRest.tail

theorem behindName_eq :
    behindName = ['\n', '\n'] ++ '#' :: behindSign := by
  decide +kernel

theorem isLineByLine_behindName :
    IsLineByLine behindName := by
  rw [behindName, initialRest]
  decide +kernel

theorem notMark_of_mem_behindName
    {character : Char} (member : character ∈ behindName) :
    character ∉ marks := by
  have noMarks : behindName.any marks.contains = false := by decide +kernel
  exact fun isMark =>
    List.any_eq_false.mp noMarks character member (List.contains_iff_mem.mpr isMark)

theorem notMark_of_isGap
    {character : Char} (isGapHere : isGap character = true) :
    character ∉ marks := by
  have noGaps : marks.any isGap = false := by decide
  exact fun isMark => List.any_eq_false.mp noGaps character isMark isGapHere

variable {name front rest : List Char} {lexer : Lexer}

/-- A place behind a key is in its name or behind that. -/
theorem behindName_or_exists_front
    (isLeft : rest <:+ name ++ behindName) :
    rest <:+ behindName ∨ ∃ front, front <:+ name ∧ rest = front ++ behindName := by
  rcases List.suffix_or_suffix_of_suffix isLeft (List.suffix_append name behindName) with
    isBehind | ⟨front, rfl⟩
  · exact Or.inl isBehind
  · obtain ⟨before, isName⟩ := isLeft
    rw [← List.append_assoc] at isName
    exact Or.inr ⟨front, ⟨before, List.append_cancel_right isName⟩, rfl⟩

/-! ## Where a name is read -/

/-- Behind the key of the name. -/
theorem exists_reads_name
    (name : String) :
    ∃ next, Reads 2 (Lexer.start (initialText name).toList) next ∧
      next.Stands
        ⟨[.value] :: [.scalar true "name"] :: [.blockMappingStart, .key] :: [], (0 : Nat), [-1],
          none⟩ false (' ' :: (name.toList ++ behindName)) 5 := by
  have isName : IsKey "name" := by decide
  have stands := Stands.start (initialText name).toList
  rw [toList_initialText] at stands
  obtain ⟨next, toNext, standsNext⟩ := Lexer.exists_reads_key isName
    (stands.skipBlanks_next (by decide) (isName.noMark _) (isName.startsToken _)) rfl
    (fun _ isNext => Option.some.inj isNext ▸ rfl) (by decide)
  rw [Progress.start, Progress.withKey_close_of_lt (by decide)] at standsNext
  rw [toList_initialText]
  exact ⟨next, toNext, standsNext⟩

/-- A place where a token of the name is read, or one behind it. -/
structure ReadsName (name : List Char) (lexer : Lexer) : Prop where
  within : lexer.Within (name ++ behindName) ⟨0, 0⟩
  nested : (∀ character ∈ name, character ∉ marks) → lexer.Nested

theorem ReadsName.onwards
    {before after ready : Lexer} {character : Char} (reads : ReadsName name before)
    (isNext : before.cursor.next? = some character)
    (isRead : before.readToken character = some after) (isReady : after.ready? = some ready) :
    ReadsName name ready := by
  refine ⟨reads.within.onwards (Int.le_refl 0) isNext isRead isReady, fun noMarks => ?_⟩
  refine (reads.nested noMarks).onwards (fun other member => ?_) isNext isRead isReady
  rcases List.mem_append.mp (reads.within.isLeft.subset member) with inName | isBehind
  · exact noMarks other inName
  · exact notMark_of_mem_behindName isBehind

theorem ReadsName.start
    {ready : Lexer} {progress : Progress} {column : Nat}
    (stands : lexer.Stands progress false (' ' :: (name ++ behindName)) column)
    (isIndent : progress.indent = 0) (isReady : lexer.ready? = some ready) :
    ReadsName name ready := by
  have noBrackets : lexer.flowLevel = 0 := congrArg List.length stands.noBrackets
  have isIndentHere := stands.isIndent.trans isIndent
  have isContext : lexer.context = ⟨0, 0⟩ := by rw [Lexer.context, noBrackets, isIndentHere]
  obtain ⟨cursor, keyAllowed, -, isSkipped⟩ :=
    Lexer.exists_skipBlanks (lexer.cursor.rest.length + 1) lexer
  refine ⟨Within.ready ⟨Lexer.skipBlanks_space stands.isRest _, ?_⟩ (Int.le_refl 0) isReady,
    fun _ => Nested.ready ⟨noBrackets, lexer.outer, ?_⟩ isReady⟩
  · rw [isSkipped]
    exact Or.inl isContext
  · rw [isIndentHere]
    exact List.dropWhile_cons_of_neg (by decide)

/-- Tokens are those of the state in which the whole text is read. -/
theorem exists_readAll_of_tokensOf?
    {text : List Char} {tokens : List Token} (areTokens : tokensOf? text = some tokens) :
    text.all isAllowed = true ∧
      ∃ last, Lexer.readAll (text.length + 2) (Lexer.start text) = some last ∧
        last.tokens = tokens := by
  rw [tokensOf?] at areTokens
  obtain ⟨areAllowed, isRead⟩ := Option.ite_none_right_eq_some.mp areTokens
  exact ⟨areAllowed, Option.map_eq_some_iff.mp isRead⟩

/-- Behind the key, a text that is found is the key or was read there. -/
theorem exists_reading_of_stands
    {name found : String} {next last : Lexer} {fuel : Nat} {isPlain : Bool}
    (stands : next.Stands
        ⟨[.value] :: [.scalar true "name"] :: [.blockMappingStart, .key] :: [], (0 : Nat), [-1],
          none⟩ false (' ' :: (name.toList ++ behindName)) 5)
    (isRead : Lexer.readAll fuel next = some last)
    (isFound : .scalar isPlain found ∈ last.tokens) :
    found = "name" ∨
      ∃ reading, ReadsName name.toList reading ∧ reading.ReadsScalar found.toList := by
  rcases Lexer.exists_reading ReadsName.onwards (fun _ => ReadsName.start stands rfl) isRead
    isFound with isToken | isReading
  · rw [Lexer.tokens, stands.isSlots] at isToken
    have isKey : isPlain = true ∧ found = "name" := by simpa using isToken
    exact Or.inl isKey.2
  · exact Or.inr isReading

/-- A text that is found behind the key of the name was read there. -/
theorem exists_reading
    {name found : String} {tokens : List Token} {isPlain : Bool}
    (areTokens : tokensOf? (initialText name).toList = some tokens)
    (isFound : .scalar isPlain found ∈ tokens) :
    found = "name" ∨
      ∃ reading, ReadsName name.toList reading ∧ reading.ReadsScalar found.toList := by
  obtain ⟨-, last, isRead, rfl⟩ := exists_readAll_of_tokensOf? areTokens
  obtain ⟨next, toNext, stands⟩ := exists_reads_name name
  rw [toNext] at isRead
  exact exists_reading_of_stands stands isRead isFound

/-! ## What is read as a name -/

/-- No quoted scalar is the name with its quotes. -/
theorem not_readQuoted
    {kind : QuoteKind} {behind : Cursor} (isLeft : lexer.cursor.rest <:+ name ++ behindName)
    (isNext : lexer.cursor.next? = some kind.char) :
    readQuoted kind lexer.cursor ≠ some (name, behind) := by
  intro isRead
  obtain ⟨isEnd, isShort⟩ := readQuoted_takes isRead
  have isMark : kind.char ∈ marks := by cases kind <;> decide
  rcases behindName_or_exists_front isLeft with isBehind | ⟨front, ⟨before, rfl⟩, isRest⟩
  · exact notMark_of_mem_behindName (isBehind.subset (List.mem_of_mem_head? isNext)) isMark
  · have isEndToo : kind.char :: behind.rest <:+ front ++ behindName :=
      isRest ▸ isEnd.trans (List.tail_suffix _)
    rcases behindName_or_exists_front isEndToo with isBehind | ⟨quoted, -, isQuoted⟩
    · exact notMark_of_mem_behindName (isBehind.subset List.mem_cons_self) isMark
    · have isLength := congrArg List.length isQuoted
      simp only [isRest, List.length_tail, List.length_append, List.length_cons]
        at isShort isLength
      omega

/-- No block scalar is the name with its sign. -/
theorem eq_nil_of_readBlock
    {sign : Char} {isLiteral : Bool} {behind : Cursor}
    (isLeft : lexer.cursor.rest <:+ name ++ behindName)
    (isNext : lexer.cursor.next? = some sign) (isBlock : sign ∈ ['|', '>'])
    (isRead : readBlock isLiteral lexer.context lexer.cursor = some (name, behind)) :
    name = [] := by
  obtain ⟨-, staysBefore, isShort⟩ := readBlock_takes isNext isRead
  refine isShort.resolve_right fun isShort => ?_
  have isMark : sign ∈ marks := by
    rcases List.mem_pair.mp isBlock with rfl | rfl <;> decide
  obtain ⟨rest, isRest⟩ := Cursor.exists_rest_of_next? isNext
  rcases behindName_or_exists_front isLeft with isBehind | ⟨front, ⟨before, rfl⟩, isFront⟩
  · exact notMark_of_mem_behindName (isBehind.subset (List.mem_of_mem_head? isNext)) isMark
  · cases front with
    | nil =>
        have isBehind : lexer.cursor.rest = behindName := isFront
        exact notMark_of_mem_behindName (isBehind ▸ List.mem_of_mem_head? isNext) isMark
    | cons first front =>
        have inFront : lexer.cursor.skip.InFront behindSign := by
          rw [Cursor.InFront, Cursor.rest_skip (isFront.trans (List.cons_append ..)),
            behindName_eq]
          exact (List.suffix_cons '\n' _).trans (List.suffix_append front _)
        have isLong := (staysBefore behindSign inFront).length_lt
        simp only [isFront, behindName_eq, List.length_append, List.length_cons, List.length_nil]
          at isShort
        omega

theorem startsPlain_of_append
    (areWords : PlainWords name) (starts : StartsPlain (name ++ '\n' :: rest)) :
    StartsPlain name := by
  obtain ⟨first, others, rfl, -⟩ := areWords.exists_visible
  refine starts.imp_right fun ⟨isMark, second, isSecond, isVisible⟩ => ⟨isMark, second, ?_, isVisible⟩
  cases others with
  | nil =>
      obtain rfl := Option.some.inj isSecond
      exact nomatch isVisible
  | cons other others => exact isSecond

/-- Behind a name only a character that is no indicator starts a plain scalar. -/
theorem startsPlain_of_behindName
    (isBehind : rest <:+ behindName) (starts : StartsPlain rest) (isHead : name.head? = rest.head?) :
    StartsPlain name := by
  cases rest with
  | nil => exact starts.elim
  | cons first others =>
      obtain ⟨others, rfl⟩ := List.head?_eq_some_iff.mp isHead
      refine Or.inl (starts.resolve_right ?_)
      rintro ⟨isMark, second, isSecond, isVisible⟩
      have notMark := notMark_of_mem_behindName (isBehind.subset List.mem_cons_self)
      simp only [List.mem_cons, List.not_mem_nil, or_false] at isMark
      rcases isMark with rfl | rfl | rfl
      · exact notMark (by decide)
      · exact notMark (by decide)
      · have isSign := isLineByLine_behindName.isSign _ isBehind rfl
        exact Bool.false_ne_true
          (isVisible.symm.trans ((Option.all_eq_true _ _).mp isSign second isSecond))

/-- What is read as a plain scalar and is the name is nothing or a plain line. -/
theorem isPlainLine_of_readPlain
    {plain : PlainScalar} (reads : ReadsName plain.text lexer)
    (starts : StartsPlain lexer.cursor.rest)
    (isRead : readPlain lexer.context lexer.cursor = some plain) :
    plain.text = [] ∨ IsPlainLine plain.text := by
  refine (readPlain_takes isRead).imp And.left fun ⟨taken, rest, takes, _⟩ => ?_
  rcases behindName_or_exists_front reads.within.isLeft with isBehind | ⟨front, isFront, isRest⟩
  · have noMarks : ∀ character ∈ plain.text, character ∉ marks := by
      intro character member
      rcases takes.folds.isGap_or_mem character member with isGapHere | inTaken
      · exact notMark_of_isGap isGapHere
      · have inRest := takes.isStart ▸ List.mem_append_left rest inTaken
        exact notMark_of_mem_behindName (isBehind.subset inRest)
    have isNested := (reads.nested noMarks).onwardsColumn_ne_zero
    exact ⟨startsPlain_of_behindName isBehind starts takes.head?_eq,
      takes.plainWords_of_isLineByLine isNested isLineByLine_behindName isBehind⟩
  · have isGapHere : isGap '\n' = true := by decide
    have areGaps : ∀ character ∈ ['\n', '\n'], isGap character = true :=
      List.forall_mem_cons.mpr ⟨isGapHere, List.forall_mem_singleton.mpr isGapHere⟩
    rw [behindName_eq] at isRest
    have isLength := takes.length_le_of_comment isRest areGaps (List.cons_ne_nil _ _)
    obtain rfl := isFront.eq_of_length_le isLength
    have isContext : lexer.context = ⟨0, 0⟩ := by
      refine reads.within.isContext.resolve_right fun isTail => ?_
      have isShort := isTail.length_le
      rw [isRest, ← behindName_eq, List.length_tail, behindName_eq] at isShort
      simp only [List.length_append, List.length_cons] at isShort
      omega
    have areWords := takes.plainWords_of_comment (by rw [isContext]; decide) isRest areGaps
      (List.cons_ne_nil _ _)
    exact ⟨startsPlain_of_append areWords (isRest ▸ starts), areWords⟩

/-- A name that is read in its settings is plain. -/
theorem isPlainLine_of_readsScalar
    (reads : ReadsName name lexer) (isRead : lexer.ReadsScalar name) :
    name = [] ∨ IsPlainLine name := by
  have isLeft := reads.within.isLeft
  cases isRead with
  | plain starts isRead => exact isPlainLine_of_readPlain reads starts isRead
  | quoted isQuote isRead => exact absurd isRead (not_readQuoted isLeft isQuote)
  | block isSign isBlock isRead => exact Or.inl (eq_nil_of_readBlock isLeft isSign isBlock isRead)

/-! ## The settings -/

/-- Settings have a text of their document for a name. -/
theorem hasText_of_ofNode?
    {node : Yaml.Node} {settings : Settings} (isRead : ofNode? node = some settings) :
    node.HasText settings.name := by
  obtain ⟨members, areMembers, isRead⟩ := Option.bind_eq_some_iff.mp isRead
  obtain ⟨name, isName, isRead⟩ := Option.bind_eq_some_iff.mp isRead
  obtain ⟨_, -, isRead⟩ := Option.bind_eq_some_iff.mp isRead
  obtain ⟨_, -, isRead⟩ := Option.bind_eq_some_iff.mp isRead
  obtain ⟨_, -, isRead⟩ := Option.bind_eq_some_iff.mp isRead
  obtain ⟨_, -, isRead⟩ := Option.bind_eq_some_iff.mp isRead
  obtain rfl := Option.some.inj isRead
  exact Yaml.Node.hasText_of_requiredMember areMembers isName

/-- The name of settings that are read is nothing, or a scalar among the tokens. -/
theorem exists_tokens_of_ofText
    {text : String} {settings : Settings} (isRead : ofText text = .ok settings) :
    ∃ tokens, tokensOf? text.toList = some tokens ∧
      (settings.name = "" ∨ ∃ isPlain, .scalar isPlain settings.name ∈ tokens) := by
  rw [ofText] at isRead
  split at isRead
  · rename_i found isFound
    obtain rfl := Except.ok.inj isRead
    obtain ⟨root, isRoot, isNode⟩ := Option.bind_eq_some_iff.mp isFound
    obtain ⟨tokens, areTokens, -⟩ := Option.bind_eq_some_iff.mp isRoot
    exact ⟨tokens, areTokens,
      Yaml.Node.mem_tokens_of_hasText areTokens isRoot (hasText_of_ofNode? isNode)⟩
  · cases isRead

/-- The first settings of a project are those of its name exactly when the name is plain. -/
theorem ofText_initialText_iff
    (name : String) :
    ofText (initialText name) = .ok (ofName name) ↔ IsPlainName name := by
  refine ⟨fun isRead => ?_, ofText_initialText⟩
  obtain ⟨tokens, areTokens, isName⟩ := exists_tokens_of_ofText isRead
  rcases isName with isEmpty | ⟨isPlain, isFound⟩
  · exact Or.inl isEmpty
  have areAllowed := (exists_readAll_of_tokensOf? areTokens).1
  rw [all_isAllowed_initialText] at areAllowed
  rcases exists_reading areTokens isFound with isKey | ⟨reading, reads, isReading⟩
  · obtain rfl : name = "name" := isKey
    exact Or.inr ⟨by decide, isPlainLine_of_word (by decide) (by decide)⟩
  rcases isPlainLine_of_readsScalar reads isReading with isEmpty | isLine
  · exact Or.inl (String.toList_eq_nil_iff.mp isEmpty)
  · exact Or.inr ⟨areAllowed, isLine⟩

end Pipework.Settings

namespace Pipework.Project

/-- Where the first settings of a name are found, they are its own exactly when the name is
plain. -/
theorem load_eq_ofName_iff
    {tree : FileTree} {path file directory name : String}
    (isPlace : places tree path = (file, directory))
    (isRead : tree.readText file = .ok (Settings.initialText name)) :
    load tree path = .ok ⟨Settings.ofName name, directory⟩ ↔ Settings.IsPlainName name := by
  rw [load_of_readText isPlace isRead, map_eq_ok_iff, ← Settings.ofText_initialText_iff]
  constructor
  · rintro ⟨settings, isSettings, same⟩
    rw [isSettings, (Project.mk.inj same).1]
  · intro isSettings
    exact ⟨_, isSettings, rfl⟩

end Pipework.Project

namespace Pipework.CommandLine

variable {surroundings : Surroundings} {tree : FileTree} {config path : String}
  {name? : Option String}

/-- A project that is started opens with its name and the default settings exactly when the name is
plain, by every path that leads to its settings. -/
theorem load_init_iff
    (endsWell : ((Command.init path name?).perform surroundings tree config).run.status.code = 0) :
    let final := ((Command.init path name?).perform surroundings tree config).run.tree
    ∃ place name, final.canonical path = .ok place ∧
      (name? <|> place.getLast?) = some name ∧
      Project.places final path = (Path.join path Project.settingsFile, path) ∧
      ∀ other file directory, Project.places final other = (file, directory) →
        final.locate file = final.locate (Path.join path Project.settingsFile) →
        (Project.load final other = .ok ⟨Settings.ofName name, directory⟩ ↔
          Settings.IsPlainName name) := by
  intro final
  have isDone : Project.start tree path name? = (.ok (), final) := by
    refine Prod.ext (Workspace.code_run_ofChange _ |>.mp endsWell) ?_
    exact (Workspace.tree_run_ofChange _).symm
  obtain ⟨place, name, isPlace, named, isDirectory, isRead⟩ := Project.readText_of_start isDone
  refine ⟨place, name, isPlace, named, if_pos isDirectory, ?_⟩
  intro other file directory isFile same
  exact Project.load_eq_ofName_iff isFile ((FileTree.readText_congr same).trans isRead)

/-- A name with a blank in it is kept, and one with a colon before a blank is not. -/
theorem load_init_blank_and_colon :
    let surroundings : Surroundings := ⟨fun _ _ => .error .notFound, .ok "", none⟩
    let started (name : String) := ((Command.init "." (some name)).perform surroundings
      Workspace.noFiles "chanweave.yaml").run
    (started "my project").status.code = 0 ∧ Settings.IsPlainName "my project" ∧
      Project.load (started "my project").tree "." = .ok ⟨Settings.ofName "my project", "."⟩ ∧
      (started "a: b").status.code = 0 ∧
      Project.load (started "a: b").tree "." ≠ .ok ⟨Settings.ofName "a: b", "."⟩ ∧
      ¬ Settings.IsPlainName "a: b" := by
  intro surroundings started
  have endsWell : (started "my project").status.code = 0 := by decide +kernel
  have isPlain : Settings.IsPlainName "my project" := by
    refine Or.inr ⟨by decide, ⟨Or.inl (by decide), ?_⟩⟩
    have isText : "my project".toList =
        ['m', 'y'] ++ ([' '] ++ ['p', 'r', 'o', 'j', 'e', 'c', 't']) := by decide
    rw [isText]
    exact .more (by decide) (by decide) (List.forall_mem_singleton.mpr rfl) (by decide)
      (.one (by decide))
  obtain ⟨place, name, _, named, isPlaces, loads⟩ := load_init_iff endsWell
  obtain rfl := Option.some.inj named
  have colonEndsWell : (started "a: b").status.code = 0 := by decide +kernel
  have notPlain : ¬ Settings.IsPlainName "a: b" := by
    rintro (isEmpty | ⟨_, isLine⟩)
    · exact absurd isEmpty (by decide)
    · have isText : "a: b".toList = ['a'] ++ ':' :: ' ' :: ['b'] := by decide
      have areWords := isLine.words
      rw [isText] at areWords
      exact absurd areWords.visible_of_colon (by decide)
  obtain ⟨place, name, _, named, isColonPlaces, loadsColon⟩ := load_init_iff colonEndsWell
  obtain rfl := Option.some.inj named
  exact ⟨endsWell, isPlain, (loads "." _ _ isPlaces rfl).mpr isPlain, colonEndsWell,
    fun isKept => notPlain ((loadsColon "." _ _ isColonPlaces rfl).mp isKept), notPlain⟩

end Pipework.CommandLine
