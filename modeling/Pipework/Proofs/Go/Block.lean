import Mathlib.Data.List.Basic
import Pipework.Part.Basic

/-!
# Go statements

The code of a part is text. `Go.Block` is Go code as statements, in which what a user wrote is
kept apart from everything else; it can be printed, and asked which channels it sends to and which
ones it receives from until they are closed. `Go.words` finds the words of a text, so that a
channel can be looked for in the text itself: a send or a receive names its channel.
-/

namespace Pipework.Go

/-! ## Words of a text -/

/-- The words of a text: its longest stretches of ASCII letters, digits and underscores. -/
def words (text : List Char) : List String :=
  ((text.splitOnP fun character => !isNamePart character).filter fun word => !word.isEmpty).map
    String.ofList

/-- A text that is one word. -/
def IsWord (text : String) : Prop := text ≠ "" ∧ text.toList.all isNamePart = true

instance (text : String) : Decidable (IsWord text) :=
  inferInstanceAs (Decidable (text ≠ "" ∧ text.toList.all isNamePart = true))

section Words

theorem words_append_cons
    (front back : List Char) {between : Char} (outside : isNamePart between = false) :
    words (front ++ between :: back) = words front ++ words back := by
  rw [words, List.splitOnP_append_cons front back (by rw [outside]; rfl), List.filter_append,
    List.map_append]
  rfl

theorem words_cons
    (text : List Char) {first : Char} (outside : isNamePart first = false) :
    words (first :: text) = words text :=
  words_append_cons [] text outside

theorem words_of_isWord
    {word : String} (isWord : IsWord word) :
    words word.toList = [word] := by
  have inside : ∀ character ∈ word.toList, (!isNamePart character) = false := by
    intro character member
    rw [List.all_eq_true.mp isWord.2 character member]
    rfl
  have nonempty : word.toList.isEmpty = false := by
    rw [List.isEmpty_eq_false_iff, ne_eq, String.toList_eq_nil_iff]
    exact isWord.1
  rw [words, List.splitOnP_eq_singleton inside, List.filter_cons_of_pos (by rw [nonempty]; rfl)]
  exact congrArg (· :: []) String.ofList_toList

theorem words_word_append
    {word : String} (isWord : IsWord word) (text : List Char) {between : Char}
    (outside : isNamePart between = false) :
    words (word.toList ++ between :: text) = word :: words text := by
  rw [words_append_cons _ _ outside, words_of_isWord isWord, List.singleton_append]

theorem words_intercalate
    {items : List String} (areWords : ∀ item ∈ items, IsWord item) (text : List Char)
    {between : Char} (outside : isNamePart between = false) :
    words ((String.intercalate ", " items).toList ++ between :: text) = items ++ words text := by
  induction items with
  | nil => exact words_cons text outside
  | cons first rest inductionHypothesis =>
      have firstIsWord := areWords first List.mem_cons_self
      have restAreWords := fun item member => areWords item (List.mem_cons_of_mem first member)
      cases rest with
      | nil =>
          rw [String.intercalate_singleton]
          exact words_word_append firstIsWord text outside
      | cons second more =>
          have unfolded : (String.intercalate ", " (first :: second :: more)).toList =
              first.toList ++ ',' :: ' ' :: (String.intercalate ", " (second :: more)).toList := by
            rw [String.intercalate_cons_cons, String.toList_append, String.toList_append]
            simp
          rw [unfolded, List.append_assoc, List.cons_append, List.cons_append,
            words_word_append firstIsWord _ (by decide), words_cons _ (by decide),
            inductionHypothesis restAreWords, ← List.cons_append]

end Words

/-! ## Lines -/

/-- Text that stands in generated code: the generator's own, or a user's. -/
inductive Piece where
  | own (text : String)
  | user (text : String)
  deriving DecidableEq, Repr

namespace Piece

def text : Piece → String
  | own text => text
  | user text => text

/-- The piece with a blank in place of what a user wrote. -/
def ownText : Piece → List Char
  | own text => text.toList
  | user _ => [' ']

def userText? : Piece → Option String
  | own _ => none
  | user text => some text

end Piece

/-- A line of code, and how many tabs it stands behind. -/
structure Line where
  level : Nat
  pieces : List Piece
  deriving DecidableEq, Repr

namespace Line

/-- A line with nothing of a user's in it. -/
def own (level : Nat) (text : String) : Line := ⟨level, [.own text]⟩

def text (line : Line) : String :=
  String.ofList (List.replicate line.level '\t') ++ String.join (line.pieces.map Piece.text)

/-- The words of a line, those of a user apart. -/
def words (line : Line) : List String := Go.words (line.pieces.flatMap Piece.ownText)

end Line

/-! ## Blocks -/

/-- Go statements, each with those that follow it. -/
inductive Block where
  | done
  /-- A statement with nothing inside. -/
  | plain (pieces : List Piece) (rest : Block)
  /-- The sending of a value to a channel. -/
  | send (channel value : String) (rest : Block)
  /-- A loop over what a channel receives until it is closed. -/
  | drain (value? : Option String) (channel : String) (body rest : Block)
  /-- A loop over channels that carry values of a type. -/
  | forEach (element type : String) (channels : List String) (body rest : Block)
  /-- The start of a goroutine that has a channel to itself. -/
  | spawn (channel type : String) (body rest : Block)
  | choice (condition : String) (yes no rest : Block)
  /-- A block between an opening and a closing line, which may or may not run. -/
  | nest (opening : List Piece) (body : Block) (closing : List Piece) (rest : Block)
  deriving DecidableEq, Repr

namespace Block

/-- The lines of a block at a level. -/
@[simp] def lines (level : Nat) : Block → List Line
  | done => []
  | plain pieces rest => ⟨level, pieces⟩ :: rest.lines level
  | send channel value rest => .own level (channel ++ " <- " ++ value) :: rest.lines level
  | drain value? channel body rest =>
      .own level ("for " ++ (value?.map (· ++ " := ")).getD "" ++ "range " ++ channel ++
          " \x7b") ::
        body.lines (level + 1) ++ .own level "\x7d" :: rest.lines level
  | forEach element type channels body rest =>
      ⟨level, [.own ("for _, " ++ element ++ " := range []<-chan "), .user type,
          .own ("\x7b" ++ String.intercalate ", " channels ++ "\x7d \x7b")]⟩ ::
        body.lines (level + 1) ++ .own level "\x7d" :: rest.lines level
  | spawn channel type body rest =>
      ⟨level, [.own ("go func(" ++ channel ++ " <-chan "), .user type, .own ") \x7b"]⟩ ::
        body.lines (level + 1) ++ .own level ("\x7d(" ++ channel ++ ")") :: rest.lines level
  | choice condition yes no rest =>
      .own level ("if " ++ condition ++ " \x7b") :: yes.lines (level + 1) ++
        .own level "\x7d else \x7b" :: no.lines (level + 1) ++
        .own level "\x7d" :: rest.lines level
  | nest opening body closing rest =>
      ⟨level, opening⟩ :: body.lines (level + 1) ++ ⟨level, closing⟩ :: rest.lines level

/-- The block as Go code. -/
def text (block : Block) : String := joinLines ((block.lines 0).map Line.text)

/-- The words of the code, those of a user apart. -/
def words (block : Block) : List String := (block.lines 0).flatMap Line.words

/-- What users wrote of some pieces of code. -/
def userPieces (pieces : List Piece) : List String := pieces.filterMap Piece.userText?

/-- What users wrote of the code. -/
def userTexts (block : Block) : List String :=
  (block.lines 0).flatMap fun line => userPieces line.pieces

/-- The channels of the statements that send, in the order of the code. -/
@[simp] def sends : Block → List String
  | done => []
  | plain _ rest => rest.sends
  | send channel _ rest => channel :: rest.sends
  | drain _ _ body rest => body.sends ++ rest.sends
  | forEach _ _ _ body rest => body.sends ++ rest.sends
  | spawn _ _ body rest => body.sends ++ rest.sends
  | choice _ yes no rest => yes.sends ++ no.sends ++ rest.sends
  | nest _ body _ rest => body.sends ++ rest.sends

/-- The channels from which the block receives until they are closed, wherever it is run. -/
@[simp] def drains : Block → List String
  | done => []
  | plain _ rest => rest.drains
  | send _ _ rest => rest.drains
  | drain _ channel _ rest => channel :: rest.drains
  | forEach element _ channels body rest =>
      -- The element stands for each of the channels in its turn.
      (if element ∈ body.drains then channels else []) ++ rest.drains
  | spawn _ _ body rest => body.drains ++ rest.drains
  -- What stands inside may never run.
  | choice _ _ _ rest => rest.drains
  | nest _ _ _ rest => rest.drains

/-- The sending of one value to each of some channels. -/
def sendEach (value : String) (channels : List String) : Block :=
  channels.foldr (fun channel rest => send channel value rest) done

/-- The sending of all that is received from a channel to each of some others, if there are
any. -/
def forward (channel : String) (outputs : List String) : Block :=
  drain (if outputs = [] then none else some "v") channel (sendEach "v" outputs) done

/-! ## What stands in the lines of a block -/

section Lines

variable {β : Type}

/-- What is gathered from the pieces of the lines does not depend on how far these are
indented. -/
theorem flatMap_lines
    (contents : List Piece → List β) (block : Block) (level other : Nat) :
    ((block.lines level).flatMap fun line => contents line.pieces) =
      (block.lines other).flatMap fun line => contents line.pieces := by
  induction block generalizing level other with
  | done => rfl
  | plain pieces rest restHypothesis =>
      simp only [lines, List.flatMap_cons, restHypothesis level other]
  | send channel value rest restHypothesis =>
      simp only [lines, Line.own, List.flatMap_cons, restHypothesis level other]
  | drain value? channel body rest bodyHypothesis restHypothesis =>
      simp only [lines, Line.own, List.cons_append, List.flatMap_cons, List.flatMap_append,
        bodyHypothesis (level + 1) (other + 1), restHypothesis level other]
  | forEach element type channels body rest bodyHypothesis restHypothesis =>
      simp only [lines, Line.own, List.cons_append, List.flatMap_cons, List.flatMap_append,
        bodyHypothesis (level + 1) (other + 1), restHypothesis level other]
  | spawn channel type body rest bodyHypothesis restHypothesis =>
      simp only [lines, Line.own, List.cons_append, List.flatMap_cons, List.flatMap_append,
        bodyHypothesis (level + 1) (other + 1), restHypothesis level other]
  | choice condition yes no rest yesHypothesis noHypothesis restHypothesis =>
      simp only [lines, Line.own, List.cons_append, List.flatMap_cons, List.flatMap_append,
        yesHypothesis (level + 1) (other + 1), noHypothesis (level + 1) (other + 1),
        restHypothesis level other]
  | nest opening body closing rest bodyHypothesis restHypothesis =>
      simp only [lines, List.cons_append, List.flatMap_cons, List.flatMap_append,
        bodyHypothesis (level + 1) (other + 1), restHypothesis level other]

theorem lines_sendEach
    (value : String) (channels : List String) (level : Nat) :
    (sendEach value channels).lines level =
      channels.map fun channel => .own level (channel ++ " <- " ++ value) := by
  induction channels with
  | nil => rfl
  | cons first rest inductionHypothesis =>
      rw [List.map_cons, ← inductionHypothesis]
      rfl

end Lines

/-! ## Words of a block -/

section BlockWords

theorem words_body
    (body : Block) (level : Nat) :
    (body.lines level).flatMap Line.words = body.words :=
  flatMap_lines (fun pieces => Go.words (pieces.flatMap Piece.ownText)) body level 0

theorem Line.words_own
    (level : Nat) (text : String) :
    (Line.own level text).words = Go.words text.toList := by
  rw [Line.words, Line.own, List.flatMap_singleton]
  rfl

@[simp] theorem words_done : done.words = [] := rfl

theorem words_plain
    (pieces : List Piece) (rest : Block) :
    (plain pieces rest).words = Line.words ⟨0, pieces⟩ ++ rest.words := by
  rw [words, lines, List.flatMap_cons]
  rfl

theorem words_send
    {channel value : String} (channelIsWord : IsWord channel) (valueIsWord : IsWord value)
    (rest : Block) :
    (send channel value rest).words = channel :: value :: rest.words := by
  have unfolded : (channel ++ " <- " ++ value).toList =
      channel.toList ++ ' ' :: '<' :: '-' :: ' ' :: value.toList := by
    simp
  rw [words, lines, List.flatMap_cons, Line.words_own, unfolded,
    words_word_append channelIsWord _ (by decide), words_cons _ (by decide),
    words_cons _ (by decide), words_cons _ (by decide), words_of_isWord valueIsWord]
  rfl

theorem words_sendEach
    {value : String} {channels : List String} (valueIsWord : IsWord value)
    (areWords : ∀ channel ∈ channels, IsWord channel) :
    (sendEach value channels).words = channels.flatMap fun channel => [channel, value] := by
  induction channels with
  | nil => rfl
  | cons first rest inductionHypothesis =>
      have restAreWords := fun channel member => areWords channel (List.mem_cons_of_mem first member)
      rw [List.flatMap_cons, ← inductionHypothesis restAreWords]
      exact words_send (areWords first List.mem_cons_self) valueIsWord _

def loopWords (value? : Option String) (channel : String) : List String :=
  "for" :: value?.toList ++ ["range", channel]

theorem words_drain
    {value? : Option String} {channel : String}
    (valueIsWord : ∀ bound, value? = some bound → IsWord bound)
    (channelIsWord : IsWord channel) (body rest : Block) :
    (drain value? channel body rest).words =
      loopWords value? channel ++ body.words ++ rest.words := by
  have behind : Go.words ("range".toList ++ ' ' :: (channel.toList ++ ' ' :: ['\x7b'])) =
      ["range", channel] := by
    rw [words_word_append (by decide) _ (by decide),
      words_word_append channelIsWord _ (by decide)]
    rfl
  have head : Go.words ("for " ++ (value?.map (· ++ " := ")).getD "" ++ "range " ++ channel ++
      " \x7b").toList = loopWords value? channel := by
    cases value? with
    | none =>
        have unfolded : ("for " ++ "" ++ "range " ++ channel ++ " \x7b").toList =
            "for".toList ++ ' ' :: ("range".toList ++ ' ' :: (channel.toList ++ ' ' :: ['\x7b'])) := by
          simp
        rw [Option.map_none, Option.getD_none, unfolded,
          words_word_append (by decide) _ (by decide), behind]
        rfl
    | some bound =>
        have unfolded : ("for " ++ (bound ++ " := ") ++ "range " ++ channel ++ " \x7b").toList =
            "for".toList ++ ' ' :: (bound.toList ++ ' ' :: ':' :: '=' :: ' ' ::
              ("range".toList ++ ' ' :: (channel.toList ++ ' ' :: ['\x7b']))) := by
          simp
        rw [Option.map_some, Option.getD_some, unfolded,
          words_word_append (by decide) _ (by decide),
          words_word_append (valueIsWord bound rfl) _ (by decide), words_cons _ (by decide),
          words_cons _ (by decide), words_cons _ (by decide), behind]
        rfl
  rw [words, lines, List.flatMap_append, List.flatMap_cons, List.flatMap_cons, Line.words_own,
    Line.words_own, head, words_body]
  rfl

theorem words_forEach
    {element type : String} {channels : List String} (elementIsWord : IsWord element)
    (areWords : ∀ channel ∈ channels, IsWord channel) (body rest : Block) :
    (forEach element type channels body rest).words =
      ["for", "_", element, "range", "chan"] ++ channels ++ body.words ++ rest.words := by
  have head : Line.words ⟨0, [.own ("for _, " ++ element ++ " := range []<-chan "), .user type,
      .own ("\x7b" ++ String.intercalate ", " channels ++ "\x7d \x7b")]⟩ =
      ["for", "_", element, "range", "chan"] ++ channels := by
    have unfolded : [Piece.own ("for _, " ++ element ++ " := range []<-chan "), .user type,
        .own ("\x7b" ++ String.intercalate ", " channels ++ "\x7d \x7b")].flatMap Piece.ownText =
        "for _".toList ++ ',' :: ' ' :: (element.toList ++ ' ' :: (":= range []<-chan ".toList ++
          ' ' :: '\x7b' :: ((String.intercalate ", " channels).toList ++ '\x7d' :: [' ', '\x7b']))) := by
      simp [Piece.ownText]
    rw [Line.words, unfolded, words_append_cons _ _ (by decide), words_cons _ (by decide),
      words_word_append elementIsWord _ (by decide), words_append_cons _ _ (by decide),
      words_cons _ (by decide), words_intercalate areWords _ (by decide)]
    have first : Go.words "for _".toList = ["for", "_"] := by decide
    have second : Go.words ":= range []<-chan ".toList = ["range", "chan"] := by decide
    have third : Go.words [' ', '\x7b'] = [] := by decide
    rw [first, second, third, List.append_nil]
    rfl
  rw [words, lines, List.flatMap_append, List.flatMap_cons, List.flatMap_cons, Line.words_own,
    head, words_body]
  rfl

theorem words_spawn
    {channel type : String} (channelIsWord : IsWord channel) (body rest : Block) :
    (spawn channel type body rest).words =
      ["go", "func", channel, "chan"] ++ body.words ++ channel :: rest.words := by
  have head : Line.words ⟨0, [.own ("go func(" ++ channel ++ " <-chan "), .user type,
      .own ") \x7b"]⟩ = ["go", "func", channel, "chan"] := by
    have unfolded : [Piece.own ("go func(" ++ channel ++ " <-chan "), .user type,
        .own ") \x7b"].flatMap Piece.ownText =
        "go func".toList ++ '(' :: (channel.toList ++ ' ' :: "<-chan  ) \x7b".toList) := by
      simp [Piece.ownText]
    rw [Line.words, unfolded, words_append_cons _ _ (by decide),
      words_word_append channelIsWord _ (by decide)]
    rfl
  have foot : Go.words ("\x7d(" ++ channel ++ ")").toList = [channel] := by
    have unfolded : ("\x7d(" ++ channel ++ ")").toList =
        '\x7d' :: '(' :: (channel.toList ++ ')' :: []) := by
      simp
    rw [unfolded, words_cons _ (by decide), words_cons _ (by decide),
      words_word_append channelIsWord _ (by decide)]
    rfl
  rw [words, lines, List.flatMap_append, List.flatMap_cons, List.flatMap_cons, Line.words_own,
    head, foot, words_body]
  rfl

theorem words_choice
    (condition : String) (yes no rest : Block) :
    (choice condition yes no rest).words =
      Go.words ("if " ++ condition ++ " \x7b").toList ++ yes.words ++ "else" :: no.words ++
        rest.words := by
  rw [words, lines, List.flatMap_append, List.flatMap_append, List.flatMap_cons,
    List.flatMap_cons, List.flatMap_cons, Line.words_own, Line.words_own, Line.words_own,
    words_body, words_body]
  rfl

theorem words_nest
    (opening closing : List Piece) (body rest : Block) :
    (nest opening body closing rest).words =
      Line.words ⟨0, opening⟩ ++ body.words ++ (Line.words ⟨0, closing⟩ ++ rest.words) := by
  rw [words, lines, List.flatMap_append, List.flatMap_cons, List.flatMap_cons, words_body]
  rfl

end BlockWords

/-! ## What users wrote -/

section UserTexts

theorem userTexts_body
    (body : Block) (level : Nat) :
    ((body.lines level).flatMap fun line => userPieces line.pieces) =
      body.userTexts :=
  flatMap_lines userPieces body level 0

theorem userTexts_plain
    (pieces : List Piece) (rest : Block) :
    (plain pieces rest).userTexts = userPieces pieces ++ rest.userTexts := by
  rw [userTexts, lines, List.flatMap_cons]
  rfl

theorem userTexts_forEach
    (element type : String) (channels : List String) (body rest : Block) :
    (forEach element type channels body rest).userTexts =
      type :: body.userTexts ++ rest.userTexts := by
  rw [userTexts, lines, List.flatMap_append, List.flatMap_cons, List.flatMap_cons, userTexts_body]
  rfl

theorem userTexts_spawn
    (channel type : String) (body rest : Block) :
    (spawn channel type body rest).userTexts = type :: body.userTexts ++ rest.userTexts := by
  rw [userTexts, lines, List.flatMap_append, List.flatMap_cons, List.flatMap_cons, userTexts_body]
  rfl

theorem userTexts_drain
    (value? : Option String) (channel : String) (body rest : Block) :
    (drain value? channel body rest).userTexts = body.userTexts ++ rest.userTexts := by
  rw [userTexts, lines, List.flatMap_append, List.flatMap_cons, List.flatMap_cons, userTexts_body]
  rfl

theorem userTexts_choice
    (condition : String) (yes no rest : Block) :
    (choice condition yes no rest).userTexts =
      yes.userTexts ++ no.userTexts ++ rest.userTexts := by
  rw [userTexts, lines, List.flatMap_append, List.flatMap_append, List.flatMap_cons,
    List.flatMap_cons, List.flatMap_cons, userTexts_body, userTexts_body]
  rfl

theorem userTexts_nest
    (opening closing : List Piece) (body rest : Block) :
    (nest opening body closing rest).userTexts =
      userPieces opening ++ body.userTexts ++ (userPieces closing ++ rest.userTexts) := by
  rw [userTexts, lines, List.flatMap_append, List.flatMap_cons, List.flatMap_cons, userTexts_body]
  rfl

end UserTexts

/-! ## Sending to several channels -/

section SendEach

theorem sends_sendEach
    (value : String) (channels : List String) :
    (sendEach value channels).sends = channels := by
  induction channels with
  | nil => rfl
  | cons first rest inductionHypothesis => exact congrArg (first :: ·) inductionHypothesis

theorem sends_forward
    (channel : String) (outputs : List String) :
    (forward channel outputs).sends = outputs := by
  rw [forward, sends, sends_sendEach]
  exact List.append_nil _

theorem userTexts_sendEach
    (value : String) (channels : List String) :
    (sendEach value channels).userTexts = [] := by
  rw [userTexts, lines_sendEach, List.flatMap_map]
  exact List.flatMap_eq_nil_iff.mpr fun _ _ => rfl

theorem userTexts_forward
    (channel : String) (outputs : List String) :
    (forward channel outputs).userTexts = [] := by
  rw [forward, userTexts_drain, userTexts_sendEach]
  rfl

variable {pins : List String}

/-- Of the words of statements that send a value, the pins are those that are sent to. -/
theorem filter_words_sendEach
    {value : String} {channels : List String} (valueIsWord : IsWord value)
    (areWords : ∀ channel ∈ channels, IsWord channel) (foreign : value ∉ pins)
    (inside : ∀ channel ∈ channels, channel ∈ pins) :
    (sendEach value channels).words.filter (· ∈ pins) = channels := by
  have each (channel : String) (member : channel ∈ channels) :
      [channel, value].filter (· ∈ pins) = [channel] := by
    simp [inside channel member, foreign]
  rw [words_sendEach valueIsWord areWords, List.filter_flatMap, List.flatMap_congr each]
  exact List.flatMap_singleton' channels

/-- Of the words of a loop's head, only the channel may be a pin. -/
theorem filter_loopWords
    {value? : Option String} {channel : String}
    (valueForeign : ∀ name, value? = some name → name ∉ pins)
    (forForeign : "for" ∉ pins) (rangeForeign : "range" ∉ pins) :
    (loopWords value? channel).filter (· ∈ pins) = [channel].filter (· ∈ pins) := by
  have noValue : value?.toList.filter (· ∈ pins) = [] := by
    rw [List.filter_eq_nil_iff]
    intro name member
    simpa using valueForeign name (Option.mem_toList.mp member)
  rw [loopWords, List.cons_append, List.filter_cons_of_neg (by simpa using forForeign),
    List.filter_append, noValue, List.nil_append,
    List.filter_cons_of_neg (by simpa using rangeForeign)]

theorem filter_words_forward
    {channel : String} {outputs : List String} (channelIsWord : IsWord channel)
    (areWords : ∀ output ∈ outputs, IsWord output)
    (foreign : ∀ word ∈ ["for", "v", "range"], word ∉ pins)
    (inside : ∀ output ∈ outputs, output ∈ pins) :
    (forward channel outputs).words.filter (· ∈ pins) =
      [channel].filter (· ∈ pins) ++ outputs := by
  have valueIs (name : String)
      (isValue : (if outputs = [] then none else some "v") = some name) : name = "v" := by
    split at isValue
    · exact absurd isValue nofun
    · exact (Option.some.inj isValue).symm
  have valueForeign : "v" ∉ pins := foreign "v" (by decide)
  rw [forward, words_drain (fun name isValue => valueIs name isValue ▸ by decide) channelIsWord,
    words_done, List.append_nil, List.filter_append,
    filter_loopWords (fun name isValue => valueIs name isValue ▸ valueForeign)
      (foreign "for" (by decide)) (foreign "range" (by decide)),
    filter_words_sendEach (by decide) areWords valueForeign inside]

end SendEach

/-! ## Texts of lines -/

section Texts

theorem text_own
    (level : Nat) (text : String) :
    (Line.own level text).text = String.ofList (List.replicate level '\t') ++ text := by
  rw [Line.text, Line.own, List.map_singleton, Piece.text]
  simp

theorem texts_sendEach
    (value : String) (channels : List String) (level : Nat) :
    ((sendEach value channels).lines level).map Line.text =
      channels.map fun channel =>
        String.ofList (List.replicate level '\t') ++ (channel ++ " <- " ++ value) := by
  rw [lines_sendEach, List.map_map]
  exact List.map_congr_left fun channel _ => text_own level _

theorem texts_forward
    (channel : String) (outputs : List String) (level : Nat) :
    ((forward channel outputs).lines level).map Line.text =
      (String.ofList (List.replicate level '\t') ++
          ((if outputs = [] then "for range " else "for v := range ") ++ channel ++ " \x7b")) ::
        outputs.map (fun output =>
          String.ofList (List.replicate (level + 1) '\t') ++ (output ++ " <- v")) ++
        [String.ofList (List.replicate level '\t') ++ "\x7d"] := by
  have head : (Line.own level ("for " ++
      ((if outputs = [] then none else some "v").map (· ++ " := ")).getD "" ++ "range " ++ channel ++
        " \x7b")).text =
      String.ofList (List.replicate level '\t') ++
        ((if outputs = [] then "for range " else "for v := range ") ++ channel ++ " \x7b") := by
    rw [text_own]
    split <;> rfl
  rw [forward, lines, List.map_append, List.map_cons, List.map_cons, head, texts_sendEach,
    text_own, lines]
  simp only [String.append_assoc]
  rfl

end Texts

end Block

end Pipework.Go
