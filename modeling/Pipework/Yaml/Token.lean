import Pipework.Yaml.Scalar

/-!
The tokens of a YAML text.

Blocks are told by columns, so tokens for their starts and ends come from the layout. A key need
not be marked as one: that it is a key shows only at the colon behind it. Tokens are therefore
put into slots, and where a key may start an open slot is left, which the colon fills in.
-/

namespace Pipework.Yaml

/-! ## Tokens -/

/-- A token. -/
inductive Token where
  | directive (name : String) (arguments : List String)
  | documentStart
  | documentEnd
  | blockSequenceStart
  | blockMappingStart
  | blockEnd
  | flowSequenceStart
  | flowSequenceEnd
  | flowMappingStart
  | flowMappingEnd
  | blockEntry
  | flowEntry
  | key
  | value
  | alias (name : String)
  | anchor (name : String)
  | tag (handle suffix : String)
  /-- A scalar, and whether it is a plain one. -/
  | scalar (isPlain : Bool) (text : String)
  deriving DecidableEq, Repr, Inhabited

/-! ## Lexers -/

/-- A place where a key may have started: its slot, its line, column and offset, and whether
what stands there can be nothing but a key. -/
structure KeyStart where
  slot : Nat
  line : Nat
  column : Nat
  offset : Nat
  isRequired : Bool
  deriving DecidableEq, Repr, Inhabited

/-- The state of reading tokens. -/
structure Lexer where
  cursor : Cursor
  /-- The slots so far, the last one first. -/
  slots : List (List Token)
  /-- The column of the innermost block, which is negative outside any. -/
  indent : Int
  /-- The columns of the blocks around it, the inner ones first. -/
  outer : List Int
  /-- Whether a key may start here. -/
  keyAllowed : Bool
  /-- Where the key of the innermost brackets, or of the block, may have started. -/
  keyStart? : Option KeyStart
  /-- The same for the brackets around them, the inner ones first. -/
  outerKeys : List (Option KeyStart)
  deriving Repr, Inhabited

namespace Lexer

/-- The state before a text. -/
def start (text : List Char) : Lexer :=
  { cursor := Cursor.start text, slots := [], indent := -1, outer := [], keyAllowed := true,
    keyStart? := none, outerKeys := [] }

/-- How deep in brackets the lexer is. -/
def flowLevel (lexer : Lexer) : Nat := lexer.outerKeys.length

/-- Whether the lexer is inside brackets. -/
def isFlow (lexer : Lexer) : Bool := lexer.flowLevel != 0

/-- Where a scalar that starts here stands. -/
def context (lexer : Lexer) : Context := ⟨lexer.flowLevel, lexer.indent⟩

/-- Adds a token. -/
def push (lexer : Lexer) (token : Token) : Lexer :=
  { lexer with slots := [token] :: lexer.slots }

/-- Adds a token that takes up some characters. -/
def pushSkipping (lexer : Lexer) (token : Token) (count : Nat) : Lexer :=
  { lexer.push token with cursor := lexer.cursor.skipMany count }

/-- Puts tokens into a slot that stands so many slots behind the first one. -/
def fill (lexer : Lexer) (slot : Nat) (tokens : List Token) : Lexer :=
  { lexer with slots := lexer.slots.set (lexer.slots.length - 1 - slot) tokens }

/-- All tokens, in order. -/
def tokens (lexer : Lexer) : List Token := lexer.slots.reverse.flatten

/-! ### Blocks -/

/-- Ends the blocks that lie right of a column. -/
def closeBlocksWithin : Nat → Lexer → Int → Lexer
  | 0, lexer, _ => lexer
  | fuel + 1, lexer, column =>
      if !lexer.isFlow && column < lexer.indent then
        match lexer.outer with
        | [] => lexer
        | indent :: outer =>
            closeBlocksWithin fuel ({ lexer with indent, outer }.push .blockEnd) column
      else lexer

/-- Ends the blocks that lie right of a column. -/
def closeBlocks (lexer : Lexer) (column : Int) : Lexer :=
  closeBlocksWithin (lexer.outer.length + 1) lexer column

/-- Whether a block starts in a column. -/
def opensBlock (lexer : Lexer) (column : Nat) : Bool :=
  !lexer.isFlow && lexer.indent < column

/-- Makes a column the one of the innermost block. -/
def enterBlock (lexer : Lexer) (column : Nat) : Lexer :=
  { lexer with indent := column, outer := lexer.indent :: lexer.outer }

/-- Starts a block in this column, if it lies right of the innermost one. -/
def openBlock (lexer : Lexer) (token : Token) : Lexer :=
  let column := lexer.cursor.column
  if lexer.opensBlock column then (lexer.enterBlock column).push token else lexer

/-! ### Keys -/

/-- Gives up the key that may have started, unless there has to be one. -/
def dropKey (lexer : Lexer) : Option Lexer :=
  match lexer.keyStart? with
  | some key => if key.isRequired then none else some { lexer with keyStart? := none }
  | none => some lexer

/-- Notes that a key may start here, if one may. -/
def noteKey (lexer : Lexer) : Option Lexer :=
  if lexer.keyAllowed then do
    let free ← lexer.dropKey
    return { free with
      slots := [] :: free.slots,
      keyStart? := some
        { slot := free.slots.length, line := free.cursor.line, column := free.cursor.column,
          offset := free.cursor.offset,
          isRequired := !free.isFlow && free.indent = free.cursor.column } }
  else some lexer

/-- How many characters a key that is not marked can have. -/
def longestKey : Nat := 1024

/-- Whether what started as a key can still be one: it has to end on its line, and soon. -/
def isStale (lexer : Lexer) (key : KeyStart) : Bool :=
  key.line < lexer.cursor.line || key.offset + longestKey < lexer.cursor.offset

/-- Gives up a key that became too long. -/
def refreshKey (lexer : Lexer) (key? : Option KeyStart) : Option (Option KeyStart) :=
  match key? with
  | some key =>
      if lexer.isStale key then if key.isRequired then none else some none
      else some (some key)
  | none => some none

/-- Gives up all keys that became too long. -/
def refreshKeys (lexer : Lexer) : Option Lexer := do
  let keyStart? ← lexer.refreshKey lexer.keyStart?
  let outerKeys ← lexer.outerKeys.mapM lexer.refreshKey
  return { lexer with keyStart?, outerKeys }

/-! ### Blanks -/

/-- Skips blanks, comments and line ends before a token. A tab is a blank only where no block
can start. -/
def skipBlanks : Nat → Lexer → Lexer
  | 0, lexer => lexer
  | fuel + 1, lexer =>
      let cursor :=
        if lexer.cursor.offset = 0 && lexer.cursor.isAhead 0 (Char.ofNat 0xFEFF) then
          lexer.cursor.skip
        else lexer.cursor
      let tabs := lexer.isFlow || !lexer.keyAllowed
      let blank := cursor.skipWhile fun character =>
        character = ' ' || (tabs && character = '\t')
      let line := if blank.isAhead 0 '#' then blank.skipLine else blank
      if line.next?.any isBreak then
        skipBlanks fuel { lexer with
          cursor := line.skipBreak, keyAllowed := lexer.keyAllowed || !lexer.isFlow }
      else { lexer with cursor := line }

/-! ### Directives and properties -/

/-- The words of a line. -/
def wordsOf (line : List Char) : List String :=
  (line.splitBy fun before after => isSpaceOrTab before == isSpaceOrTab after).filterMap
    fun group =>
      if group.all isSpaceOrTab then none else some (String.ofList group)

/-- Whether the arguments of a version directive name a version that can be read. -/
def isKnownVersion (arguments : List String) : Bool :=
  arguments = ["1.1"] || arguments = ["1.2"]

/-- Reads a directive: a version, or a handle for tags. -/
def readDirective (lexer : Lexer) : Option Lexer := do
  let free ← (lexer.closeBlocks (-1)).dropKey
  let line := free.cursor.rest.takeWhile fun character => !isBreak character
  let words := (wordsOf (line.drop 1)).takeWhile fun word => !word.startsWith "#"
  let ready := { free with keyAllowed := false, cursor := free.cursor.skipLine }
  match words with
  | "YAML" :: arguments =>
      if isKnownVersion arguments then return ready.push (.directive "YAML" arguments) else none
  | ["TAG", handle, first] => return ready.push (.directive "TAG" [handle, first])
  | _ => none

/-- The name of an anchor, and the place behind it. -/
def readName (cursor : Cursor) : Option (String × Cursor) :=
  let name := cursor.rest.takeWhile isWordChar
  let behind := cursor.skipMany name.length
  let ends := behind.next?.all fun character =>
    isGap character || "?:,]\x7d%@".toList.contains character || character.toNat = 0x60
  if name.isEmpty || !ends then none else some (String.ofList name, behind)

/-- Reads an anchor or an alias. -/
def readAnchor (lexer : Lexer) (token : String → Token) : Option Lexer := do
  let noted ← lexer.noteKey
  let (name, behind) ← readName noted.cursor.skip
  return { noted.push (token name) with cursor := behind, keyAllowed := false }

/-- A character of a tag. Those that could end the tag count only where it is in brackets of its
own. -/
def isTagChar (isVerbatim : Bool) (character : Char) : Bool :=
  isWordChar character || ";/?:@&=+$.!~*'()%".toList.contains character ||
    (isVerbatim && ",[]".toList.contains character)

/-- Whether every percent sign stands before two hexadecimal digits. -/
def isWellEscaped : List Char → Bool
  | [] => true
  | '%' :: high :: low :: rest =>
      (Go.hexValue? high).isSome && (Go.hexValue? low).isSome && isWellEscaped rest
  | character :: rest => character ≠ '%' && isWellEscaped rest

/-- The handle and the suffix of the characters of a tag: a handle ends in a second mark. -/
def splitTag (text : List Char) : String × String :=
  let word := (text.drop 1).takeWhile isWordChar
  match (text.drop 1).drop word.length with
  | '!' :: suffix => (String.ofList ('!' :: word ++ ['!']), String.ofList suffix)
  | _ => ("!", String.ofList (text.drop 1))

/-- Reads a tag. -/
def readTag (lexer : Lexer) : Option Lexer := do
  let noted ← lexer.noteKey
  let isVerbatim := noted.cursor.isAhead 1 '<'
  let start := if isVerbatim then noted.cursor.skipMany 2 else noted.cursor
  let text := start.rest.takeWhile (isTagChar isVerbatim)
  if !isWellEscaped text then none
  let ending := start.skipMany text.length
  if isVerbatim && (text.isEmpty || !ending.isAhead 0 '>') then none
  let (handle, suffix) := if isVerbatim then ("", String.ofList text) else splitTag text
  if handle ≠ "" && handle ≠ "!" && suffix.isEmpty then none
  let behind := if isVerbatim then ending.skip else ending
  if !(behind.isGapAhead 0 || (noted.isFlow && behind.isAhead 0 ',')) then none
  return { noted.push (.tag handle suffix) with cursor := behind, keyAllowed := false }

/-! ### Marks -/

/-- Reads the start or the end of a document. -/
def readDocumentMark (lexer : Lexer) (token : Token) : Option Lexer := do
  let free ← (lexer.closeBlocks (-1)).dropKey
  return { free.pushSkipping token 3 with keyAllowed := false }

/-- Reads an opening bracket. -/
def readOpening (lexer : Lexer) (token : Token) : Option Lexer := do
  let noted ← lexer.noteKey
  return { noted.pushSkipping token 1 with
    keyAllowed := true, keyStart? := none, outerKeys := noted.keyStart? :: noted.outerKeys }

/-- Reads a closing bracket. -/
def readClosing (lexer : Lexer) (token : Token) : Option Lexer := do
  let free ← lexer.dropKey
  let read := { free.pushSkipping token 1 with keyAllowed := false }
  match free.outerKeys with
  | [] => return read
  | keyStart? :: outerKeys => return { read with keyStart?, outerKeys }

/-- Reads a comma. -/
def readFlowEntry (lexer : Lexer) : Option Lexer := do
  let free ← lexer.dropKey
  return { free.pushSkipping .flowEntry 1 with keyAllowed := true }

/-- Reads the sign of an item of a block. -/
def readBlockEntry (lexer : Lexer) : Option Lexer := do
  if !lexer.isFlow && !lexer.keyAllowed then none
  let opened := if lexer.isFlow then lexer else lexer.openBlock .blockSequenceStart
  let free ← opened.dropKey
  return { free.pushSkipping .blockEntry 1 with keyAllowed := true }

/-- Reads the sign of a key. -/
def readKeyMark (lexer : Lexer) : Option Lexer := do
  if !lexer.isFlow && !lexer.keyAllowed then none
  let free ← (lexer.openBlock .blockMappingStart).dropKey
  return { free.pushSkipping .key 1 with keyAllowed := !free.isFlow }

/-- Reads a colon. What may have started as a key was one. -/
def readValueMark (lexer : Lexer) : Option Lexer :=
  match lexer.keyStart? with
  | some key =>
      let opens := lexer.opensBlock key.column
      let filled :=
        lexer.fill key.slot (if opens then [.blockMappingStart, .key] else [.key])
      let entered := if opens then filled.enterBlock key.column else filled
      some { entered.pushSkipping .value 1 with keyStart? := none, keyAllowed := false }
  | none =>
      if !lexer.isFlow && !lexer.keyAllowed then none
      else
        let opened := lexer.openBlock .blockMappingStart
        some { opened.pushSkipping .value 1 with keyAllowed := !opened.isFlow }

/-! ### Scalars -/

/-- Reads a block scalar. -/
def readBlockScalar (lexer : Lexer) (isLiteral : Bool) : Option Lexer := do
  let free ← lexer.dropKey
  let (text, behind) ← readBlock isLiteral free.context free.cursor
  return { free.push (.scalar false (String.ofList text)) with
    cursor := behind, keyAllowed := true }

/-- Reads a quoted scalar. -/
def readQuotedScalar (lexer : Lexer) (kind : QuoteKind) : Option Lexer := do
  let noted ← lexer.noteKey
  let (text, behind) ← readQuoted kind noted.cursor
  return { noted.push (.scalar false (String.ofList text)) with
    cursor := behind, keyAllowed := false }

/-- Reads a plain scalar. -/
def readPlainScalar (lexer : Lexer) : Option Lexer := do
  let noted ← lexer.noteKey
  let plain ← readPlain noted.context noted.cursor
  return { noted.push (.scalar true (String.ofList plain.text)) with
    cursor := plain.cursor, keyAllowed := plain.endsLine }

/-- The characters that start no plain scalar of themselves. -/
def indicators : List Char :=
  "-?:,[]\x7b\x7d#&*!|>'\"%@".toList ++ [Char.ofNat 0x60]

/-- Whether a plain scalar can start with a character here. -/
def startsPlain (lexer : Lexer) (character : Char) : Bool :=
  (!isGap character && !indicators.contains character) ||
    (character = '-' && !(lexer.cursor.ahead? 1).any isSpaceOrTab) ||
    (!lexer.isFlow && (character = '?' || character = ':') && !lexer.cursor.isGapAhead 1)

/-! ### All tokens -/

/-- Whether a sign stands for itself here: in brackets, or before a gap. -/
def isSign (lexer : Lexer) : Bool := lexer.isFlow || lexer.cursor.isGapAhead 1

/-- Reads the token that starts with a character here. -/
def readToken (lexer : Lexer) (character : Char) : Option Lexer :=
  let cursor := lexer.cursor
  if cursor.column = 0 && character = '%' then lexer.readDirective
  else if cursor.isMark '-' then lexer.readDocumentMark .documentStart
  else if cursor.isMark '.' then lexer.readDocumentMark .documentEnd
  else if character = '[' then lexer.readOpening .flowSequenceStart
  else if character = '\x7b' then lexer.readOpening .flowMappingStart
  else if character = ']' then lexer.readClosing .flowSequenceEnd
  else if character = '\x7d' then lexer.readClosing .flowMappingEnd
  else if character = ',' then lexer.readFlowEntry
  else if character = '-' && cursor.isGapAhead 1 then lexer.readBlockEntry
  else if character = '?' && lexer.isSign then lexer.readKeyMark
  else if character = ':' && lexer.isSign then lexer.readValueMark
  else if character = '*' then lexer.readAnchor .alias
  else if character = '&' then lexer.readAnchor .anchor
  else if character = '!' then lexer.readTag
  else if character = '|' && !lexer.isFlow then lexer.readBlockScalar true
  else if character = '>' && !lexer.isFlow then lexer.readBlockScalar false
  else if character = '\'' then lexer.readQuotedScalar .single
  else if character = '"' then lexer.readQuotedScalar .double
  else if lexer.startsPlain character then lexer.readPlainScalar
  else none

/-- Reads tokens to the end of the text. -/
def readAll : Nat → Lexer → Option Lexer
  | 0, _ => none
  | fuel + 1, lexer => do
      let ready ← (skipBlanks (lexer.cursor.rest.length + 1) lexer).refreshKeys
      let closed := ready.closeBlocks ready.cursor.column
      match closed.cursor.next? with
      | none => (closed.closeBlocks (-1)).dropKey
      | some character => readAll fuel (← closed.readToken character)

end Lexer

/-- The tokens of a text, if it is well formed so far. -/
def tokensOf? (text : List Char) : Option (List Token) :=
  if text.all isAllowed then
    (Lexer.readAll (text.length + 2) (Lexer.start text)).map Lexer.tokens
  else none

end Pipework.Yaml
