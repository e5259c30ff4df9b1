import Pipework.Go.Literal
import Pipework.Yaml.Cursor

/-!
The scalars of YAML: plain, quoted and block scalars, with the lines of each folded as its kind
demands. A reader gives the text of the scalar and the place behind it, or nothing when the
scalar is malformed.
-/

namespace Pipework.Yaml

/-! ## Gaps -/

/-- The blanks between two words: those before the first break, and the breaks. -/
structure Gap where
  blanks : List Char
  breaks : List Char
  deriving DecidableEq, Repr, Inhabited

namespace Gap

/-- A gap as it counts in a scalar: a single break is a space, of several the first one goes,
and blanks count only when no line ends. -/
def folded (gap : Gap) : List Char :=
  match gap.breaks with
  | [] => gap.blanks
  | '\n' :: [] => [' ']
  | '\n' :: more => more
  | breaks => breaks

end Gap

/-- Reads a gap. Behind a break, a tab left of the column `tabsFrom` is refused. -/
def readGapWithin (tabsFrom : Nat) : Nat → Gap → Cursor → Option (Gap × Cursor)
  | 0, _, _ => none
  | fuel + 1, gap, cursor =>
      match cursor.next? with
      | none => some (gap, cursor)
      | some character =>
          if isBreak character then
            readGapWithin tabsFrom fuel { gap with breaks := gap.breaks ++ [cursor.breakChar] }
              cursor.skipBreak
          else if isSpaceOrTab character then
            if gap.breaks.isEmpty then
              readGapWithin tabsFrom fuel { gap with blanks := gap.blanks ++ [character] }
                cursor.skip
            else if character = '\t' && cursor.column < tabsFrom then none
            else readGapWithin tabsFrom fuel gap cursor.skip
          else some (gap, cursor)

/-- Reads a gap. -/
def readGap (tabsFrom : Nat) (cursor : Cursor) : Option (Gap × Cursor) :=
  readGapWithin tabsFrom (cursor.rest.length + 1) ⟨[], []⟩ cursor

/-! ## Plain scalars -/

/-- Where a scalar stands: how deep in brackets, and the column of the innermost block, which is
negative outside any. -/
structure Context where
  flowLevel : Nat
  indent : Int
  deriving DecidableEq, Repr, Inhabited

namespace Context

/-- Whether the place is inside brackets. -/
def isFlow (context : Context) : Bool := context.flowLevel != 0

/-- The column where what belongs to the innermost block starts at the least. -/
def contentColumn (context : Context) : Nat := (context.indent + 1).toNat

end Context

/-- The characters that are brackets or part them. -/
def isFlowIndicator (character : Char) : Bool := ",[]\x7b\x7d".toList.contains character

/-- A word of a plain scalar, or nothing for a colon that no word may hold. -/
def readPlainWord (isFlow : Bool) : Nat → List Char → Cursor → Option (List Char × Cursor)
  | 0, _, _ => none
  | fuel + 1, word, cursor =>
      match cursor.next? with
      | none => some (word, cursor)
      | some character =>
          if isGap character then some (word, cursor)
          else if isFlow && character = ':' &&
              (cursor.ahead? 1).any (fun after => isFlowIndicator after || after = '?') then none
          else if character = ':' && cursor.isGapAhead 1 then some (word, cursor)
          else if isFlow && isFlowIndicator character then some (word, cursor)
          else readPlainWord isFlow fuel (word ++ [character]) cursor.skip

/-- What reading a plain scalar gives: its text, whether a line ended behind its last word, and
the place behind it. -/
structure PlainScalar where
  text : List Char
  endsLine : Bool
  cursor : Cursor
  deriving Repr, Inhabited

/-- Reads a plain scalar of which some text and the gap behind it are read. -/
def readPlainWithin (context : Context) : Nat → List Char → Gap → Cursor → Option PlainScalar
  | 0, _, _, _ => none
  | fuel + 1, text, gap, cursor =>
      let done : PlainScalar := ⟨text, !gap.breaks.isEmpty, cursor⟩
      if cursor.isDocumentMark || cursor.isAhead 0 '#' then some done
      else do
        let (word, behind) ← readPlainWord context.isFlow (cursor.rest.length + 1) [] cursor
        if word.isEmpty then return done
        let longer := text ++ gap.folded ++ word
        if !behind.next?.any isGap then return ⟨longer, false, behind⟩
        let (after, beyond) ← readGap context.contentColumn behind
        if !context.isFlow && beyond.column < context.contentColumn then
          return ⟨longer, !after.breaks.isEmpty, beyond⟩
        readPlainWithin context fuel longer after beyond

/-- Reads a plain scalar. -/
def readPlain (context : Context) (cursor : Cursor) : Option PlainScalar :=
  readPlainWithin context (cursor.rest.length + 1) [] ⟨[], []⟩ cursor

/-! ## Quoted scalars -/

/-- The character for which a backslash and a letter stand. -/
def escapedChar? (letter : Char) : Option Char :=
  match letter with
  | '0' => some '\x00'
  | 'a' => some '\x07'
  | 'b' => some '\x08'
  | 't' => some '\t'
  | '\t' => some '\t'
  | 'n' => some '\n'
  | 'v' => some '\x0b'
  | 'f' => some '\x0c'
  | 'r' => some '\r'
  | 'e' => some '\x1b'
  | ' ' => some ' '
  | '"' => some '"'
  | '/' => some '/'
  | '\\' => some '\\'
  | 'N' => some (Char.ofNat 0x85)
  | '_' => some (Char.ofNat 0xA0)
  | 'L' => some (Char.ofNat 0x2028)
  | 'P' => some (Char.ofNat 0x2029)
  | _ => none

/-- How many hexadecimal digits follow a backslash and a letter. -/
def escapeDigits? (letter : Char) : Option Nat :=
  match letter with
  | 'x' => some 2
  | 'u' => some 4
  | 'U' => some 8
  | _ => none

/-- The number that hexadecimal digits write. -/
def hexNumber? (digits : List Char) : Option Nat :=
  digits.foldlM (fun value digit => do return 16 * value + (← Go.hexValue? digit)) 0

/-- The character with a number, if there is one. -/
def charOfNumber? (value : Nat) : Option Char :=
  if value.isValidChar then some (Char.ofNat value) else none

/-- The kinds of quoted scalars. -/
inductive QuoteKind where
  | single
  | double
  deriving DecidableEq, Repr, Inhabited

/-- The quote of a kind. -/
def QuoteKind.char : QuoteKind → Char
  | single => '\''
  | double => '"'

/-- What ends a run of characters in a quoted scalar. -/
inductive QuotedStop where
  /-- The closing quote, a gap or the end of the text. -/
  | here
  /-- A backslash at the end of a line, which joins it to the next. -/
  | joined
  deriving DecidableEq, Repr, Inhabited

/-- Reads the characters of a quoted scalar up to its quote or a gap. -/
def readQuotedRun (kind : QuoteKind) :
    Nat → List Char → Cursor → Option (List Char × QuotedStop × Cursor)
  | 0, _, _ => none
  | fuel + 1, run, cursor =>
      match cursor.next? with
      | none => some (run, .here, cursor)
      | some character =>
          if isGap character then some (run, .here, cursor)
          else if kind = .single && character = '\'' && cursor.isAhead 1 '\'' then
            readQuotedRun kind fuel (run ++ ['\'']) (cursor.skipMany 2)
          else if character = kind.char then some (run, .here, cursor)
          else if kind = .double && character = '\\' then
            match cursor.ahead? 1 with
            | none => none
            | some letter =>
                if isBreak letter then some (run, .joined, cursor.skip.skipBreak)
                else
                  match escapedChar? letter, escapeDigits? letter with
                  | some meant, _ => readQuotedRun kind fuel (run ++ [meant]) (cursor.skipMany 2)
                  | none, none => none
                  | none, some count => do
                      let digits := (cursor.rest.drop 2).take count
                      if digits.length ≠ count then none
                      let meant ← charOfNumber? (← hexNumber? digits)
                      readQuotedRun kind fuel (run ++ [meant]) (cursor.skipMany (2 + count))
          else readQuotedRun kind fuel (run ++ [character]) cursor.skip

/-- Reads a quoted scalar of which some text is read, up to and with its closing quote. -/
def readQuotedWithin (kind : QuoteKind) : Nat → List Char → Cursor → Option (List Char × Cursor)
  | 0, _, _ => none
  | fuel + 1, text, cursor =>
      if cursor.isDocumentMark then none
      else do
        let (run, stop, behind) ← readQuotedRun kind (cursor.rest.length + 1) [] cursor
        match behind.next? with
        | none => none
        | some character =>
            if character = kind.char then return (text ++ run, behind.skip)
            let (gap, beyond) ← readGap 0 behind
            match stop with
            | .here => readQuotedWithin kind fuel (text ++ run ++ gap.folded) beyond
            | .joined => readQuotedWithin kind fuel (text ++ run ++ gap.breaks) beyond

/-- Reads a quoted scalar from its opening quote on. -/
def readQuoted (kind : QuoteKind) (cursor : Cursor) : Option (List Char × Cursor) :=
  readQuotedWithin kind (cursor.rest.length + 1) [] cursor.skip

/-! ## Block scalars -/

/-- What becomes of the breaks at the end of a block scalar. -/
inductive Chomping where
  | clip
  | keep
  | strip
  deriving DecidableEq, Repr, Inhabited

/-- The chomping that a sign stands for. -/
def chompingOf? (sign : Char) : Option Chomping :=
  if sign = '+' then some .keep
  else if sign = '-' then some .strip
  else none

/-- The chomping at a place, and the place behind its sign. -/
def readChomping (cursor : Cursor) : Option Chomping × Cursor :=
  match cursor.next?.bind chompingOf? with
  | some chomping => (some chomping, cursor.skip)
  | none => (none, cursor)

/-- The indentation at a place, which is not zero, and the place behind its digit. -/
def readIndentation (cursor : Cursor) : Option (Option Nat × Cursor) :=
  match cursor.next? with
  | some digit =>
      if digit = '0' then none
      else if digit.isDigit then some (some (digit.toNat - 48), cursor.skip)
      else some (none, cursor)
  | none => some (none, cursor)

/-- The head of a block scalar: chomping and indentation in any order. -/
def readBlockHead (cursor : Cursor) : Option (Chomping × Option Nat × Cursor) := do
  let (early, afterSign) := readChomping cursor
  let (indentation, afterDigit) ← readIndentation afterSign
  let (late, behind) :=
    if early.isNone && indentation.isSome then readChomping afterDigit else (early, afterDigit)
  let line := behind.skipWhile isSpaceOrTab
  let ending := if line.isAhead 0 '#' then line.skipLine else line
  if !ending.isLineEnd then none
  return (late.getD .clip, indentation,
    if ending.next?.isSome then ending.skipBreak else ending)

/-- Reads the indentation and the empty lines before a line of a block scalar: the breaks, the
widest indentation, and the place where the line starts. The column where lines start is known
or not. -/
def readBlockBreaks (column? : Option Nat) :
    Nat → List Char → Nat → Cursor → Option (List Char × Nat × Cursor)
  | 0, _, _, _ => none
  | fuel + 1, breaks, widest, cursor =>
      let isInside := column?.all fun column => cursor.column < column
      match cursor.next? with
      | some character =>
          if isInside && character = ' ' then
            readBlockBreaks column? fuel breaks widest cursor.skip
          else
            let wider := max widest cursor.column
            if isInside && character = '\t' then none
            else if isBreak character then
              readBlockBreaks column? fuel (breaks ++ [cursor.breakChar]) wider cursor.skipBreak
            else some (breaks, wider, cursor)
      | none => some (breaks, max widest cursor.column, cursor)

/-- What of a block scalar is read: the text, the break behind its last line, and the breaks of
the empty lines behind that. -/
structure BlockText where
  text : List Char
  lineBreak : List Char
  emptyLines : List Char
  /-- Whether the last line starts with a blank. -/
  isIndented : Bool
  deriving Repr, Inhabited

/-- The text so far, with what stands between its last line and the next one. In folded scalars
a single break between lines that start with no blank is a space. -/
def BlockText.joined (block : BlockText) (isLiteral nextIndented : Bool) : List Char :=
  if !isLiteral && block.lineBreak = ['\n'] && !block.isIndented && !nextIndented then
    block.text ++ if block.emptyLines.isEmpty then [' '] else block.emptyLines
  else block.text ++ block.lineBreak ++ block.emptyLines

/-- Reads the lines of a block scalar that start in a column. -/
def readBlockLines (isLiteral : Bool) (column : Nat) :
    Nat → BlockText → Cursor → Option (BlockText × Cursor)
  | 0, _, _ => none
  | fuel + 1, block, cursor =>
      if cursor.column = column && cursor.next?.isSome then do
        let isIndented := cursor.next?.any isSpaceOrTab
        let line := cursor.rest.takeWhile fun character => !isBreak character
        let ending := cursor.skipMany line.length
        let text := block.joined isLiteral isIndented ++ line
        let lineBreak := if ending.next?.isSome then [ending.breakChar] else []
        let behind := if ending.next?.isSome then ending.skipBreak else ending
        let (emptyLines, _, next) ←
          readBlockBreaks (some column) (behind.rest.length + 1) [] 0 behind
        readBlockLines isLiteral column fuel ⟨text, lineBreak, emptyLines, isIndented⟩ next
      else some (block, cursor)

/-- Reads a block scalar from its sign on. -/
def readBlock (isLiteral : Bool) (context : Context) (cursor : Cursor) :
    Option (List Char × Cursor) := do
  let (chomping, indentation, start) ← readBlockHead cursor.skip
  let given := indentation.map fun count => (max context.indent 0).toNat + count
  let (emptyLines, widest, first) ←
    readBlockBreaks given (start.rest.length + 1) [] 0 start
  let column := given.getD (max widest (max context.contentColumn 1))
  let (block, behind) ←
    readBlockLines isLiteral column (first.rest.length + 1) ⟨[], [], emptyLines, false⟩ first
  let tail :=
    match chomping with
    | .strip => []
    | .clip => block.lineBreak
    | .keep => block.lineBreak ++ block.emptyLines
  return (block.text ++ tail, behind)

end Pipework.Yaml
