/-!
A place in a YAML text, and the classes of characters that YAML tells apart.
-/

namespace Pipework.Yaml

/-! ## Characters -/

/-- Whether a character may stand in a YAML text at all. -/
def isAllowed (character : Char) : Bool :=
  let code := character.toNat
  code == 0x09 || code == 0x0A || code == 0x0D || (0x20 ≤ code && code ≤ 0x7E) ||
    code == 0x85 || (0xA0 ≤ code && code ≤ 0xFFFD) || 0x10000 ≤ code

/-- A space or a tab. -/
def isSpaceOrTab (character : Char) : Bool := character = ' ' || character = '\t'

/-- A character that ends a line. -/
def isBreak (character : Char) : Bool :=
  character = '\r' || character = '\n' || character.toNat = 0x85 ||
    character.toNat = 0x2028 || character.toNat = 0x2029

/-- A character that ends a word. -/
def isGap (character : Char) : Bool := isSpaceOrTab character || isBreak character

/-- A character of names of anchors and directives. -/
def isWordChar (character : Char) : Bool :=
  character.isAlphanum || character = '_' || character = '-'

/-! ## Cursors -/

/-- A place in a text: what follows it, the line and the column, and how many characters stand
before it. -/
structure Cursor where
  rest : List Char
  line : Nat
  column : Nat
  offset : Nat
  deriving DecidableEq, Repr, Inhabited

namespace Cursor

/-- The place before the first character. -/
def start (text : List Char) : Cursor := ⟨text, 0, 0, 0⟩

/-- The next character. -/
def next? (cursor : Cursor) : Option Char := cursor.rest.head?

/-- The character some places on. -/
def ahead? (cursor : Cursor) (count : Nat) : Option Char := cursor.rest[count]?

/-- Whether a character stands some places on. -/
def isAhead (cursor : Cursor) (count : Nat) (character : Char) : Bool :=
  cursor.ahead? count == some character

/-- Whether a word ends some places on: by a gap or by the end of the text. -/
def isGapAhead (cursor : Cursor) (count : Nat) : Bool := (cursor.ahead? count).all isGap

/-- Whether a line ends here: by a break or by the end of the text. -/
def isLineEnd (cursor : Cursor) : Bool := cursor.next?.all isBreak

/-- The place behind a character that ends no line. -/
def skip (cursor : Cursor) : Cursor :=
  { cursor with
    rest := cursor.rest.tail, column := cursor.column + 1, offset := cursor.offset + 1 }

/-- The place some characters on. -/
def skipMany (cursor : Cursor) (count : Nat) : Cursor :=
  { cursor with
    rest := cursor.rest.drop count, column := cursor.column + count,
    offset := cursor.offset + count }

/-- The place behind the break that stands here. -/
def skipBreak (cursor : Cursor) : Cursor :=
  let size :=
    match cursor.rest with
    | '\r' :: '\n' :: _ => 2
    | _ => 1
  { rest := cursor.rest.drop size, line := cursor.line + 1, column := 0,
    offset := cursor.offset + size }

/-- The break that stands here, as it counts in a scalar. -/
def breakChar (cursor : Cursor) : Char :=
  match cursor.next? with
  | some character =>
      if character.toNat = 0x2028 || character.toNat = 0x2029 then character else '\n'
  | none => '\n'

/-- The place behind the characters of a class, none of which ends a line. -/
def skipWhile (cursor : Cursor) (test : Char → Bool) : Cursor :=
  cursor.skipMany (cursor.rest.takeWhile test).length

/-- The place at the end of the line. -/
def skipLine (cursor : Cursor) : Cursor := cursor.skipWhile fun character => !isBreak character

/-- Whether a mark of three equal characters stands at the start of this line. -/
def isMark (cursor : Cursor) (character : Char) : Bool :=
  cursor.column == 0 && cursor.isAhead 0 character && cursor.isAhead 1 character &&
    cursor.isAhead 2 character && cursor.isGapAhead 3

/-- Whether the start or the end of a document is marked here. -/
def isDocumentMark (cursor : Cursor) : Bool := cursor.isMark '-' || cursor.isMark '.'

end Cursor

end Pipework.Yaml
