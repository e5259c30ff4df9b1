import Pipework.Text.Split

/-!
Go identifiers for the free names of a graph.

Names become identifiers by an escape that loses nothing: an underscore is written as a pair of
underscores, and any other byte that is neither a letter nor a digit as `_xHH`. Read from the
front, an underscore of the result opens a pair or stands before an `x`, which leaves endings such
as `_w0` free.
-/

namespace Pipework.Go

/-! ## Escaped names -/

/-- The upper-case hexadecimal digit of a number below 16. -/
def upperHexDigit (value : Nat) : Char :=
  if value < 10 then Char.ofNat (48 + value) else Char.ofNat (55 + value)

/-- A byte inside an identifier: ASCII letters and digits stand for themselves, an underscore
is doubled, and any other byte is written by its number. -/
def mangleByte (byte : UInt8) : List Char :=
  let character := Char.ofNat byte.toNat
  if character.isAlphanum then [character]
  else if character = '_' then ['_', '_']
  else ['_', 'x', upperHexDigit (byte.toNat / 16), upperHexDigit (byte.toNat % 16)]

/-- Bytes as the characters of an identifier. -/
def mangleBytes (bytes : List UInt8) : List Char := bytes.flatMap mangleByte

/-- The bytes of a name as the characters of an identifier. -/
def mangle (name : String) : String :=
  String.ofList (mangleBytes name.toUTF8.data.toList)

/-- The function of a node. -/
def nodeIdent (name : String) : String := "node_" ++ mangle name

/-- The variable of a channel. -/
def channelIdent (name : String) : String := "chan_" ++ mangle name

/-- The variable of the channel that one of several writers has to itself. -/
def writerIdent (channel : String) (writer : Nat) : String :=
  channelIdent channel ++ "_w" ++ toString writer

/-! ## Package names -/

/-- The segment of a path behind its last slash, slashes at the end aside. -/
def lastSegment (path : String) : List Char :=
  Text.afterLast '/' (path.toList.reverse.dropWhile (· = '/')).reverse

/-- A character of a package name: ASCII letters and digits in lower case, an underscore for
any other. -/
def packageChar (character : Char) : Char :=
  if character.isAlphanum then character.toLower else '_'

/-- The name of the package with a path. A name that would be empty or start with a digit is
put behind a word. -/
def packageName (path : String) : String :=
  let name := (lastSegment path).map packageChar
  match name with
  | [] => "pipeline"
  | first :: _ => (if first.isDigit then "pipeline" else "") ++ String.ofList name

end Pipework.Go
