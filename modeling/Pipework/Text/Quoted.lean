import Pipework.Text.Printable

/-!
Texts quoted for messages.

A quoted text stands between quotes on one line. Quotes, backslashes and line ends are escaped,
and characters that cannot be seen are shown by their code.
-/

namespace Pipework.Text

/-- The lower-case hexadecimal digits of a number. -/
def hexDigits (value : Nat) : List Char := Nat.toDigits 16 value

/-- A character inside a quoted text. -/
def quotedChar (character : Char) : List Char :=
  if character = '"' then ['\\', '"']
  else if character = '\\' then ['\\', '\\']
  else if character = '\n' then ['\\', 'n']
  else if character = '\r' then ['\\', 'r']
  else if character = '\t' then ['\\', 't']
  else if character.toNat = 0 then ['\\', '0']
  else if isPrintable character then [character]
  else ['\\', 'u', '\x7b'] ++ hexDigits character.toNat ++ ['\x7d']

/-- A text between quotes, as messages show it. -/
def quoted (text : String) : String :=
  String.ofList ('"' :: text.toList.flatMap quotedChar ++ ['"'])

/-- A set of texts between braces, as messages show it. -/
def quotedSet (texts : List String) : String :=
  "\x7b" ++ String.intercalate ", " (texts.map quoted) ++ "\x7d"

end Pipework.Text
