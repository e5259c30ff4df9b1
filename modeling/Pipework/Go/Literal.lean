import Pipework.Json.Value

/-!
Go string literals.

`literal` writes a text between double quotes; `literalValue?` reads such a literal back.
-/

namespace Pipework.Go

/-! ## Writing -/

/-- A character inside a literal: quotes, backslashes and the ASCII control characters are
escaped, all others stand for themselves. -/
def literalChar (character : Char) : List Char :=
  if character = '"' then ['\\', '"']
  else if character = '\\' then ['\\', '\\']
  else if character = '\n' then ['\\', 'n']
  else if character = '\r' then ['\\', 'r']
  else if character = '\t' then ['\\', 't']
  else if character.toNat < 0x20 || character.toNat = 0x7F then
    ['\\', 'x', Json.hexDigit (character.toNat / 16), Json.hexDigit (character.toNat % 16)]
  else [character]

/-- A text as a Go string literal on one line. -/
def literal (text : String) : String :=
  String.ofList ('"' :: text.toList.flatMap literalChar ++ ['"'])

/-! ## Reading -/

/-- The value of a hexadecimal digit. -/
def hexValue? (digit : Char) : Option Nat :=
  if digit.isDigit then some (digit.toNat - 48)
  else if 'a' ≤ digit ∧ digit ≤ 'f' then some (digit.toNat - 87)
  else if 'A' ≤ digit ∧ digit ≤ 'F' then some (digit.toNat - 55)
  else none

/-- The character for which a backslash and a letter stand. -/
def escaped? (letter : Char) : Option Char :=
  if letter = '"' then some '"'
  else if letter = '\\' then some '\\'
  else if letter = 'n' then some '\n'
  else if letter = 'r' then some '\r'
  else if letter = 't' then some '\t'
  else none

/-- The ASCII character for which two hexadecimal digits stand. -/
def hexChar? (high low : Char) : Option Char := do
  let value := 16 * (← hexValue? high) + (← hexValue? low)
  if value < 0x80 then some (Char.ofNat value) else none

/-- Reads the inside of a literal up to its closing quote, behind which nothing may stand. -/
def literalBody? : List Char → Option (List Char)
  | [] => none
  | ['"'] => some []
  | '\\' :: 'x' :: high :: low :: rest => do
      let character ← hexChar? high low
      (character :: ·) <$> literalBody? rest
  | '\\' :: letter :: rest => do
      let character ← escaped? letter
      (character :: ·) <$> literalBody? rest
  | character :: rest =>
      if character = '"' || character = '\\' || character = '\n' then none
      else (character :: ·) <$> literalBody? rest

/-- The text for which a Go string literal stands. Of the escapes, those for the two signs, the
three blanks and the ASCII characters by number are known. -/
def literalValue? (source : String) : Option String :=
  match source.toList with
  | '"' :: rest => (literalBody? rest).map String.ofList
  | _ => none

end Pipework.Go
