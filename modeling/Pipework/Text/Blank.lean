/-!
White space: which characters are blank, and how blank ends are cut off a text.
-/

namespace Pipework.Text

/-! ## Blank characters -/

/-- The characters with the Unicode property White_Space. There are 25 of them; zero-width
characters and the information separators U+001C to U+001F are not among them. -/
def isBlankChar (character : Char) : Bool :=
  let code := character.toNat
  (0x09 ≤ code && code ≤ 0x0D) || code == 0x20 || code == 0x85 || code == 0xA0 ||
    code == 0x1680 || (0x2000 ≤ code && code ≤ 0x200A) || code == 0x2028 || code == 0x2029 ||
    code == 0x202F || code == 0x205F || code == 0x3000

/-- A text is blank when it has no character that is not blank; the empty text is. -/
def isBlank (text : String) : Bool :=
  text.toList.all isBlankChar

/-! ## Cutting off blank ends -/

/-- The characters without the blank ones at their end. -/
def dropBlankEnd (characters : List Char) : List Char :=
  (characters.reverse.dropWhile isBlankChar).reverse

/-- The text without the blank characters at its end. -/
def trimEnd (text : String) : String :=
  String.ofList (dropBlankEnd text.toList)

/-- The text without the blank characters at its two ends. -/
def trim (text : String) : String :=
  String.ofList (dropBlankEnd (text.toList.dropWhile isBlankChar))

end Pipework.Text
