/-!
Byte texts as symbols.

A byte text need not be UTF-8. Readers that must carry on past bytes that belong to no
character work on symbols: the characters of the text, with every other byte kept apart.
-/

namespace Pipework.Text

/-- One unit of a byte text: a character, or a byte that belongs to none. -/
inductive Symbol where
  | char (character : Char)
  | stray (byte : UInt8)
  deriving DecidableEq, Repr, Inhabited

namespace Symbol

/-- How many bytes the symbol takes up. -/
def byteSize : Symbol → Nat
  | char character => character.utf8Size
  | stray _ => 1

end Symbol

/-- The symbols of a text: its characters. -/
def symbolsOf (text : String) : List Symbol :=
  text.toList.map Symbol.char

/-- The symbols of a byte text from a position on. Where no character starts, one byte is
stray and reading goes on behind it. -/
private def symbolsFrom (bytes : ByteArray) : Nat → Nat → List Symbol
  | 0, _ => []
  | fuel + 1, position =>
      if inside : position < bytes.size then
        match bytes.utf8DecodeChar? position with
        | some character =>
            Symbol.char character :: symbolsFrom bytes fuel (position + character.utf8Size)
        | none => Symbol.stray bytes[position] :: symbolsFrom bytes fuel (position + 1)
      else
        []

/-- The symbols of a byte text. -/
def symbols (bytes : ByteArray) : List Symbol :=
  match String.fromUTF8? bytes with
  | some text => symbolsOf text
  | none => symbolsFrom bytes bytes.size 0

/-- Bytes that spell a text have its characters as symbols. -/
theorem symbols_toUTF8 (text : String) : symbols text.toUTF8 = symbolsOf text := by
  have spelled : String.fromUTF8? text.toUTF8 = some text := by
    simp only [String.fromUTF8?, String.toUTF8_eq_toByteArray, dif_pos text.isValidUTF8]
    rfl
  rw [symbols, spelled]

/-- Whether at least `count` bytes are left. -/
def hasBytes (count : Nat) : List Symbol → Bool
  | [] => count == 0
  | first :: rest => count ≤ first.byteSize || hasBytes (count - first.byteSize) rest

end Pipework.Text
