/-!
Values of command-line options and operands, as they are written.
-/

namespace Pipework.CommandLine

/-- What the text of a value has to be. -/
inductive ValueKind where
  | text
  /-- A whole number from 0 to 4294967295. -/
  | count
  /-- A whole number of 64 bits with a sign. -/
  | coordinate
  /-- One of the words for true and false. -/
  | flag
  deriving DecidableEq, Repr, Inhabited

/-- The number that decimal digits stand for. -/
def digitsValue? (digits : List Char) : Option Nat :=
  if digits ≠ [] ∧ digits.all Char.isDigit then
    some (digits.foldl (fun value digit => value * 10 + (digit.toNat - '0'.toNat)) 0)
  else none

/-- Reads a whole number: digits, perhaps behind a sign. -/
def readWhole? (text : String) : Option Int :=
  match text.toList with
  | '-' :: digits => (digitsValue? digits).map fun value => -(value : Int)
  | '+' :: digits => (digitsValue? digits).map Int.ofNat
  | digits => (digitsValue? digits).map Int.ofNat

/-- Reads a whole number that lies between two others. -/
def readBetween? (low high : Int) (text : String) : Option Int :=
  (readWhole? text).filter fun value => decide (low ≤ value ∧ value ≤ high)

/-- Reads a count. -/
def readCount? (text : String) : Option UInt32 :=
  (readBetween? 0 (UInt32.size - 1) text).map fun value => UInt32.ofNat value.toNat

/-- Reads a coordinate. -/
def readCoordinate? (text : String) : Option Int64 :=
  (readBetween? Int64.minValue.toInt Int64.maxValue.toInt text).map Int64.ofInt

/-- Reads a flag. -/
def readFlag? (text : String) : Option Bool :=
  if text = "true" then some true else if text = "false" then some false else none

namespace ValueKind

/-- Whether a text is a value of a kind. -/
def accepts : ValueKind → String → Bool
  | text, _ => true
  | count, value => (readCount? value).isSome
  | coordinate, value => (readCoordinate? value).isSome
  | flag, value => (readFlag? value).isSome

/-- Whether a value may start with a hyphen where an option could stand as well. -/
def allowsHyphen : ValueKind → Bool
  | coordinate => true
  | _ => false

end ValueKind

end Pipework.CommandLine
