import Pipework.Json.Binary64

/-!
JSON values and their texts.

Members of an object stand in a list. `Value.sorted` brings them into key order with the last
of several equal keys, which is the form of a value that is kept; documents are written with
their members in an order of their own.
-/

namespace Pipework.Json

/-! ## Values -/

/-- A number: a whole number between `-2 ^ 63` and `2 ^ 64 - 1` that is written as one, or any
other number as the bits of a finite binary64. -/
inductive Number where
  | whole (value : Int)
  | binary (bits : UInt64)
  deriving DecidableEq, Repr, Inhabited

/-- The text of a number. -/
def Number.text : Number → String
  | whole value => toString value
  | binary bits => binaryText bits

/-- A JSON value. -/
inductive Value where
  | null
  | bool (value : Bool)
  | number (value : Number)
  | string (value : String)
  | array (items : List Value)
  | object (members : List (String × Value))
  deriving Repr, Inhabited

namespace Value

/-- A whole number as a value. -/
def whole (value : Int) : Value := number (.whole value)

/-- Puts a member in its place; it replaces a member with the same key. -/
def insertMember (key : String) (value : Value) : List (String × Value) → List (String × Value)
  | [] => [(key, value)]
  | (head, found) :: rest =>
      if key < head then (key, value) :: (head, found) :: rest
      else if key = head then (key, value) :: rest
      else (head, found) :: insertMember key value rest

/-- Members in key order; of several with one key the last stays. -/
def sortMembers (members : List (String × Value)) : List (String × Value) :=
  members.foldl (fun sorted member => insertMember member.1 member.2 sorted) []

end Value

/-! ## Quoted strings -/

/-- The lower-case hexadecimal digit of a number below 16. -/
def hexDigit (value : Nat) : Char :=
  if value < 10 then Char.ofNat (48 + value) else Char.ofNat (87 + value)

/-- A character inside a quoted string: quotes, backslashes and the characters below U+0020
are escaped, all others stand for themselves. -/
def escapeChar (character : Char) : List Char :=
  if character = '"' then ['\\', '"']
  else if character = '\\' then ['\\', '\\']
  else if character = '\n' then ['\\', 'n']
  else if character = '\r' then ['\\', 'r']
  else if character = '\t' then ['\\', 't']
  else if character.toNat = 8 then ['\\', 'b']
  else if character.toNat = 12 then ['\\', 'f']
  else if character.toNat < 32 then
    ['\\', 'u', '0', '0', hexDigit (character.toNat / 16), hexDigit (character.toNat % 16)]
  else [character]

/-- A string between quotes. -/
def quote (text : String) : List Char :=
  '"' :: text.toList.flatMap escapeChar ++ ['"']

/-! ## Texts -/

mutual

/-- The characters of a value, without blanks. -/
def Value.compactChars : Value → List Char
  | .null => "null".toList
  | .bool value => (if value then "true" else "false").toList
  | .number value => value.text.toList
  | .string value => quote value
  | .array items => '[' :: compactItems true items ++ [']']
  | .object members => '\x7b' :: compactMembers true members ++ ['\x7d']

/-- The items of an array, each behind a comma but the first. -/
def compactItems (isFirst : Bool) : List Value → List Char
  | [] => []
  | item :: rest =>
      (if isFirst then [] else [',']) ++ item.compactChars ++ compactItems false rest

/-- The members of an object, each behind a comma but the first. -/
def compactMembers (isFirst : Bool) : List (String × Value) → List Char
  | [] => []
  | (key, value) :: rest =>
      (if isFirst then [] else [',']) ++ quote key ++ ':' :: value.compactChars ++
        compactMembers false rest

end

/-- A line feed and the indentation of a nesting level. -/
def newLine (level : Nat) : List Char :=
  '\n' :: List.replicate (2 * level) ' '

mutual

/-- The characters of a value with one line for each item and member, indented by two blanks
a level. Empty arrays and objects stay on their line. -/
def Value.prettyChars (level : Nat) : Value → List Char
  | .null => "null".toList
  | .bool value => (if value then "true" else "false").toList
  | .number value => value.text.toList
  | .string value => quote value
  | .array [] => ['[', ']']
  | .array (item :: rest) =>
      '[' :: prettyItems (level + 1) true (item :: rest) ++ newLine level ++ [']']
  | .object [] => ['\x7b', '\x7d']
  | .object (member :: rest) =>
      '\x7b' :: prettyMembers (level + 1) true (member :: rest) ++ newLine level ++ ['\x7d']

/-- The items of an array, each on a line of its own. -/
def prettyItems (level : Nat) (isFirst : Bool) : List Value → List Char
  | [] => []
  | item :: rest =>
      (if isFirst then [] else [',']) ++ newLine level ++ item.prettyChars level ++
        prettyItems level false rest

/-- The members of an object, each on a line of its own. -/
def prettyMembers (level : Nat) (isFirst : Bool) : List (String × Value) → List Char
  | [] => []
  | (key, value) :: rest =>
      (if isFirst then [] else [',']) ++ newLine level ++ quote key ++
        ':' :: ' ' :: value.prettyChars level ++ prettyMembers level false rest

end

/-- The text of a value, without blanks. -/
def Value.compact (value : Value) : String := String.ofList value.compactChars

/-- The text of a value on indented lines. -/
def Value.pretty (value : Value) : String := String.ofList (value.prettyChars 0)

end Pipework.Json
