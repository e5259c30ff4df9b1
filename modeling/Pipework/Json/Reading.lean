import Pipework.Json.Literal

/-!
JSON texts as read.

A `Reading` is the tree of a text with its faults left where they stand. Whoever walks the
tree meets, in text order, either a fault or a value of a wrong shape, and reports the one
that comes first; what is passed over is held to the weaker rules of `Fault.skipped`.
-/

namespace Pipework.Json

open Pipework.Text

/-! ## Trees -/

/-- The tree of a JSON text, as far as it could be read. -/
inductive Reading where
  | null
  | bool (value : Bool)
  | number (value : Number)
  | string (value : String)
  /-- The items, and the fault that stands where another item or the end should. -/
  | array (items : List Reading) (stop : Option Fault)
  /-- The members, and the fault that stands where another member or the end should. A key
  that is no text is left out; that is a fault only for a reader who wants the object. -/
  | object (members : List (Option String × Reading)) (stop : Option Fault)
  | unreadable (fault : Fault)
  deriving Repr, Inhabited

/-- Arrays and objects nest at most this deep in values that are wanted. -/
def maxDepth : Nat := 127

mutual

/-- The first error in a tree that is passed over. -/
def Reading.skipError : Reading → Option ReadError
  | .array items stop =>
      match skipErrorItems items with
      | some error => some error
      | none => stop.bind Fault.skipped
  | .object members stop =>
      match skipErrorMembers members with
      | some error => some error
      | none => stop.bind Fault.skipped
  | .unreadable fault => fault.skipped
  | _ => none

/-- The first error in items that are passed over. -/
def skipErrorItems : List Reading → Option ReadError
  | [] => none
  | item :: rest =>
      match item.skipError with
      | some error => some error
      | none => skipErrorItems rest

/-- The first error in members that are passed over. -/
def skipErrorMembers : List (Option String × Reading) → Option ReadError
  | [] => none
  | (_, value) :: rest =>
      match value.skipError with
      | some error => some error
      | none => skipErrorMembers rest

end

mutual

/-- The value of a tree, with sorted members, or the first error on the way. -/
def Reading.value : Reading → Except ReadError Value
  | .null => .ok .null
  | .bool value => .ok (.bool value)
  | .number value => .ok (.number value)
  | .string value => .ok (.string value)
  | .array items stop =>
      match valueItems items, stop with
      | .error error, _ => .error error
      | .ok _, some fault => .error fault.wanted
      | .ok values, none => .ok (.array values)
  | .object members stop =>
      match valueMembers members, stop with
      | .error error, _ => .error error
      | .ok _, some fault => .error fault.wanted
      | .ok values, none => .ok (.object (Value.sortMembers values))
  | .unreadable fault => .error fault.wanted

/-- The values of items. -/
def valueItems : List Reading → Except ReadError (List Value)
  | [] => .ok []
  | item :: rest =>
      match item.value with
      | .error error => .error error
      | .ok value =>
          match valueItems rest with
          | .error error => .error error
          | .ok values => .ok (value :: values)

/-- The values of members. -/
def valueMembers : List (Option String × Reading) → Except ReadError (List (String × Value))
  | [] => .ok []
  | (none, _) :: _ => .error .malformed
  | (some key, member) :: rest =>
      match member.value with
      | .error error => .error error
      | .ok value =>
          match valueMembers rest with
          | .error error => .error error
          | .ok values => .ok ((key, value) :: values)

end

mutual

/-- A value as a tree without faults. -/
def Value.reading : Value → Reading
  | .null => .null
  | .bool value => .bool value
  | .number value => .number value
  | .string value => .string value
  | .array items => .array (readingItems items) none
  | .object members => .object (readingMembers members) none

/-- Items as trees. -/
def readingItems : List Value → List Reading
  | [] => []
  | item :: rest => item.reading :: readingItems rest

/-- Members as trees. -/
def readingMembers : List (String × Value) → List (Option String × Reading)
  | [] => []
  | (key, value) :: rest => (some key, value.reading) :: readingMembers rest

end

/-! ## Reading a text -/

/-- The blanks of JSON. -/
def isSpace (symbol : Symbol) : Bool :=
  symbol = .char ' ' || symbol = .char '\n' || symbol = .char '\t' || symbol = .char '\r'

/-- What follows the blanks at the start. -/
def skipSpace (input : List Symbol) : List Symbol := input.dropWhile isSpace

/-- A tree, and what follows it unless reading has to stop there. -/
abbrev Read := Reading × Option (List Symbol)

/-- A tree that is a fault. -/
def Read.fault (fault : Fault) : Read := (.unreadable fault, none)

/-- The rest of a word, and then its value. -/
def readWord (value : Reading) : List Char → List Symbol → Read
  | [], input => (value, some input)
  | _ :: _, [] => Read.fault (.total .truncated)
  | expected :: word, first :: rest =>
      if first = .char expected then readWord value word rest
      else Read.fault (.total .malformed)

/-- A number, with its sign still in front. -/
def readNumber (input : List Symbol) : Read :=
  let outcome :=
    match input with
    | .char '-' :: rest => readUnsigned true rest
    | _ => readUnsigned false input
  match outcome with
  | .error fault => Read.fault fault
  | .ok (literal, rest) =>
      match literal.number? with
      | some number => (.number number, some rest)
      | none => (.unreadable ⟨.malformed, none⟩, some rest)

/-- A container of a nesting level. One that nests too deep is a fault for whoever wants it;
for whoever does not, it is as readable as its contents. -/
def closeContainer (level : Nat) (tree : Reading) (rest : Option (List Symbol)) : Read :=
  if level ≤ maxDepth then (tree, rest)
  else (.unreadable ⟨.malformed, tree.skipError⟩, rest)

mutual

/-- The tree at the start of a text that starts with no blank. The level counts the
containers around it. -/
def readTree : Nat → Nat → List Symbol → Read
  | 0, _, _ => Read.fault (.total .truncated)
  | _ + 1, _, [] => Read.fault (.total .truncated)
  | _ + 1, _, .stray _ :: _ => Read.fault (.total .malformed)
  | fuel + 1, level, .char first :: rest =>
      if first = 'n' then readWord .null ['u', 'l', 'l'] rest
      else if first = 't' then readWord (.bool true) ['r', 'u', 'e'] rest
      else if first = 'f' then readWord (.bool false) ['a', 'l', 's', 'e'] rest
      else if first = '"' then
        match readString rest with
        | (.ok text, more) => (.string text, more)
        | (.error fault, more) => (.unreadable fault, more)
      else if first = '[' then
        let (items, stop, more) := readItems fuel (level + 1) true (skipSpace rest)
        closeContainer (level + 1) (.array items stop) more
      else if first = '\x7b' then
        let (members, stop, more) := readMembers fuel (level + 1) true (skipSpace rest)
        closeContainer (level + 1) (.object members stop) more
      else if first = '-' || ('0' ≤ first && first ≤ '9') then
        readNumber (.char first :: rest)
      else Read.fault (.total .malformed)

/-- The items of an array up to its closing bracket. Before every item but the first there
has to be a comma. -/
def readItems :
    Nat → Nat → Bool → List Symbol → List Reading × Option Fault × Option (List Symbol)
  | 0, _, _, _ => ([], some (.total .truncated), none)
  | _ + 1, _, _, [] => ([], some (.total .truncated), none)
  | fuel + 1, level, isFirst, first :: rest =>
      if first = .char ']' then ([], none, some rest)
      else if !isFirst && first ≠ .char ',' then ([], some (.total .malformed), none)
      else
        let start := if isFirst then first :: rest else skipSpace rest
        match start with
        | [] => ([], some (.total .truncated), none)
        | .char ']' :: _ => ([], some (.total .malformed), none)
        | _ =>
            match readTree fuel level start with
            | (item, none) => ([item], none, none)
            | (item, some more) =>
                let (items, stop, behind) := readItems fuel level false (skipSpace more)
                (item :: items, stop, behind)

/-- The members of an object up to its closing brace. -/
def readMembers :
    Nat → Nat → Bool → List Symbol →
      List (Option String × Reading) × Option Fault × Option (List Symbol)
  | 0, _, _, _ => ([], some (.total .truncated), none)
  | _ + 1, _, _, [] => ([], some (.total .truncated), none)
  | fuel + 1, level, isFirst, first :: rest =>
      if first = .char '\x7d' then ([], none, some rest)
      else if !isFirst && first ≠ .char ',' then ([], some (.total .malformed), none)
      else
        let start := if isFirst then first :: rest else skipSpace rest
        match start with
        | [] => ([], some (.total .truncated), none)
        | .char '"' :: keyStart =>
            match readString keyStart with
            | (.error fault, none) => ([], some fault, none)
            | (key, afterKey) =>
                match (afterKey.map skipSpace).getD [] with
                | [] => ([(key.toOption, .unreadable (.total .truncated))], none, none)
                | .char ':' :: afterColon =>
                    match readTree fuel level (skipSpace afterColon) with
                    | (value, none) => ([(key.toOption, value)], none, none)
                    | (value, some more) =>
                        let (members, stop, behind) :=
                          readMembers fuel level false (skipSpace more)
                        ((key.toOption, value) :: members, stop, behind)
                | _ => ([(key.toOption, .unreadable (.total .malformed))], none, none)
        | _ => ([], some (.total .malformed), none)

end

/-! ## Whole texts -/

/-- A whole text: its tree, and what is wrong behind the tree. -/
structure Document where
  tree : Reading
  /-- Only blanks may follow the tree. -/
  trailing : Option ReadError
  deriving Repr, Inhabited

/-- Reads a whole text. -/
def Document.ofSymbols (input : List Symbol) : Document :=
  match readTree (2 * input.length + 2) 0 (skipSpace input) with
  | (tree, none) => ⟨tree, none⟩
  | (tree, some rest) =>
      ⟨tree, if (skipSpace rest).isEmpty then none else some .malformed⟩

/-- Reads a whole byte text. -/
def Document.ofBytes (bytes : ByteArray) : Document := .ofSymbols (symbols bytes)

/-- Reads a whole text. -/
def Document.ofText (text : String) : Document := .ofSymbols (symbolsOf text)

/-- The value of a whole text. -/
def Document.value (document : Document) : Except ReadError Value :=
  match document.tree.value, document.trailing with
  | .error error, _ => .error error
  | .ok _, some error => .error error
  | .ok value, none => .ok value

end Pipework.Json
