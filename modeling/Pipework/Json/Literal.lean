import Pipework.Text.Utf8
import Pipework.Json.Value

/-!
Leaves of JSON texts: numbers and strings.

A value in a text is either wanted or passed over, and the two are held to different rules: a
value that is passed over only has to end where it should. A `Fault` says both: what is wrong
when the value is wanted, and whether reading can go on behind it when it is not.
-/

namespace Pipework.Json

open Pipework.Text

/-! ## Faults -/

/-- Why a text cannot be read: it breaks the grammar, or it ends too early. -/
inductive ReadError where
  | malformed
  | truncated
  deriving DecidableEq, Repr, Inhabited

/-- What is wrong with a place in a text. -/
structure Fault where
  /-- The error when the value is wanted. -/
  wanted : ReadError
  /-- The error when the value is passed over; nothing when reading goes on behind it. -/
  skipped : Option ReadError
  deriving DecidableEq, Repr, Inhabited

namespace Fault

/-- A fault that ends reading for whoever looks. -/
def total (error : ReadError) : Fault := ⟨error, some error⟩

end Fault

/-! ## Digits -/

/-- The value of a decimal digit. -/
def digit? : Symbol → Option Nat
  | .char character =>
      if '0' ≤ character ∧ character ≤ '9' then some (character.toNat - 48) else none
  | .stray _ => none

/-- The digits at the start, and what follows them. -/
def takeDigits : List Symbol → List Nat × List Symbol
  | [] => ([], [])
  | first :: rest =>
      match digit? first with
      | some digit => (digit :: (takeDigits rest).1, (takeDigits rest).2)
      | none => ([], first :: rest)

/-- The value of a hexadecimal digit. -/
def hexValue? : Symbol → Option Nat
  | .char character =>
      if '0' ≤ character ∧ character ≤ '9' then some (character.toNat - 48)
      else if 'a' ≤ character ∧ character ≤ 'f' then some (character.toNat - 87)
      else if 'A' ≤ character ∧ character ≤ 'F' then some (character.toNat - 55)
      else none
  | .stray _ => none

/-! ## Numbers -/

/-- A number literal, taken apart. -/
structure NumberLiteral where
  negative : Bool
  whole : List Nat
  /-- The digits behind the point; without a point there are none. -/
  fraction : List Nat
  /-- The sign and digits of the exponent. -/
  exponent : Option (Bool × List Nat)
  deriving DecidableEq, Repr

/-- Whether a symbol starts an exponent. -/
def isExponentMark (symbol : Symbol) : Bool :=
  symbol = .char 'e' || symbol = .char 'E'

/-- The fault of a number that stops where a digit has to stand. A text that ends there counts
as too short only when the number is wanted. -/
def missingDigit : List Symbol → Fault
  | [] => ⟨.truncated, some .malformed⟩
  | _ :: _ => Fault.total .malformed

/-- The sign and digits of an exponent, behind its mark. -/
def readExponent (input : List Symbol) :
    Except Fault ((Bool × List Nat) × List Symbol) :=
  let (negative, unsigned) :=
    match input with
    | .char '+' :: rest => (false, rest)
    | .char '-' :: rest => (true, rest)
    | _ => (false, input)
  match takeDigits unsigned with
  | ([], rest) => .error (missingDigit rest)
  | (digits, rest) => .ok ((negative, digits), rest)

/-- The exponent of a number, if it has one. -/
def readScale (literal : NumberLiteral) (input : List Symbol) :
    Except Fault (NumberLiteral × List Symbol) :=
  match input with
  | [] => .ok (literal, [])
  | first :: rest =>
      if isExponentMark first then
        match readExponent rest with
        | .ok (exponent, more) => .ok ({ literal with exponent := some exponent }, more)
        | .error fault => .error fault
      else .ok (literal, first :: rest)

/-- A number literal behind its sign. A leading zero has no digit behind it. -/
def readUnsigned (negative : Bool) (input : List Symbol) :
    Except Fault (NumberLiteral × List Symbol) :=
  match takeDigits input with
  | ([], rest) => .error (missingDigit rest)
  | (0 :: _ :: _, _) => .error (Fault.total .malformed)
  | (digits, .char '.' :: rest) =>
      match takeDigits rest with
      | ([], more) => .error (missingDigit more)
      | (fraction, more) => readScale ⟨negative, digits, fraction, none⟩ more
  | (digits, rest) => readScale ⟨negative, digits, [], none⟩ rest

/-- The number that a list of digits spells. -/
def digitsValue (digits : List Nat) : Nat :=
  digits.foldl (fun value digit => value * 10 + digit) 0

/-- Appends digits to a significand while it stays below `2 ^ 64`; the count tells how many
did not fit. -/
def fitDigits (significand : Nat) : List Nat → Nat × Nat
  | [] => (significand, 0)
  | digit :: rest =>
      if significand * 10 + digit < UInt64.size then fitDigits (significand * 10 + digit) rest
      else (significand, rest.length + 1)

/-- The binary64 of a literal with a significand and a decimal scale, its exponent applied.
An exponent of more than 31 bits makes the number zero or too large. -/
def scaledNumber (literal : NumberLiteral) (significand : Nat) (scale : Int) :
    Option Number :=
  match literal.exponent with
  | none => (binaryOfScaled literal.negative significand scale).map .binary
  | some (negative, digits) =>
      let exponent := digitsValue digits
      if exponent < UInt32.size / 2 then
        let total : Int := if negative then scale - exponent else scale + exponent
        (binaryOfScaled literal.negative significand total).map .binary
      else if significand ≠ 0 && !negative then none
      else (binaryOfScaled literal.negative 0 0).map .binary

/-- The number of a literal; nothing when it is too large. A literal without fraction and
exponent is a whole number when it is in range; minus zero is not one. -/
def NumberLiteral.number? (literal : NumberLiteral) : Option Number :=
  let value := digitsValue literal.whole
  if literal.fraction = [] && literal.exponent = none &&
      (if literal.negative then 0 < value && value ≤ UInt64.size / 2 else value < UInt64.size) then
    some (.whole (if literal.negative then -(value : Int) else value))
  else
    let (wholePart, dropped) := fitDigits 0 literal.whole
    let (significand, unused) := fitDigits wholePart literal.fraction
    scaledNumber literal significand
      ((dropped : Int) - ((literal.fraction.length : Int) - (unused : Int)))

/-! ## Strings -/

/-- How far the reading of a string has come. -/
structure StringState where
  /-- The characters so far, the last one first. -/
  content : List Char
  /-- The error that a reader who wants the string has met; such a reader stops there. -/
  met : Option ReadError
  /-- Whether a stray byte stands in the string. -/
  spoilt : Bool

/-- Four hexadecimal digits. With fewer than four bytes left the text ends too early. -/
def readHex (input : List Symbol) : Except ReadError (Nat × List Symbol) :=
  if hasBytes 4 input then
    match input with
    | first :: second :: third :: fourth :: rest =>
        match hexValue? first, hexValue? second, hexValue? third, hexValue? fourth with
        | some a, some b, some c, some d => .ok (((a * 16 + b) * 16 + c) * 16 + d, rest)
        | _, _, _, _ => .error .malformed
    | _ => .error .malformed
  else .error .truncated

/-- The character of an escape that is one character behind the backslash. -/
def escaped? : Char → Option Char
  | '"' => some '"'
  | '\\' => some '\\'
  | '/' => some '/'
  | 'b' => some (Char.ofNat 8)
  | 'f' => some (Char.ofNat 12)
  | 'n' => some '\n'
  | 'r' => some '\r'
  | 't' => some '\t'
  | _ => none

/-- The state with one more character. -/
def StringState.push (state : StringState) (character : Char) : StringState :=
  { state with content := character :: state.content }

/-- The state after a fault that does not end the string; the first one is kept. -/
def StringState.meet (state : StringState) (error : ReadError) : StringState :=
  { state with met := some (state.met.getD error) }

/-- The fault of a string that cannot be read to its end. -/
def StringState.stop (state : StringState) (error : ReadError) : Fault :=
  ⟨state.met.getD error, some error⟩

/-- A code unit in four hexadecimal digits, behind a backslash and a `u`. The first of a
surrogate pair takes the second one with it; a surrogate without its partner is a fault only
for a string that is wanted. -/
def readCodeUnit (state : StringState) (input : List Symbol) :
    Except Fault (StringState × List Symbol) :=
  match readHex input with
  | .error error => .error (state.stop error)
  | .ok (unit, rest) =>
      if unit < 0xD800 || 0xDFFF < unit then .ok (state.push (Char.ofNat unit), rest)
      else if 0xDC00 ≤ unit then .ok (state.meet .malformed, rest)
      else
        match rest with
        | [] => .error (state.stop .truncated)
        | [.char '\\'] => .error (state.stop .truncated)
        | .char '\\' :: .char 'u' :: more =>
            match readHex more with
            | .error error => .error (state.stop error)
            | .ok (second, behind) =>
                if 0xDC00 ≤ second && second ≤ 0xDFFF then
                  let code := 0x10000 + (unit - 0xD800) * 0x400 + (second - 0xDC00)
                  .ok (state.push (Char.ofNat code), behind)
                else .ok (state.meet .malformed, behind)
        | _ => .ok (state.meet .malformed, rest)

/-- A string behind its opening quote, up to its closing one: the text or the fault of the
string, and what follows it unless reading has to stop. -/
def readStringFrom :
    Nat → StringState → List Symbol → Except Fault String × Option (List Symbol)
  | 0, state, _ => (.error (state.stop .truncated), none)
  | _ + 1, state, [] => (.error (state.stop .truncated), none)
  | fuel + 1, state, .stray _ :: rest =>
      readStringFrom fuel { state with spoilt := true } rest
  | fuel + 1, state, .char first :: rest =>
      if first = '"' then
        match state.met with
        | some error => (.error ⟨error, none⟩, some rest)
        | none =>
            if state.spoilt then (.error ⟨.malformed, none⟩, some rest)
            else (.ok (String.ofList state.content.reverse), some rest)
      else if first = '\\' then
        match rest with
        | [] => (.error (state.stop .truncated), none)
        | .stray _ :: _ => (.error (state.stop .malformed), none)
        | .char mark :: more =>
            if mark = 'u' then
              match readCodeUnit state more with
              | .ok (next, behind) => readStringFrom fuel next behind
              | .error fault => (.error fault, none)
            else
              match escaped? mark with
              | some character => readStringFrom fuel (state.push character) more
              | none => (.error (state.stop .malformed), none)
      else if first.toNat < 32 then (.error (state.stop .malformed), none)
      else readStringFrom fuel (state.push first) rest

/-- A string behind its opening quote. -/
def readString (input : List Symbol) : Except Fault String × Option (List Symbol) :=
  readStringFrom (input.length + 1) ⟨[], none, false⟩ input

end Pipework.Json
