import Pipework.Yaml.Node

/-!
Reading records, texts, flags and numbers out of YAML nodes.

A scalar is any text that is wanted of it; a flag or a number has to be a plain scalar.
-/

namespace Pipework.Yaml

/-! ## Scalars -/

/-- The text of a scalar. -/
def Node.text? : Node → Option String
  | .scalar _ text => some text
  | _ => none

/-- The flag that a plain scalar spells, in small letters, in capitals, or with one capital. -/
def Node.flag? : Node → Option Bool
  | .scalar true text =>
      if text ∈ ["true", "True", "TRUE"] then some true
      else if text ∈ ["false", "False", "FALSE"] then some false
      else none
  | _ => none

/-- The value of a digit in a base. -/
def digitValue? (base : Nat) (digit : Char) : Option Nat :=
  (Go.hexValue? digit).filter fun value => value < base

/-- The number that digits of a base write. There has to be a digit. -/
def number? (base : Nat) (digits : List Char) : Option Nat :=
  if digits.isEmpty then none
  else digits.foldlM (fun value digit => do return base * value + (← digitValue? base digit)) 0

/-- Digits with a zero in front that are no number. -/
def isPaddedDecimal (digits : List Char) : Bool :=
  1 < digits.length && digits.head? == some '0' && digits.all Char.isDigit

/-- The count that characters write: decimal without zeros in front, or with the sign of another
base in front. A plus sign may stand before it. -/
def countOf? (characters : List Char) : Option Nat :=
  let unsigned := if characters.head? == some '+' then characters.tail else characters
  match unsigned with
  | '0' :: 'x' :: digits => number? 16 digits
  | '0' :: 'o' :: digits => number? 8 digits
  | '0' :: 'b' :: digits => number? 2 digits
  | digits => if isPaddedDecimal digits then none else number? 10 digits

/-- The count of a plain scalar, if it takes up no more than 64 bits. -/
def Node.count? : Node → Option UInt64
  | .scalar true text => do
      let value ← countOf? text.toList
      if value < UInt64.size then some (UInt64.ofNat value) else none
  | _ => none

/-! ## Records -/

/-- The members of a record: the entries of a mapping with scalar keys. An empty scalar has
none. -/
def Node.members? : Node → Option (List (String × Node))
  | .mapping entries => entries.mapM fun entry => entry.1.text?.map fun name => (name, entry.2)
  | .scalar _ "" => some []
  | _ => none

/-- Reads a member of a record, which may be absent and may not be repeated. -/
def optionalMember {α : Type} (members : List (String × Node)) (name : String)
    (read : Node → Option α) (default : α) : Option α :=
  match members.filter fun member => member.1 = name with
  | [] => some default
  | [member] => read member.2
  | _ => none

/-- Reads a member of a record, which has to be there and may not be repeated. -/
def requiredMember {α : Type} (members : List (String × Node)) (name : String)
    (read : Node → Option α) : Option α :=
  match members.filter fun member => member.1 = name with
  | [member] => read member.2
  | _ => none

end Pipework.Yaml
