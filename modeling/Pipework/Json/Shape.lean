import Pipework.Json.Reading
import Pipework.Text.Quoted

/-!
Reading typed values out of JSON trees.

A record is given by its `Fields`: what each member is called, how it is read and what stands
for it when it is absent. A record may be written as an object or as an array of its fields.
Members are looked at in the order in which they stand, so the first wrong one is reported;
only then are absent members, in the order of the fields.
-/

namespace Pipework.Json

open Pipework.Text

/-! ## Errors -/

/-- Why a tree does not have the wanted shape. -/
inductive ShapeError where
  /-- Another kind of value stands there; `found` describes it. -/
  | wrongKind (found expected : String)
  /-- A value of the right kind that is none of those expected. -/
  | wrongValue (found expected : String)
  | missingMember (name : String)
  | repeatedMember (name : String)
  | unknownVariant (name : String) (expected : String)
  | wrongLength (length : Nat) (expected : String)
  deriving DecidableEq, Repr, Inhabited

/-- The text of a shape error. -/
def ShapeError.message : ShapeError → String
  | wrongKind found expected => "invalid type: " ++ found ++ ", expected " ++ expected
  | wrongValue found expected => "invalid value: " ++ found ++ ", expected " ++ expected
  | missingMember name => "missing field `" ++ name ++ "`"
  | repeatedMember name => "duplicate field `" ++ name ++ "`"
  | unknownVariant name expected => "unknown variant `" ++ name ++ "`, expected " ++ expected
  | wrongLength length expected => "invalid length " ++ toString length ++ ", expected " ++ expected

/-- Why a typed value cannot be read: the text is no JSON, or JSON of another shape. -/
inductive DecodeError where
  | unreadable (error : ReadError)
  | shape (error : ShapeError)
  deriving DecidableEq, Repr, Inhabited

/-- The text of an error in reading. -/
def DecodeError.message : DecodeError → String
  | shape error => error.message
  | unreadable .malformed => "malformed text"
  | unreadable .truncated => "text ends too early"

/-- A way to read a typed value out of a tree. -/
abbrev Decoder (α : Type) := Reading → Except DecodeError α

/-- How a whole number or another number is described. -/
def Number.describe : Number → String
  | whole value => "integer `" ++ toString value ++ "`"
  | binary bits => "floating point `" ++ binaryText bits ++ "`"

/-- How a tree is described where another kind of value was expected. -/
def Reading.describe : Reading → String
  | null => "null"
  | bool value => "boolean `" ++ (if value then "true" else "false") ++ "`"
  | number value => value.describe
  | string value => "string " ++ quoted value
  | array .. => "sequence"
  | object .. => "map"
  | unreadable _ => ""

/-- Refuses a tree where another kind of value was expected. A tree that could not be read is
refused for that. -/
def refuse {α : Type} (expected : String) : Decoder α
  | .unreadable fault => .error (.unreadable fault.wanted)
  | tree => .error (.shape (.wrongKind tree.describe expected))

/-! ## Single values -/

namespace Decoder

/-- A string. -/
def text : Decoder String
  | .string value => .ok value
  | tree => refuse "a string" tree

/-- A boolean. -/
def flag : Decoder Bool
  | .bool value => .ok value
  | tree => refuse "a boolean" tree

/-- A whole number between two bounds. -/
def wholeBetween (low high : Int) (expected : String) : Decoder Int
  | .number (.whole value) =>
      if low ≤ value ∧ value ≤ high then .ok value
      else .error (.shape (.wrongValue (Number.whole value).describe expected))
  | tree => refuse expected tree

/-- An unsigned number of 32 bits. -/
def unsigned32 : Decoder UInt32 := fun tree =>
  (wholeBetween 0 (UInt32.size - 1) "u32" tree).map fun value => UInt32.ofNat value.toNat

/-- An unsigned number of 64 bits, as a count. -/
def count : Decoder UInt64 := fun tree =>
  (wholeBetween 0 (UInt64.size - 1) "usize" tree).map fun value => UInt64.ofNat value.toNat

/-- A signed number of 64 bits. -/
def signed64 : Decoder Int64 := fun tree =>
  (wholeBetween Int64.minValue.toInt Int64.maxValue.toInt "i64" tree).map Int64.ofInt

/-- Any value. -/
def any : Decoder Value := fun tree =>
  match tree.value with
  | .ok value => .ok value
  | .error error => .error (.unreadable error)

/-- The items of an array, each read in turn, up to a fault that stops them. -/
def items {α : Type} (item : Decoder α) :
    List Reading → Option Fault → Except DecodeError (List α)
  | [], none => .ok []
  | [], some fault => .error (.unreadable fault.wanted)
  | tree :: rest, stop =>
      match item tree with
      | .error error => .error error
      | .ok value =>
          match items item rest stop with
          | .error error => .error error
          | .ok values => .ok (value :: values)

/-- An array of values of one shape. -/
def list {α : Type} (item : Decoder α) : Decoder (List α)
  | .array trees stop => items item trees stop
  | tree => refuse "a sequence" tree

/-- The members of an object, each read in turn, up to a fault that stops them. -/
def members {α : Type} (item : Decoder α) :
    List (Option String × Reading) → Option Fault → Except DecodeError (List (String × α))
  | [], none => .ok []
  | [], some fault => .error (.unreadable fault.wanted)
  | (none, _) :: _, _ => .error (.unreadable .malformed)
  | (some key, tree) :: rest, stop =>
      match item tree with
      | .error error => .error error
      | .ok value =>
          match members item rest stop with
          | .error error => .error error
          | .ok values => .ok ((key, value) :: values)

/-- An object whose members have values of one shape, in the order in which they stand. -/
def map {α : Type} (item : Decoder α) : Decoder (List (String × α))
  | .object trees stop => members item trees stop
  | tree => refuse "a map" tree

end Decoder

/-! ## Records -/

/-- What is known of one member of a record before the record is put together. -/
structure FieldSpec where
  name : String
  optional : Bool
  /-- What is wrong with a member of this name. -/
  check : Reading → Option DecodeError

/-- The members of a record, and how it is put together from those that are there. -/
structure Fields (α : Type) where
  specs : List FieldSpec
  build : (String → Option Reading) → Except DecodeError α

/-- What is wrong with a tree that a decoder refuses. -/
def checkWith {α : Type} (decoder : Decoder α) (tree : Reading) : Option DecodeError :=
  match decoder tree with
  | .ok _ => none
  | .error error => some error

namespace Fields

variable {α β : Type}

/-- A record without members. -/
def pure (value : α) : Fields α := ⟨[], fun _ => .ok value⟩

/-- A record that takes one more member. -/
def seq (first : Fields (α → β)) (second : Unit → Fields α) : Fields β :=
  ⟨first.specs ++ (second ()).specs, fun find => do
    let combine ← first.build find
    let value ← (second ()).build find
    return combine value⟩

instance : Applicative Fields where
  pure := pure
  seq := seq

/-- A member that has to be there. -/
def required (name : String) (decoder : Decoder α) : Fields α :=
  ⟨[⟨name, false, checkWith decoder⟩], fun find =>
    match find name with
    | some tree => decoder tree
    | none => .error (.shape (.missingMember name))⟩

/-- A member that a default stands for when it is absent. -/
def optional (name : String) (decoder : Decoder α) (default : α) : Fields α :=
  ⟨[⟨name, true, checkWith decoder⟩], fun find =>
    match find name with
    | some tree => decoder tree
    | none => .ok default⟩

/-- Looks at the members of an object in turn. A member that the record does not know is
passed over; one that it knows must not stand twice. -/
def checkMembers (specs : List FieldSpec) (seen : List String) :
    List (Option String × Reading) → Option DecodeError
  | [] => none
  | (none, _) :: _ => some (.unreadable .malformed)
  | (some key, tree) :: rest =>
      match specs.find? (fun spec => spec.name = key) with
      | none =>
          match tree.skipError with
          | some error => some (.unreadable error)
          | none => checkMembers specs seen rest
      | some spec =>
          if key ∈ seen then some (.shape (.repeatedMember key))
          else
            match spec.check tree with
            | some error => some error
            | none => checkMembers specs (key :: seen) rest

/-- The tree of the first member with a name. -/
def find (members : List (Option String × Reading)) (name : String) : Option Reading :=
  (members.find? (fun member => member.1 = some name)).map Prod.snd

/-- A record written as an object. -/
def ofMembers (fields : Fields α) (members : List (Option String × Reading))
    (stop : Option Fault) : Except DecodeError α :=
  match checkMembers fields.specs [] members, stop with
  | some error, _ => .error error
  | none, some fault => .error (.unreadable fault.wanted)
  | none, none => fields.build (find members)

/-- Looks at the items of an array, each as the next field, and names them. -/
def nameItems (wrongLength : Nat → DecodeError) (surplus : Nat → DecodeError)
    (stop : Option Fault) :
    Nat → List FieldSpec → List Reading →
      Except DecodeError (List (Option String × Reading))
  | _, [], [] =>
      match stop with
      | some fault => .error (.unreadable fault.wanted)
      | none => .ok []
  | index, [], items@(_ :: _) => .error (surplus (index + items.length))
  | index, spec :: specs, [] =>
      match stop with
      | some fault => .error (.unreadable fault.wanted)
      | none =>
          if spec.optional then nameItems wrongLength surplus stop (index + 1) specs []
          else .error (wrongLength index)
  | index, spec :: specs, item :: items =>
      match spec.check item with
      | some error => .error error
      | none =>
          match nameItems wrongLength surplus stop (index + 1) specs items with
          | .error error => .error error
          | .ok named => .ok ((some spec.name, item) :: named)

/-- A record written as an array of its fields. Fields with a default may be left off at the
end; `surplus` is the error when items are left over. -/
def ofItems (fields : Fields α) (expected : String) (surplus : Nat → DecodeError)
    (items : List Reading) (stop : Option Fault) : Except DecodeError α :=
  match nameItems (fun length => .shape (.wrongLength length expected)) surplus stop 0
      fields.specs items with
  | .error error => .error error
  | .ok named => fields.build (find named)

/-- How many elements a record has, in words. -/
def elements (count : Nat) : String :=
  toString count ++ (if count = 1 then " element" else " elements")

/-- A record, as an object or an array. -/
def record (name : String) (surplus : Nat → Nat → DecodeError) (fields : Fields α) : Decoder α
  | .object members stop => fields.ofMembers members stop
  | .array items stop =>
      fields.ofItems ("struct " ++ name ++ " with " ++ elements fields.specs.length)
        (surplus fields.specs.length) items stop
  | tree => refuse ("struct " ++ name) tree

end Fields

/-- What is said of items left over in a record that stands in a value. -/
def surplusInValue (_expected length : Nat) : DecodeError :=
  .shape (.wrongLength length "fewer elements in array")

/-- What is said of items left over behind the tag of a tagged record. -/
def surplusBehindTag (expected length : Nat) : DecodeError :=
  .shape (.wrongLength length (Fields.elements expected ++ " in sequence"))

/-- What is said of items left over in a record that is read straight from a text. -/
def surplusInText (_expected _length : Nat) : DecodeError := .unreadable .malformed

end Pipework.Json
