import Pipework.Text.Blank
import Pipework.Json.Shape

/-!
Pins: the named, typed and directed points at which a part meets its channels.

A pin's name becomes a parameter of a Go function, so it has to be a Go identifier that hides
nothing the function needs.
-/

namespace Pipework

open Json (Decoder DecodeError Fields Reading ShapeError Value)

/-! ## Pins -/

/-- Which way values pass through a pin, seen from the part. -/
inductive Direction where
  | input
  | output
  deriving DecidableEq, Repr, Inhabited

namespace Direction

/-- The word for a direction. -/
def word : Direction → String
  | input => "input"
  | output => "output"

/-- The direction that a word names. -/
def ofWord? (word : String) : Option Direction :=
  if word = "input" then some input
  else if word = "output" then some output
  else none

end Direction

/-- A pin of a part. -/
structure Pin where
  name : String
  /-- The Go type of the values that pass. -/
  type : String
  direction : Direction
  deriving DecidableEq, Repr, Inhabited

/-- A pin that receives. -/
def Pin.input (name type : String) : Pin := ⟨name, type, .input⟩

/-- A pin that sends. -/
def Pin.output (name type : String) : Pin := ⟨name, type, .output⟩

/-- The first pin of a list with a name. -/
def findPin (pins : List Pin) (name : String) : Option Pin :=
  pins.find? fun pin => pin.name = name

/-! ## Names that Go claims -/

/-- The words of Go that name nothing. -/
def goKeywords : List String :=
  ["break", "case", "chan", "const", "continue", "default", "defer", "else", "fallthrough",
    "for", "func", "go", "goto", "if", "import", "interface", "map", "package", "range",
    "return", "select", "struct", "switch", "type", "var"]

/-- The names that every Go file finds declared. -/
def goPredeclared : List String :=
  ["any", "bool", "byte", "comparable", "complex64", "complex128", "error", "float32",
    "float64", "int", "int8", "int16", "int32", "int64", "rune", "string", "uint", "uint8",
    "uint16", "uint32", "uint64", "uintptr", "true", "false", "iota", "append", "cap",
    "clear", "close", "complex", "copy", "delete", "imag", "len", "make", "max", "min",
    "new", "panic", "print", "println", "real", "recover"]

/-- The names that a node's function uses itself, the word for an unbound pin, and the name
that binds nothing. -/
def reservedPinNames : List String :=
  ["instanceNumber", "multiplicity", "instanceWG", "sync", "nil", "_"]

/-- An ASCII letter or an underscore. -/
def isNameStart (character : Char) : Bool :=
  character.isAlpha || character = '_'

/-- An ASCII letter, an ASCII digit or an underscore. -/
def isNamePart (character : Char) : Bool :=
  character.isAlphanum || character = '_'

/-- Whether a text is a Go identifier of ASCII characters. -/
def isGoName (name : String) : Bool :=
  match name.toList with
  | [] => false
  | first :: rest => isNameStart first && rest.all isNamePart

/-! ## Checks -/

/-- Why pins are refused. -/
inductive PinFault where
  | notIdentifier (name : String)
  | reserved (name : String)
  | predeclared (name : String)
  | emptyType (name : String)
  | duplicate (name : String)
  deriving DecidableEq, Repr, Inhabited

/-- The text of a pin fault. -/
def PinFault.message : PinFault → String
  | notIdentifier name => "pin name '" ++ name ++ "' is not a Go identifier"
  | reserved name => "pin name '" ++ name ++ "' is reserved"
  | predeclared name => "pin name '" ++ name ++ "' would shadow a Go predeclared identifier"
  | emptyType name => "pin '" ++ name ++ "' has an empty type"
  | duplicate name => "duplicate pin name '" ++ name ++ "'"

/-- What is wrong with a pin's name. -/
def pinNameFault (name : String) : Option PinFault :=
  if !isGoName name then some (.notIdentifier name)
  else if name ∈ goKeywords || name ∈ reservedPinNames then some (.reserved name)
  else if name ∈ goPredeclared then some (.predeclared name)
  else none

/-- What is wrong with pins that stand behind others with the `seen` names. -/
def pinsFaultFrom (seen : List String) : List Pin → Option PinFault
  | [] => none
  | pin :: rest =>
      match pinNameFault pin.name with
      | some fault => some fault
      | none =>
          if Text.isBlank pin.type then some (.emptyType pin.name)
          else if pin.name ∈ seen then some (.duplicate pin.name)
          else pinsFaultFrom (pin.name :: seen) rest

/-- The first thing that is wrong with a list of pins: each is checked for its name, its type
and whether the name stood before. -/
def pinsFault (pins : List Pin) : Option PinFault := pinsFaultFrom [] pins

/-! ## Pins as JSON -/

/-- The two words, as they are listed where another word stands. -/
def directionWords : String := "`input` or `output`"

/-- Reads a direction: its word, or an object with the word over null. -/
def Direction.decoder : Decoder Direction
  | .string word => ofWord word
  | .object [(some word, content)] none =>
      match Direction.ofWord? word with
      | none => .error (.shape (.unknownVariant word directionWords))
      | some direction =>
          match content with
          | .null => .ok direction
          | _ => .error (.shape (.wrongKind content.describe "unit"))
  | .object _ _ => .error (.shape (.wrongValue "map" "map with a single key"))
  | tree => Json.refuse "string or map" tree
where
  ofWord (word : String) : Except DecodeError Direction :=
    match Direction.ofWord? word with
    | some direction => .ok direction
    | none => .error (.shape (.unknownVariant word directionWords))

/-- The members of a pin. -/
def Pin.fields : Fields Pin :=
  Pin.mk <$> Fields.required "name" Decoder.text <*> Fields.required "type" Decoder.text <*>
    Fields.required "direction" Direction.decoder

/-- Reads a pin out of a value. -/
def Pin.decoder : Decoder Pin := Pin.fields.record "PinDefinition" Json.surplusInValue

/-- A pin as a value, with sorted members. -/
def Pin.value (pin : Pin) : Value :=
  .object [("direction", .string pin.direction.word), ("name", .string pin.name),
    ("type", .string pin.type)]

end Pipework
