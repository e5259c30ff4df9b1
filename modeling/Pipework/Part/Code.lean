import Pipework.Part.Basic
import Pipework.Text.Split

/-!
The part whose Go code and pins the user writes.
-/

namespace Pipework.Part

open Json (Decoder Fields Value)

/-- Go code of the user's own for each phase, with pins of the user's own. Pins that are not
bound arrive as nil. -/
structure Code where
  imports : List String
  head : String
  body : String
  tail : String
  pins : List Pin
  deriving DecidableEq, Repr, Inhabited

namespace Code

/-- The members of the configuration; each may be absent. -/
def fields : Fields Code :=
  Code.mk <$> Fields.optional "imports" (Decoder.list Decoder.text) [] <*>
    Fields.optional "head" Decoder.text "" <*> Fields.optional "body" Decoder.text "" <*>
    Fields.optional "tail" Decoder.text "" <*>
    Fields.optional "pins" (Decoder.list Pin.decoder) []

/-- The name under which an imported package is seen: what stands behind the last slash of its
path. -/
def packageOf (path : String) : String := String.ofList (Text.afterLast '/' path.toList)

/-- Whether a path can stand in an import: it has a character, and neither a quote, a line feed
nor a blank. -/
def isImportPath (path : String) : Bool :=
  !path.isEmpty && path.toList.all fun character =>
    character ≠ '"' && character ≠ '\n' && character ≠ ' '

/-- What is wrong with an import beside some pins. -/
def importFault (pins : List Pin) (path : String) : Option PartFault :=
  if !isImportPath path then some (.invalidImport path)
  else (findPin pins (packageOf path)).map fun pin => .importHidden pin.name path

/-- What is wrong with a configuration. -/
def fault (code : Code) : Option PartFault :=
  match pinsFault code.pins with
  | some fault => some (.pins fault)
  | none => code.imports.findSome? (importFault code.pins)

/-- The part of a configuration. -/
def ofConfig (config : Value) : Except PartFault Code :=
  readConfig (fields.record "Code" Json.surplusInValue) fault config

/-- The configuration of a part. -/
def config (code : Code) : Value :=
  .object [("body", .string code.body), ("head", .string code.head),
    ("imports", .array (code.imports.map .string)), ("pins", .array (code.pins.map Pin.value)),
    ("tail", .string code.tail)]

/-- The user's code, whatever is bound. -/
def phases (code : Code) : Phases := ⟨code.head, code.body, code.tail⟩

end Code

end Pipework.Part
