import Pipework.Part.Basic

/-!
The part that receives values and drops them.
-/

namespace Pipework.Part

open Json (Decoder Fields Value)

/-- The type of the values that are dropped. -/
structure Sink where
  type : String
  deriving DecidableEq, Repr, Inhabited

namespace Sink

/-- The members of the configuration. -/
def fields : Fields Sink :=
  Sink.mk <$> Fields.optional "type" Decoder.text defaultElementType

/-- What is wrong with a configuration. -/
def fault (part : Sink) : Option PartFault :=
  if Text.isBlank part.type then some (.emptyMember "type") else none

/-- The part of a configuration. -/
def ofConfig (config : Value) : Except PartFault Sink :=
  readConfig (fields.record "Sink" Json.surplusInValue) fault config

/-- The configuration of a part. -/
def config (part : Sink) : Value := .object [("type", .string part.type)]

/-- The input. -/
def pins (part : Sink) : List Pin := [Pin.input "input" part.type]

/-- Receives from a bound input until it is closed. -/
def phases (_part : Sink) (bindings : Bindings) : Phases :=
  if bindings.contains "input" then { Phases.idle with body := "for range input \x7b\n\x7d" }
  else .idle

end Sink

end Pipework.Part
