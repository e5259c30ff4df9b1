import Pipework.Part.Basic

/-!
The part that copies every value it receives to each of its outputs.
-/

namespace Pipework.Part

open Json (Decoder Fields Value)

/-- One input, and outputs of the same type. -/
structure Broadcast where
  type : String
  outputs : UInt64
  deriving DecidableEq, Repr, Inhabited

namespace Broadcast

/-- The members of the configuration. -/
def fields : Fields Broadcast :=
  Broadcast.mk <$> Fields.optional "type" Decoder.text defaultElementType <*>
    Fields.optional "outputs" Decoder.count 2

/-- What is wrong with a configuration. -/
def fault (part : Broadcast) : Option PartFault :=
  if Text.isBlank part.type then some (.emptyMember "type")
  else if part.outputs = 0 then some (.zeroMember "outputs")
  else none

/-- The part of a configuration. -/
def ofConfig (config : Value) : Except PartFault Broadcast :=
  readConfig (fields.record "Broadcast" Json.surplusInValue) fault config

/-- The configuration of a part. -/
def config (part : Broadcast) : Value :=
  .object [("outputs", countValue part.outputs), ("type", .string part.type)]

/-- The names of the outputs. -/
def outputNames (part : Broadcast) : List String := numberedNames "output" part.outputs.toNat

/-- The input, then the outputs. -/
def pins (part : Broadcast) : List Pin :=
  Pin.input "input" part.type :: part.outputNames.map fun name => Pin.output name part.type

/-- Receives from a bound input until it is closed and sends each value to every bound
output. -/
def phases (part : Broadcast) (bindings : Bindings) : Phases :=
  if !bindings.contains "input" then .idle
  else
    match boundNames bindings part.outputNames with
    | [] => { Phases.idle with body := "for range input \x7b\n\x7d" }
    | bound@(_ :: _) =>
        { Phases.idle with
          body := joinLines <|
            ["for v := range input \x7b"] ++ bound.map (fun name => "\t" ++ name ++ " <- v") ++
              ["\x7d"] }

end Broadcast

end Pipework.Part
