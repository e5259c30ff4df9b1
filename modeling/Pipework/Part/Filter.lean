import Pipework.Part.Basic

/-!
The part that sends each value to one of two outputs, as a predicate says.
-/

namespace Pipework.Part

open Json (Decoder Fields Value)

/-- A predicate over `v`, written in Go, and the type of `v`. -/
structure Filter where
  type : String
  predicate : String
  deriving DecidableEq, Repr, Inhabited

namespace Filter

/-- The members of the configuration; the predicate has no default. -/
def fields : Fields Filter :=
  Filter.mk <$> Fields.optional "type" Decoder.text defaultElementType <*>
    Fields.required "predicate" Decoder.text

/-- What is wrong with a configuration. -/
def fault (part : Filter) : Option PartFault :=
  if Text.isBlank part.type then some (.emptyMember "type")
  else if Text.isBlank part.predicate then some (.emptyMember "predicate")
  else none

/-- The part of a configuration. -/
def ofConfig (config : Value) : Except PartFault Filter :=
  readConfig (fields.record "Filter" Json.surplusInValue) fault config

/-- The configuration of a part. -/
def config (part : Filter) : Value :=
  .object [("predicate", .string part.predicate), ("type", .string part.type)]

/-- The input, and the outputs for values that satisfy the predicate and for the others. -/
def pins (part : Filter) : List Pin :=
  [Pin.input "input" part.type, Pin.output "match" part.type, Pin.output "nomatch" part.type]

/-- The sending of a value to an output, if that is bound. -/
def branch (bindings : Bindings) (name : String) : List String :=
  if bindings.contains name then ["\t\t" ++ name ++ " <- v"] else []

/-- Receives from a bound input until it is closed; values for an output that is not bound are
dropped. -/
def phases (part : Filter) (bindings : Bindings) : Phases :=
  if !bindings.contains "input" then .idle
  else
    { head := joinLines
        ["keep := func(v " ++ part.type ++ ") bool \x7b", "\treturn " ++ part.predicate, "\x7d"]
      body := joinLines <|
        ["for v := range input \x7b", "\tif keep(v) \x7b"] ++ branch bindings "match" ++
          ["\t\x7d else \x7b"] ++ branch bindings "nomatch" ++ ["\t\x7d", "\x7d"]
      tail := "" }

end Filter

end Pipework.Part
