import Pipework.Part.Basic

/-!
The part that merges what it receives on its inputs into one output.
-/

namespace Pipework.Part

open Json (Decoder Fields Value)

/-- Inputs, and an output of the same type. -/
structure Join where
  type : String
  inputs : UInt64
  deriving DecidableEq, Repr, Inhabited

namespace Join

/-- The members of the configuration. -/
def fields : Fields Join :=
  Join.mk <$> Fields.optional "type" Decoder.text defaultElementType <*>
    Fields.optional "inputs" Decoder.count 2

/-- What is wrong with a configuration. -/
def fault (part : Join) : Option PartFault :=
  if Text.isBlank part.type then some (.emptyMember "type")
  else if part.inputs = 0 then some (.zeroMember "inputs")
  else none

/-- The part of a configuration. -/
def ofConfig (config : Value) : Except PartFault Join :=
  readConfig (fields.record "Join" Json.surplusInValue) fault config

/-- The configuration of a part. -/
def config (part : Join) : Value :=
  .object [("inputs", countValue part.inputs), ("type", .string part.type)]

/-- The names of the inputs. -/
def inputNames (part : Join) : List String := numberedNames "input" part.inputs.toNat

/-- The inputs, then the output. -/
def pins (part : Join) : List Pin :=
  part.inputNames.map (fun name => Pin.input name part.type) ++ [Pin.output "output" part.type]

/-- What is done with the values of one input: they are sent on while the output is bound, and
dropped otherwise. -/
def forward (bindings : Bindings) : List String :=
  if bindings.contains "output" then
    ["\t\tfor v := range in \x7b", "\t\t\toutput <- v", "\t\t\x7d"]
  else ["\t\tfor range in \x7b", "\t\t\x7d"]

/-- Receives from every bound input, each on its own, until all are closed. -/
def phases (part : Join) (bindings : Bindings) : Phases :=
  match boundNames bindings part.inputNames with
  | [] => .idle
  | bound@(_ :: _) =>
      { Phases.idle with
        body := joinLines <|
          ["var joinWG sync.WaitGroup",
            "for _, in := range []<-chan " ++ part.type ++ "\x7b" ++
              String.intercalate ", " bound ++ "\x7d \x7b",
            "\tjoinWG.Add(1)",
            "\tgo func(in <-chan " ++ part.type ++ ") \x7b",
            "\t\tdefer joinWG.Done()"] ++
          forward bindings ++
          ["\t\x7d(in)", "\x7d", "joinWG.Wait()"] }

end Join

end Pipework.Part
