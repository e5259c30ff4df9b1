import Pipework.CommandLine.Grammar
import Pipework.Project
import Pipework.Workspace.Edit

/-!
The commands, and how they are written.
-/

namespace Pipework.CommandLine

/-! ## Commands -/

/-- What can be asked for. -/
inductive Command where
  | init (path : String) (name? : Option String)
  | newGraph (graph : String) (packagePath? : Option String) (isCommand : Bool)
  | showGraph (graph : String) (asDocument : Bool)
  | setGraph (graph : String) (changes : GraphChanges)
  | checkGraphs (graph? : Option String)
  | addNode (graph name partType : String) (options : NodeOptions)
  | removeNode (graph name : String)
  | setNode (graph name : String) (changes : NodeChanges)
  | moveNode (graph name : String) (x y : Int64)
  | addChannel (graph name first second type : String) (capacity : UInt32)
  | removeChannel (graph name : String)
  | connectPin (graph pin channel : String)
  | disconnectPin (graph pin : String)
  | applyScript (graph input : String)
  | generate (graph? out? : Option String)
  | build (graph : String) (out? : Option String)
  | run (graph : String) (out? : Option String)
  | parts
  deriving DecidableEq, Repr, Inhabited

/-! ## Rules -/

/-- An option with a value. -/
def valued (name : String) (letter? : Option Char) (kind : ValueKind) : OptionRule :=
  ⟨name, letter?, .value kind, false⟩

/-- An option without a value. -/
def switch (name : String) : OptionRule := ⟨name, none, .switch, false⟩

/-- An operand that has to be given. -/
def operand (name : String) (kind : ValueKind) : OperandRule := ⟨name, kind, true⟩

/-- An operand that may be left out. -/
def extra (name : String) : OperandRule := ⟨name, .text, false⟩

/-- The operand that names a graph. -/
def graphOperand : OperandRule := operand "graph" .text

/-- The operand that names a node or a channel. -/
def nameOperand : OperandRule := operand "name" .text

/-- The option that says where packages go. -/
def outOption : OptionRule := valued "out" (some 'o') .text

/-- The option that says which package a graph becomes. -/
def packageOption : OptionRule := valued "package-path" (some 'p') .text

/-- The option with the configuration of a part. -/
def partOption : OptionRule := valued "part" (some 'p') .text

/-- The option that says how many instances of a node run. -/
def multiplicityOption : OptionRule := valued "multiplicity" (some 'm') .count

/-! ## Groups -/

/-- The commands for graphs. -/
def graphGrammar : Grammar Command :=
  .group []
    [("new", .command [packageOption, switch "command"] [graphOperand] fun given => do
        return .newGraph (← given.operand? 0) (given.option? "package-path") (given.has "command")),
      ("show", .command [switch "json"] [graphOperand] fun given => do
        return .showGraph (← given.operand? 0) (given.has "json")),
      ("set", .command [valued "name" none .text, packageOption, valued "command" none .flag]
          [graphOperand] fun given => do
        return .setGraph (← given.operand? 0)
          { name? := given.option? "name", packagePath? := given.option? "package-path",
            isCommand? := (given.option? "command").bind readFlag? }),
      ("check", .command [] [extra "graph"] fun given =>
        some (.checkGraphs (given.operand? 0)))]

/-- What the options of a new node say. -/
def nodeOptions (given : Arguments) : NodeOptions :=
  { part? := given.option? "part",
    multiplicity := ((given.option? "multiplicity").bind readCount?).getD 1,
    disabled := given.has "disabled", unawaited := given.has "no-wait",
    x := ((given.option? "x").bind readCoordinate?).getD 0,
    y := ((given.option? "y").bind readCoordinate?).getD 0 }

/-- What the options of a changed node say. -/
def nodeChanges (given : Arguments) : NodeChanges :=
  { name? := given.option? "rename", partType? := given.option? "part-type",
    part? := given.option? "part", enabled? := (given.option? "enabled").bind readFlag?,
    waits? := (given.option? "wait").bind readFlag?,
    multiplicity? := (given.option? "multiplicity").bind readCount? }

/-- The commands for nodes. -/
def nodeGrammar : Grammar Command :=
  .group []
    [("add", .command
          [partOption, multiplicityOption, switch "disabled", switch "no-wait",
            valued "x" none .coordinate, valued "y" none .coordinate]
          [graphOperand, nameOperand, operand "part-type" .text] fun given => do
        return .addNode (← given.operand? 0) (← given.operand? 1) (← given.operand? 2)
          (nodeOptions given)),
      ("rm", .command [] [graphOperand, nameOperand] fun given => do
        return .removeNode (← given.operand? 0) (← given.operand? 1)),
      ("set", .command
          [valued "rename" none .text, valued "part-type" none .text, partOption,
            valued "enabled" none .flag, valued "wait" none .flag, multiplicityOption]
          [graphOperand, nameOperand] fun given => do
        return .setNode (← given.operand? 0) (← given.operand? 1) (nodeChanges given)),
      ("move", .command []
          [graphOperand, nameOperand, operand "x" .coordinate, operand "y" .coordinate]
          fun given => do
        return .moveNode (← given.operand? 0) (← given.operand? 1)
          (← (given.operand? 2).bind readCoordinate?) (← (given.operand? 3).bind readCoordinate?))]

/-- The commands for channels. -/
def channelGrammar : Grammar Command :=
  .group []
    [("add", .command
          [{ valued "type" (some 't') .text with required := true }, valued "cap" none .count]
          [graphOperand, nameOperand, operand "from" .text, operand "to" .text] fun given => do
        return .addChannel (← given.operand? 0) (← given.operand? 1) (← given.operand? 2)
          (← given.operand? 3) (← given.option? "type")
          (((given.option? "cap").bind readCount?).getD 0)),
      ("rm", .command [] [graphOperand, nameOperand] fun given => do
        return .removeChannel (← given.operand? 0) (← given.operand? 1))]

/-- The commands for pins. -/
def pinGrammar : Grammar Command :=
  .group []
    [("connect", .command [] [graphOperand, operand "pin" .text, operand "channel" .text]
          fun given => do
        return .connectPin (← given.operand? 0) (← given.operand? 1) (← given.operand? 2)),
      ("disconnect", .command [] [graphOperand, operand "pin" .text] fun given => do
        return .disconnectPin (← given.operand? 0) (← given.operand? 1))]

/-! ## The command line -/

/-- The option that says where the project is. -/
def configOption : OptionRule := valued "config" (some 'c') .text

/-- All commands. -/
def grammar : Grammar Command :=
  .group
    [configOption, ⟨"verbose", some 'v', .switch, false⟩, ⟨"version", some 'V', .version, false⟩]
    [("init", .command [valued "name" (some 'n') .text] [extra "path"] fun given =>
        some (.init ((given.operand? 0).getD ".") (given.option? "name"))),
      ("graph", graphGrammar), ("node", nodeGrammar), ("channel", channelGrammar),
      ("pin", pinGrammar),
      ("apply", .command [] [graphOperand, extra "input"] fun given => do
        return .applyScript (← given.operand? 0) ((given.operand? 1).getD "-")),
      ("generate", .command [outOption] [extra "graph"] fun given =>
        some (.generate (given.operand? 0) (given.option? "out"))),
      ("build", .command [outOption] [graphOperand] fun given => do
        return .build (← given.operand? 0) (given.option? "out")),
      ("run", .command [outOption] [graphOperand] fun given => do
        return .run (← given.operand? 0) (given.option? "out")),
      ("parts", .command [] [] fun _ => some .parts)]

/-- Where the project is when the command line does not say it. -/
def defaultConfig : String := Project.settingsFile

end Pipework.CommandLine
