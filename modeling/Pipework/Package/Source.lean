import Pipework.Wiring
import Pipework.Go.Literal
import Pipework.Text.Lines

/-!
The Go sources of a program.

The main file declares a function for each enabled node and an entry point that makes the
channels, merges private channels and starts the nodes. A library also has a runner, a command
that does nothing but call the entry point. Every source is a list of lines; a line may hold
code of several lines that parts contribute.
-/

namespace Pipework.Source

/-! ## Lines -/

/-- Code of a part as a line at some level, or no line when there is nothing but blanks. -/
def codeLines (levels : Nat) (code : String) : List String :=
  let indented := Text.indent levels (Text.trimEnd code)
  if indented.isEmpty then [] else [indented]

/-- The line by which a source is known to be generated. -/
def mark (graphName : String) : String :=
  "// Code generated by chanweave from graph " ++ Go.literal graphName ++ ". DO NOT EDIT."

/-! ## Node functions -/

/-- The lines of the function of a node. -/
def nodeLines (wired : WiredNode) : List String :=
  let phases := wired.node.part.phases wired.bindings
  let params := String.intercalate ", " (wired.params.map Param.declaration)
  ["",
    "// " ++ wired.ident ++ " runs node " ++ Go.literal wired.node.name ++ " (" ++
      wired.node.part.kind.key ++ ").",
    "func " ++ wired.ident ++ "(" ++ params ++ ") \x7b",
    "\tmultiplicity := " ++ toString wired.node.multiplicity.toNat] ++
  codeLines 1 phases.head ++
  ["\tvar instanceWG sync.WaitGroup",
    "\tfor instanceNumber := 0; instanceNumber < multiplicity; instanceNumber++ \x7b",
    "\t\tinstanceWG.Add(1)",
    "\t\tgo func(instanceNumber int) \x7b",
    "\t\t\tdefer instanceWG.Done()",
    "\t\t\t_, _ = instanceNumber, multiplicity"] ++
  codeLines 3 phases.body ++
  ["\t\t\x7d(instanceNumber)",
    "\t\x7d",
    "\tinstanceWG.Wait()"] ++
  codeLines 1 phases.tail ++
  (wired.closes.map fun pin => "\tclose(" ++ pin ++ ")") ++
  ["\x7d"]

/-! ## The entry point -/

/-- A line that makes a variable for the values of a channel. -/
def makeLine (channel : WiredChannel) (ident : String) : String :=
  "\t" ++ ident ++ " := make(chan " ++ channel.type ++ ", " ++
    toString channel.capacity.toNat ++ ")"

/-- The lines that make a channel and its private channels. -/
def channelLines (channel : WiredChannel) : List String :=
  (channel.ident :: channel.writers).map (makeLine channel)

/-- The lines that merge the private channels of a channel, if it has any, and close it once
all of them are closed. -/
def mergeLines (channel : WiredChannel) : List String :=
  if channel.writers.isEmpty then []
  else
    ["",
      "\tgo func() \x7b",
      "\t\tvar mergeWG sync.WaitGroup",
      "\t\tfor _, w := range []chan " ++ channel.type ++ "\x7b" ++
        String.intercalate ", " channel.writers ++ "\x7d \x7b",
      "\t\t\tmergeWG.Add(1)",
      "\t\t\tgo func(w chan " ++ channel.type ++ ") \x7b",
      "\t\t\t\tdefer mergeWG.Done()",
      "\t\t\t\tfor v := range w \x7b",
      "\t\t\t\t\t" ++ channel.ident ++ " <- v",
      "\t\t\t\t\x7d",
      "\t\t\t\x7d(w)",
      "\t\t\x7d",
      "\t\tmergeWG.Wait()",
      "\t\tclose(" ++ channel.ident ++ ")",
      "\t\x7d()"]

/-- The lines that start a node. -/
def startLines (wired : WiredNode) : List String :=
  let call :=
    wired.ident ++ "(" ++ String.intercalate ", " (wired.params.map Param.argument) ++ ")"
  if wired.node.waits then
    ["\tnodeWG.Add(1)",
      "\tgo func() \x7b",
      "\t\tdefer nodeWG.Done()",
      "\t\t" ++ call,
      "\t\x7d()"]
  else ["\tgo " ++ call]

/-- The lines of the entry point. -/
def entryLines (entry : String) (wiring : Wiring) : List String :=
  ["",
    "// " ++ entry ++ " allocates the channels and starts every node.",
    "func " ++ entry ++ "() \x7b"] ++
  wiring.channels.flatMap channelLines ++
  wiring.channels.flatMap mergeLines ++
  ["",
    "\tvar nodeWG sync.WaitGroup"] ++
  wiring.nodes.flatMap startLines ++
  ["\tnodeWG.Wait()",
    "\x7d"]

/-! ## Files -/

/-- The packages that a main file imports: those that its parts need, and the one that the
functions themselves need. -/
def imports (wiring : Wiring) : KeySet String :=
  KeySet.ofList ("sync" :: wiring.nodes.flatMap fun wired => wired.node.part.imports)

/-- A line that imports a package. -/
def importLine (path : String) : String := "\t\"" ++ path ++ "\""

/-- The declarations that parts need, one of each key. -/
def supports (wiring : Wiring) : Table String String :=
  Table.ofList <|
    (wiring.nodes.filterMap fun wired => wired.node.part.support?).map fun support =>
      (support.key, support.code)

/-- The name of the entry point. -/
def entryName (isCommand : Bool) : String := if isCommand then "main" else "Run"

/-- The main file of a graph in a package. -/
def main (graph : Graph) (package : String) : String :=
  let wiring := graph.wiring
  Text.ofLines <|
    [mark graph.name,
      "",
      "package " ++ package,
      "",
      "import ("] ++
    (imports wiring).toList.map importLine ++
    [")"] ++
    ((supports wiring).values.flatMap fun code => ["", code]) ++
    wiring.nodes.flatMap nodeLines ++
    entryLines (entryName graph.isCommand) wiring

/-- The runner of a library with a module path. -/
def runner (graphName modulePath : String) : String :=
  Text.ofLines
    [mark graphName,
      "",
      "package main",
      "",
      "import pipeline \"" ++ modulePath ++ "\"",
      "",
      "func main() \x7b",
      "\tpipeline.Run()",
      "\x7d"]

/-- The version of Go that modules ask for. -/
def goVersion : String := "1.22"

/-- The module file. -/
def goMod (modulePath : String) : String :=
  Text.ofLines ["module " ++ modulePath, "", "go " ++ goVersion]

end Pipework.Source
