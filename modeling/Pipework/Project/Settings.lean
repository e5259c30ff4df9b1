import Pipework.Store
import Pipework.Yaml.Record

/-!
The settings of a project, and their YAML text.
-/

namespace Pipework

open Yaml (optionalMember requiredMember)

/-! ## Settings -/

/-- How code is generated. -/
structure CodegenSettings where
  /-- Whether generated sources are formatted. -/
  format : Bool
  /-- The program that formats. -/
  gofmt : String
  /-- The program that builds and runs. -/
  go : String
  deriving DecidableEq, Repr, Inhabited

/-- Sources are formatted, with the programs of a Go installation. -/
def CodegenSettings.default : CodegenSettings := ⟨true, "gofmt", "go"⟩

/-- The settings of a project. -/
structure Settings where
  name : String
  /-- The directory of the graphs, seen from the project. -/
  graphsDirectory : String
  /-- The directory of the generated packages, seen from the project. -/
  outputDirectory : String
  codegen : CodegenSettings
  /-- How long a save may take, in milliseconds. -/
  saveTimeout : UInt64
  deriving DecidableEq, Repr, Inhabited

namespace Settings

/-- The settings of a project of which only the name is known. -/
def ofName (name : String) : Settings :=
  { name, graphsDirectory := "graphs", outputDirectory := "gen",
    codegen := CodegenSettings.default, saveTimeout := defaultSaveTimeout }

/-! ## Reading -/

/-- Reads how code is generated. -/
def codegenOf? (node : Yaml.Node) : Option CodegenSettings := do
  let members ← node.members?
  let default := CodegenSettings.default
  return {
    format := ← optionalMember members "format" Yaml.Node.flag? default.format
    gofmt := ← optionalMember members "gofmt" Yaml.Node.text? default.gofmt
    go := ← optionalMember members "go" Yaml.Node.text? default.go }

/-- Reads how long a save may take. -/
def saveTimeoutOf? (node : Yaml.Node) : Option UInt64 := do
  optionalMember (← node.members?) "save_timeout_ms" Yaml.Node.count? defaultSaveTimeout

/-- Reads settings out of a document. Only the name has to be there. -/
def ofNode? (node : Yaml.Node) : Option Settings := do
  let members ← node.members?
  let default := Settings.ofName (← requiredMember members "name" Yaml.Node.text?)
  return {
    name := default.name
    graphsDirectory :=
      ← optionalMember members "graphs_dir" Yaml.Node.text? default.graphsDirectory
    outputDirectory :=
      ← optionalMember members "output_dir" Yaml.Node.text? default.outputDirectory
    codegen := ← optionalMember members "codegen" codegenOf? default.codegen
    saveTimeout := ← optionalMember members "store" saveTimeoutOf? default.saveTimeout }

/-- Reads settings out of a text. -/
def ofText (text : String) : Except Error Settings :=
  match (Yaml.Node.ofText? text).bind ofNode? with
  | some settings => .ok settings
  | none => .error .configUnreadable

/-! ## Writing -/

/-- The text of a new project's settings. -/
def initialText (name : String) : String :=
  Text.ofLines
    ["# chanweave project configuration",
      "name: " ++ name,
      "",
      "# Graph files (JSON) live here",
      "graphs_dir: graphs",
      "",
      "# Generated Go packages are written here, one directory per graph",
      "output_dir: gen",
      "",
      "codegen:",
      "  format: true",
      "  gofmt: gofmt",
      "  go: go",
      "",
      "store:",
      "  save_timeout_ms: 5000"]

end Settings

end Pipework
