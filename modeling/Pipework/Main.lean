import Pipework.CommandLine.Footprint

/-!
The program. It shows the command line the files that a command can look at, and then does to
the files of the host what the command line has done to them. It starts no program itself: of
those that a project names, it has only the standard utilities.
-/

namespace Pipework.Program

/-! ## Seeing files -/

/-- The absolute path of a place. -/
def pathOf (place : Place) : String := "/" ++ String.intercalate "/" place

/-- Sees what stands at a place. -/
def seeEntry (tree : FileTree) (place : Place) : IO FileTree := do
  let path := (← IO.currentDir) / pathOf place
  if ← path.isDir then return tree.put place .directory
  if ← path.pathExists then return tree.put place (.file (← IO.FS.readBinFile path))
  return tree

/-- Sees what stands at a place and on the way to it. -/
def seePlace (tree : FileTree) (place : Place) : IO FileTree :=
  (List.range place.length).foldlM (fun tree depth => seeEntry tree (place.take (depth + 1))) tree

/-- Sees all that is below a place. -/
partial def seeBelow (tree : FileTree) (place : Place) : IO FileTree := do
  let path := (← IO.currentDir) / pathOf place
  if !(← path.isDir) then return tree
  (← path.readDir).foldlM
    (fun tree entry => do
      let inner := place ++ [entry.fileName]
      seeBelow (← seeEntry tree inner) inner)
    tree

/-- The place to which a path leads by its names. -/
def placeOf (tree : FileTree) (path : String) : Place :=
  (FileTree.namesOf path).foldl FileTree.advance (tree.startOf path)

/-- Sees what a footprint covers. -/
def see (tree : FileTree) (footprint : CommandLine.Footprint) : IO FileTree := do
  let tree ← footprint.paths.foldlM (fun tree path => seePlace tree (placeOf tree path)) tree
  footprint.directories.foldlM
    (fun tree path => do
      let place := placeOf tree path
      seeBelow (← seePlace tree place) place)
    tree

/-! ## Changing files -/

/-- Does to the files of the host what has changed between two trees. -/
def keep (before after : FileTree) : IO Unit :=
  after.entries.entries.forM fun (place, entry) => do
    if before.entryAt? place ≠ some entry then
      match entry with
      | .directory => IO.FS.createDirAll (pathOf place)
      | .file contents => IO.FS.writeBinFile (pathOf place) contents

/-! ## Running -/

/-- Reads the standard input to its end. -/
partial def readInput (read : ByteArray) : IO ByteArray := do
  let more ← (← IO.getStdin).read 65536
  if more.isEmpty then return read
  readInput (read ++ more)

/-- The files that a command line has to see. -/
def surroundingFiles (tree : FileTree) (config? : Option String) (words : List String) :
    IO FileTree := do
  match CommandLine.grammar.read words with
  | .understood options command =>
      let config := CommandLine.configOf options config?
      let tree ← see tree (command.footprint config)
      see tree (CommandLine.projectFootprint tree config)
  | _ => return tree

/-- The standard input, if a command line asks for it. -/
def inputFor (words : List String) : IO (Except OsError String) := do
  match CommandLine.grammar.read words with
  | .understood _ command =>
      if command.readsInput then
        match String.fromUTF8? (← readInput ByteArray.empty) with
        | some text => return .ok text
        | none => return .error .notText
      else return .ok ""
  | _ => return .ok ""

end Pipework.Program

open Pipework in
/-- Runs a command line on the files of the host. -/
def main (words : List String) : IO UInt32 := do
  let config? ← IO.getEnv "CHANWEAVE_CONFIG"
  let here := FileTree.namesOf (toString (← IO.currentDir))
  let bare ← Program.seePlace ⟨Table.empty, here⟩ here
  let before ← Program.surroundingFiles bare config? words
  let input ← Program.inputFor words
  let run := CommandLine.run { host := Host.utilities, input, config? } before words
  Program.keep before run.tree
  IO.print run.output
  IO.eprint run.errors
  return run.status.code.toUInt32
