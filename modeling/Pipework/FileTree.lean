import Pipework.Table
import Pipework.Path
import Pipework.OsError

/-!
A tree of files and directories, seen from a working directory.

Paths are walked step by step, as an operating system does: every place on the way has to be a
directory, and the last one need not exist. A change either succeeds or says why it cannot, and
then the tree stays as it was; of several changes in a row those before the one that fails stay.
-/

namespace Pipework

/-! ## Places -/

/-- A place in a tree: the names on the way from the root. -/
abbrev Place := List String

/-- Places are ordered name by name, a directory before what it holds. -/
instance : TotalKey Place where
  irrefl := List.lt_irrefl
  trans := List.lt_trans
  connected := fun notBefore notAfter =>
    List.le_antisymm (List.not_lt.mp notAfter) (List.not_lt.mp notBefore)

/-- What stands at a place. -/
inductive FileEntry where
  | file (contents : ByteArray)
  | directory
  deriving Inhabited

instance : DecidableEq FileEntry
  | .directory, .directory => isTrue rfl
  | .file first, .file second =>
      match ByteArray.instDecidableEq first second with
      | isTrue same => isTrue (congrArg FileEntry.file same)
      | isFalse different => isFalse fun equality => different (FileEntry.file.inj equality)
  | .file _, .directory => isFalse nofun
  | .directory, .file _ => isFalse nofun

/-- The entries of a tree below its root, and the place from which relative paths start. -/
structure FileTree where
  entries : Table Place FileEntry
  workingDirectory : Place
  deriving DecidableEq

namespace FileTree

/-- The entry at a place; the root is a directory. -/
def entryAt? (tree : FileTree) (place : Place) : Option FileEntry :=
  if place = [] then some .directory else tree.entries.get? place

/-- The tree with an entry at a place. -/
def put (tree : FileTree) (place : Place) (entry : FileEntry) : FileTree :=
  { tree with entries := tree.entries.insert place entry }

/-- The tree without what stands at a place. -/
def drop (tree : FileTree) (place : Place) : FileTree :=
  { tree with entries := tree.entries.erase place }

/-! ## Walking -/

/-- The longest name that a file can have, in bytes. -/
def longestName : Nat := 255

/-- The longest path that can be walked, in bytes. -/
def longestPath : Nat := 4095

/-- The place one step on. -/
def advance (place : Place) (step : String) : Place :=
  if step = "." then place
  else if step = ".." then place.dropLast
  else place ++ [step]

/-- Refuses a place that is no directory. -/
def requireDirectory (tree : FileTree) (place : Place) : Except OsError Unit :=
  match tree.entryAt? place with
  | none => .error .notFound
  | some (.file _) => .error .notDirectory
  | some .directory => .ok ()

/-- The place to which steps lead. -/
def walk (tree : FileTree) (place : Place) : List String → Except OsError Place
  | [] => .ok place
  | step :: rest => do
      tree.requireDirectory place
      if longestName < step.utf8ByteSize then throw .nameTooLong
      tree.walk (advance place step) rest

/-- The names between the slashes of a path. -/
def namesOf (path : String) : List String :=
  ((Path.splitSlashes path.toList).filter (· ≠ [])).map String.ofList

/-- Whether a path ends in a slash. -/
def endsInSlash (path : String) : Bool := path.toList.getLast? == some '/'

/-- The steps of a path. A slash at the end is a step that stays where it is. -/
def stepsOf (path : String) : List String :=
  namesOf path ++ if endsInSlash path then ["."] else []

/-- The place where a path starts. -/
def startOf (tree : FileTree) (path : String) : Place :=
  if Path.isAbsolute path then [] else tree.workingDirectory

/-- Refuses a path that no system call takes. -/
def requirePath (path : String) : Except OsError Unit :=
  if path.toList.contains '\x00' then .error .nullByte
  else if path.isEmpty then .error .notFound
  else if longestPath < path.utf8ByteSize then .error .nameTooLong
  else .ok ()

/-- The place to which a path leads. -/
def locate (tree : FileTree) (path : String) : Except OsError Place := do
  requirePath path
  tree.walk (tree.startOf path) (stepsOf path)

/-! ## Looking -/

/-- What stands at the end of a path. -/
def entry (tree : FileTree) (path : String) : Except OsError FileEntry := do
  match tree.entryAt? (← tree.locate path) with
  | some entry => return entry
  | none => throw .notFound

/-- Whether a path leads to something. -/
def hasEntry (tree : FileTree) (path : String) : Bool :=
  match tree.entry path with
  | .ok _ => true
  | .error _ => false

/-- Whether a path leads to a directory. -/
def isDirectory (tree : FileTree) (path : String) : Bool :=
  match tree.entry path with
  | .ok .directory => true
  | _ => false

/-- Whether a path leads to something, or why that cannot be said. -/
def tryExists (tree : FileTree) (path : String) : Except OsError Bool :=
  match tree.entry path with
  | .ok _ => .ok true
  | .error .notFound => .ok false
  | .error error => .error error

/-- The contents of a file. -/
def readFile (tree : FileTree) (path : String) : Except OsError ByteArray := do
  match ← tree.entry path with
  | .file contents => return contents
  | .directory => throw .isDirectory

/-- The text of a file. -/
def readText (tree : FileTree) (path : String) : Except OsError String := do
  match String.fromUTF8? (← tree.readFile path) with
  | some text => return text
  | none => throw .notText

/-- The place of something that exists. -/
def canonical (tree : FileTree) (path : String) : Except OsError Place := do
  let place ← tree.locate path
  match tree.entryAt? place with
  | some _ => return place
  | none => throw .notFound

/-- The places of all files below a place, in order, as the names that lead there. -/
def filesBelow (tree : FileTree) (place : Place) : List (Place × ByteArray) :=
  tree.entries.entries.filterMap fun found =>
    match found.2 with
    | .file contents =>
        if place.isPrefixOf found.1 then some (found.1.drop place.length, contents) else none
    | .directory => none

/-! ## Changing -/

/-- Writes a file, in place of the one that may be there. -/
def writeFile (tree : FileTree) (path : String) (contents : ByteArray) :
    Except OsError FileTree := do
  let place ← tree.locate path
  match tree.entryAt? place with
  | some .directory => throw .isDirectory
  | _ => return tree.put place (.file contents)

/-- A path without the slashes at its end, unless it is all slashes. -/
def withoutEndSlashes (path : String) : String :=
  match path.toList.reverse.dropWhile (· = '/') with
  | [] => path
  | kept => String.ofList kept.reverse

/-- Makes a directory where nothing is. -/
def makeDirectory (tree : FileTree) (path : String) : Except OsError FileTree := do
  let place ← tree.locate (withoutEndSlashes path)
  match tree.entryAt? place with
  | some _ => throw .alreadyExists
  | none => return tree.put place .directory

/-- Makes a directory, and those on the way to it that are missing. Directories that were made
stay when a later one cannot be made. The fuel bounds the depth of the path. -/
def makeDirectoriesWithin : Nat → FileTree → String → Except OsError Unit × FileTree
  | 0, tree, _ => (.error .notFound, tree)
  | fuel + 1, tree, path =>
      if path.isEmpty then (.ok (), tree)
      else
        match tree.makeDirectory path with
        | .ok made => (.ok (), made)
        | .error .notFound =>
            match Path.parent? path with
            | none => (.error .notFound, tree)
            | some parent =>
                match makeDirectoriesWithin fuel tree parent with
                | (.error error, partly) => (.error error, partly)
                | (.ok (), ready) =>
                    match ready.makeDirectory path with
                    | .ok made => (.ok (), made)
                    | .error error =>
                        (if ready.isDirectory path then .ok () else .error error, ready)
        | .error error => (if tree.isDirectory path then .ok () else .error error, tree)

/-- Makes a directory, and those on the way to it that are missing. -/
def makeDirectories (tree : FileTree) (path : String) : Except OsError Unit × FileTree :=
  makeDirectoriesWithin (path.length + 1) tree path

/-- A change of a tree. Where it fails, what had been done by then stays. -/
abbrev Step := FileTree → Except OsError Unit × FileTree

/-- Does several changes one after the other, up to the first that fails. -/
def inTurn : List Step → Step
  | [], tree => (.ok (), tree)
  | step :: rest, tree =>
      match step tree with
      | (.error error, partly) => (.error error, partly)
      | (.ok (), next) => inTurn rest next

/-- Makes a directory, and those on the way to it that are missing. -/
def makingDirectories (path : String) : Step := fun tree => tree.makeDirectories path

/-- Writes a file whose directory exists. -/
def writing (path contents : String) : Step := fun tree =>
  match tree.writeFile path contents.toUTF8 with
  | .ok written => (.ok (), written)
  | .error error => (.error error, tree)

/-- The place where a file can be moved that has another path. -/
def moveTarget (tree : FileTree) (path : String) : Except OsError Place := do
  requirePath path
  let names := namesOf path
  let directory ← tree.walk (tree.startOf path) names.dropLast
  tree.requireDirectory directory
  match names.getLast? with
  | none => throw .busy
  | some name =>
      if name = "." ∨ name = ".." then throw .busy
      if longestName < name.utf8ByteSize then throw .nameTooLong
      if endsInSlash path then throw .notDirectory
      let place := directory ++ [name]
      match tree.entryAt? place with
      | some .directory => throw .isDirectory
      | _ => return place

/-- Moves a file to another path. -/
def moveFile (tree : FileTree) (source target : String) : Except OsError FileTree := do
  let start ← tree.locate source
  match tree.entryAt? start with
  | some (.file contents) =>
      let place ← tree.moveTarget target
      return (tree.drop start).put place (.file contents)
  | some .directory => throw .isDirectory
  | none => throw .notFound

/-- Removes a file. -/
def removeFile (tree : FileTree) (path : String) : Except OsError FileTree := do
  let place ← tree.locate path
  match tree.entryAt? place with
  | some (.file _) => return tree.drop place
  | some .directory => throw .isDirectory
  | none => throw .notFound

/-! ## Replacing -/

/-- The name of a file that holds contents until they replace those of a file with a name: a dot
in front, and a number of 36 digits that tells such files apart. -/
def temporaryName (name : String) (number : Nat) : String :=
  "." ++ name ++ "." ++ String.ofList ((Nat.toDigits 10 number).leftpad 36 '0') ++ ".tmp"

/-- Whether something in the tree has a name. -/
def holdsName (tree : FileTree) (name : String) : Bool :=
  tree.entries.keys.any fun place => place.getLast? == some name

/-- The first number of a temporary file that is not in the tree. As there are more numbers than
entries, one of them is always free. -/
def freshNumber (tree : FileTree) (name : String) : Nat :=
  ((List.range (tree.entries.size + 1)).find? fun number =>
    !tree.holdsName (temporaryName name number)).getD 0

/-- The path of a temporary file beside the file with a path and a name, where nothing is. -/
def temporaryPath (tree : FileTree) (path name : String) : String :=
  Path.withFileName path (temporaryName name (tree.freshNumber name))

/-- Replaces a file: contents are written to a temporary file, which is then moved into its place.
When it cannot be moved it is removed again, as far as that succeeds. -/
def replaceThrough (tree : FileTree) (temporary path : String) (contents : ByteArray) :
    Except OsError Unit × FileTree :=
  match tree.writeFile temporary contents with
  | .error error => (.error error, tree)
  | .ok written =>
      match written.moveFile temporary path with
      | .ok moved => (.ok (), moved)
      | .error error => (.error error, (written.removeFile temporary).toOption.getD written)

/-- Replaces the file with a path and a name. -/
def replaceFile (tree : FileTree) (path name : String) (contents : ByteArray) :
    Except OsError Unit × FileTree :=
  tree.replaceThrough (tree.temporaryPath path name) path contents

end FileTree

end Pipework
