import Pipework.FileTree

/-!
Programs of the host: how they are called and how they end.
-/

namespace Pipework

/-! ## Calls -/

/-- A call of a program. -/
structure Call where
  program : String
  arguments : List String
  /-- The directory in which the program runs, seen from the working directory of the caller;
  none for that directory itself. -/
  directory? : Option String
  input : String
  deriving DecidableEq, Repr, Inhabited

/-- How a program ends. -/
structure Exit where
  status : UInt8
  output : String
  errors : String
  deriving DecidableEq, Repr, Inhabited

namespace Exit

/-- A program that ends well with an output. -/
def success (output : String) : Exit := ⟨0, output, ""⟩

/-- A program that fails with something to say about it. -/
def failure (errors : String) : Exit := ⟨1, "", errors⟩

/-- How the end of a program is described. -/
def statusText (exit : Exit) : String := "exit status: " ++ toString exit.status.toNat

end Exit

/-- What a host makes of calls, with its files as they are. -/
abbrev Host := FileTree → Call → Except OsError Exit

/-! ## Standard utilities -/

/-- The small programs that every host has. -/
inductive Utility where
  | concatenate
  | echo
  | fail
  | list
  | succeed
  deriving DecidableEq, Repr, Inhabited

namespace Utility

/-- The utility with a path. -/
def ofPath? (path : String) : Option Utility :=
  if path = "/bin/cat" || path = "/usr/bin/cat" then some concatenate
  else if path = "/bin/echo" || path = "/usr/bin/echo" then some echo
  else if path = "/bin/false" || path = "/usr/bin/false" then some fail
  else if path = "/bin/ls" || path = "/usr/bin/ls" then some list
  else if path = "/bin/true" || path = "/usr/bin/true" then some succeed
  else none

/-- The path of an argument, seen from where the caller is. -/
def pathFrom (call : Call) (argument : String) : String :=
  Path.join (call.directory?.getD "") argument

/-- What is put out for a file to be concatenated, or what is said of it. A hyphen stands for the
input. -/
def concatenated (tree : FileTree) (call : Call) (argument : String) : Except String String :=
  if argument = "-" then .ok call.input
  else
    match tree.readText (pathFrom call argument) with
    | .ok text => .ok text
    | .error error =>
        .error (call.program ++ ": " ++ argument ++ ": " ++ error.meaning ++ "\n")

/-- Puts files out one after the other; without any, the input. -/
def concatenation (tree : FileTree) (call : Call) : Exit :=
  let arguments := if call.arguments.isEmpty then ["-"] else call.arguments
  let results := arguments.map (concatenated tree call)
  let errors := String.join (results.filterMap fun result =>
    match result with
    | .ok _ => none
    | .error error => some error)
  { status := if errors.isEmpty then 0 else 1,
    output := String.join (results.filterMap Except.toOption), errors }

/-- The names that are listed of a directory: those of its entries that are not hidden. -/
def visibleNames (tree : FileTree) (place : Place) : List String :=
  tree.entries.entries.filterMap fun found =>
    match found.1.getLast? with
    | some name =>
        if found.1.dropLast = place ∧ name.toList.head? ≠ some '.' then some name else none
    | none => none

/-- What is listed for an argument: the argument itself, or the names in a directory. -/
def listed (tree : FileTree) (call : Call) (argument : String) :
    Except String (List String × Bool) :=
  let found := do
    let place ← tree.locate (pathFrom call argument)
    return (place, ← tree.entry (pathFrom call argument))
  match found with
  | .ok (place, .directory) => .ok (visibleNames tree place, true)
  | .ok (_, .file _) => .ok ([argument], false)
  | .error error =>
      .error (call.program ++ ": cannot access '" ++ argument ++ "': " ++ error.meaning ++ "\n")

/-- Lists files, and behind them the names in directories. The option of a build is one for the
form of a line and not for what is listed; nobody reads the lines of a build. -/
def listing (tree : FileTree) (call : Call) : Exit :=
  let named := call.arguments.filter (· ≠ "-o")
  let arguments := if named.isEmpty then ["."] else named.mergeSort
  let blocks (directories : Bool) : List (String × List String) :=
    arguments.filterMap fun argument =>
      match listed tree call argument with
      | .ok (names, isDirectory) =>
          if isDirectory = directories then some (argument, names) else none
      | .error _ => none
  let lines (names : List String) : String := String.join (names.map (· ++ "\n"))
  let files := lines ((blocks false).flatMap Prod.snd)
  let directories := (blocks true).map fun block =>
    (if arguments.length = 1 then "" else block.1 ++ ":\n") ++ lines block.2
  let errors := String.join (named.filterMap fun argument =>
    match listed tree call argument with
    | .ok _ => none
    | .error error => some error)
  { status := if errors.isEmpty then 0 else 2,
    output := String.intercalate "\n" ((if files.isEmpty then [] else [files]) ++ directories),
    errors }

/-- What a utility does. -/
def run (utility : Utility) (tree : FileTree) (call : Call) : Exit :=
  match utility with
  | concatenate => concatenation tree call
  | echo => .success (String.intercalate " " call.arguments ++ "\n")
  | fail => .failure ""
  | list => listing tree call
  | succeed => .success ""

end Utility

/-- Why no program can be started in the directory of a call, if none can. -/
def directoryError? (tree : FileTree) (call : Call) : Option OsError :=
  call.directory?.bind fun directory =>
    match tree.entry directory with
    | .ok .directory => none
    | .ok (.file _) => some .notDirectory
    | .error error => some error

/-- Why a program that is no utility cannot be started. A name without a slash is looked for
among the installed programs, of which there are none; a path leads to no program either. -/
def startError (tree : FileTree) (call : Call) : OsError :=
  if call.program.toList.contains '\x00' then .nullByteInProgram
  else
    match directoryError? tree call with
    | some error => error
    | none =>
        if !call.program.toList.contains '/' then .notFound
        else
          match tree.entry (Utility.pathFrom call call.program) with
          | .ok _ => .permissionDenied
          | .error error => error

/-- A host with the standard utilities and no other program. -/
def Host.utilities : Host := fun tree call =>
  match Utility.ofPath? call.program, directoryError? tree call with
  | some utility, none => .ok (utility.run tree call)
  | some _, some error => .error error
  | none, _ => .error (startError tree call)

end Pipework
