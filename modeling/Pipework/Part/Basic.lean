import Pipework.Table
import Pipework.Pin

/-!
What every part has: the phases of its Go code, the pins that are bound, the declarations that
it needs beside its function, and the ways its configuration can be wrong.
-/

namespace Pipework

open Json (Decoder DecodeError Value)

/-! ## Code -/

/-- The Go code of a part: `head` runs once before the instances start, `body` once for each
instance, and `tail` once after all of them have returned. -/
structure Phases where
  head : String
  body : String
  tail : String
  deriving DecidableEq, Repr, Inhabited

/-- A part that does nothing. -/
def Phases.idle : Phases := ⟨"", "", ""⟩

/-- Go declarations outside any function. Those of one key are the same and stand once. -/
structure Support where
  key : String
  code : String
  deriving DecidableEq, Repr, Inhabited

/-- The pins of a part that are bound to a channel. -/
abbrev Bindings := KeySet String

/-- The element type of parts that pass values on without looking at them. -/
def defaultElementType : String := "interface\x7b\x7d"

/-- Lines as one text, with a line feed between them. -/
def joinLines (lines : List String) : String := String.intercalate "\n" lines

/-! ## Configurations -/

/-- Why a part refuses its configuration. -/
inductive PartFault where
  | decode (error : DecodeError)
  | pins (fault : PinFault)
  | invalidImport (path : String)
  /-- A pin has the name under which Go code sees an imported package. -/
  | importHidden (pin path : String)
  | emptyMember (name : String)
  | zeroMember (name : String)
  deriving DecidableEq, Repr, Inhabited

/-- The text of a part fault. -/
def PartFault.message : PartFault → String
  | decode (.shape error) => error.message
  | decode (.unreadable _) => "unreadable value"
  | pins fault => fault.message
  | invalidImport path => "invalid import path '" ++ path ++ "'"
  | importHidden pin path =>
      "pin name '" ++ pin ++ "' would shadow the imported package '" ++ path ++ "'"
  | emptyMember name => name ++ " must not be empty"
  | zeroMember name => name ++ " must be at least 1"

/-- Reads a configuration and checks what was read. Null stands for an object without
members. -/
def readConfig {α : Type} (decoder : Decoder α) (check : α → Option PartFault)
    (config : Value) : Except PartFault α :=
  let given : Value :=
    match config with
    | .null => .object []
    | other => other
  match decoder given.reading with
  | .error error => .error (.decode error)
  | .ok part =>
      match check part with
      | some fault => .error fault
      | none => .ok part

/-- A count as a value. -/
def countValue (count : UInt64) : Value := .whole count.toNat

/-- The names `stem0`, `stem1`, and so on. -/
def numberedNames (stem : String) (count : Nat) : List String :=
  (List.range count).map fun index => stem ++ toString index

/-- The names of a list that are bound. -/
def boundNames (bindings : Bindings) (names : List String) : List String :=
  names.filter bindings.contains

end Pipework
