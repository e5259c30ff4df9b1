import Pipework.Error

/-!
Failures of commands: what could not be done, and why, as it is reported to the user.
-/

namespace Pipework

/-- What could not be done, and what lies behind it, from the nearest cause to the first. -/
structure Failure where
  message : String
  causes : List String
  deriving DecidableEq, Repr, Inhabited

namespace Failure

/-- A failure behind which there is nothing else. -/
def plain (message : String) : Failure := ⟨message, []⟩

/-- The failure that an error is. -/
def ofError (error : Error) : Failure := ⟨error.message, error.causes⟩

/-- The failure of something larger because of a failure. -/
def within (failure : Failure) (message : String) : Failure :=
  ⟨message, failure.message :: failure.causes⟩

/-! ## Reports -/

/-- A text behind a head. Its further lines stand behind a margin. -/
def hang (head margin text : String) : String :=
  head ++ String.ofList (text.toList.flatMap fun character =>
    if character = '\n' then '\n' :: margin.toList else [character])

/-- The number of a cause among several. -/
def ordinal (index : Nat) : String :=
  let digits := toString index
  String.ofList (List.replicate (5 - digits.length) ' ') ++ digits ++ ": "

/-- The lines about causes. Only several causes are numbered. -/
def causeTexts : List String → List String
  | [cause] => [hang "    " "    " cause]
  | causes => causes.zipIdx.map fun numbered => hang (ordinal numbered.2) "       " numbered.1

/-- The report of a failure. -/
def report (failure : Failure) : String :=
  "Error: " ++ failure.message ++ "\n" ++
    if failure.causes.isEmpty then "" else
      "\nCaused by:\n" ++
        String.join ((causeTexts failure.causes).map fun text => text ++ "\n")

end Failure

/-- Tells an error as a failure. -/
def orFail {α : Type} (result : Except Error α) : Except Failure α :=
  result.mapError Failure.ofError

/-- Tells an error as the failure of something larger. -/
def orFailWith {α : Type} (message : String) (result : Except Error α) : Except Failure α :=
  result.mapError fun error => (Failure.ofError error).within message

end Pipework
