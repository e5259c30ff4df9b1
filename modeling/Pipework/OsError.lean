/-!
Errors of the operating system.
-/

namespace Pipework

/-- Why the operating system, or the reading of what it gave, refuses. -/
inductive OsError where
  | notFound
  | permissionDenied
  | alreadyExists
  | notDirectory
  | isDirectory
  | nameTooLong
  /-- A directory that is in use where a file would go. -/
  | busy
  /-- A file name with a null byte. -/
  | nullByte
  /-- A program name with a null byte. -/
  | nullByteInProgram
  /-- A file that is not UTF-8 where a text is wanted. -/
  | notText
  /-- Storage that refuses to be written. -/
  | brokenStorage
  deriving DecidableEq, Repr, Inhabited

namespace OsError

/-- What an error of the operating system means. -/
def meaning : OsError → String
  | notFound => "No such file or directory"
  | permissionDenied => "Permission denied"
  | alreadyExists => "File exists"
  | notDirectory => "Not a directory"
  | isDirectory => "Is a directory"
  | nameTooLong => "File name too long"
  | busy => "Device or resource busy"
  | nullByte => "file name contained an unexpected NUL byte"
  | nullByteInProgram => "nul byte found in provided data"
  | notText => "stream did not contain valid UTF-8"
  | brokenStorage => "storage is broken"

/-- The number of an error, if it comes from a system call. -/
def number? : OsError → Option Nat
  | notFound => some 2
  | permissionDenied => some 13
  | busy => some 16
  | alreadyExists => some 17
  | notDirectory => some 20
  | isDirectory => some 21
  | nameTooLong => some 36
  | nullByte | nullByteInProgram | notText | brokenStorage => none

/-- The text of an error of the operating system. -/
def message (error : OsError) : String :=
  match error.number? with
  | some number => error.meaning ++ " (os error " ++ toString number ++ ")"
  | none => error.meaning

end OsError

end Pipework
