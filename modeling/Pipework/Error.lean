import Pipework.Graph.Consistency
import Pipework.OsError
import Pipework.Registry

/-!
What can go wrong with graphs, their documents, their storage and their projects.
-/

namespace Pipework

open Json (DecodeError)

/-- The class of an error, as callers are told. -/
inductive ErrorCode where
  | notFound
  | failedPrecondition
  | invalidArgument
  | internal
  deriving DecidableEq, Repr, Inhabited

/-- The name of a class of errors. -/
def ErrorCode.name : ErrorCode → String
  | notFound => "NotFound"
  | failedPrecondition => "FailedPrecondition"
  | invalidArgument => "InvalidArgument"
  | internal => "Internal"

/-- Why a request, a document or a project is refused. -/
inductive Error where
  | graphNotFound (key : String)
  | graphLoaded (key : String)
  | nodeNotFound (name : String)
  | channelNotFound (name : String)
  | pinNotFound (endpoint : Endpoint)
  | nodeExists (name : String)
  | channelExists (name : String)
  | pinBound (endpoint : Endpoint) (channel : String)
  | typeMismatch (endpoint : Endpoint) (pinType channel channelType : String)
  /-- Both pins of a new channel have the same direction. -/
  | sameDirection (channel : String)
  /-- A node would have two pins on one channel. -/
  | nodeOnChannel (node channel : String)
  | construct (error : ConstructError)
  | boundPinChanged (endpoint : Endpoint)
  | invalidName (name : String) (fault : NameFault)
  | zeroMultiplicity
  | inconsistent (graph : String) (problems : List Problem)
  | saveTimeout (key : String) (milliseconds : UInt64)
  | configUnreadable
  | configNotFound (path : String)
  | system (error : OsError)
  | document (error : DecodeError)
  deriving DecidableEq, Repr, Inhabited

namespace Error

/-- The text of an error. -/
def message : Error → String
  | graphNotFound key => "graph not found: " ++ key
  | graphLoaded key => "graph '" ++ key ++ "' is already loaded"
  | nodeNotFound name => "node not found: " ++ name
  | channelNotFound name => "channel not found: " ++ name
  | pinNotFound endpoint =>
      "node '" ++ endpoint.node ++ "' has no pin '" ++ endpoint.pin ++ "'"
  | nodeExists name => "node '" ++ name ++ "' already exists"
  | channelExists name => "channel '" ++ name ++ "' already exists"
  | pinBound endpoint channel =>
      "pin '" ++ endpoint.text ++ "' is already connected to channel '" ++ channel ++ "'"
  | typeMismatch endpoint pinType channel channelType =>
      "type mismatch: pin '" ++ endpoint.text ++ "' has type '" ++ pinType ++ "', channel '" ++
        channel ++ "' has type '" ++ channelType ++ "'"
  | sameDirection channel =>
      "channel '" ++ channel ++ "' needs at least one input and one output pin"
  | nodeOnChannel node channel =>
      "node '" ++ node ++ "' is already attached to channel '" ++ channel ++ "'"
  | construct (.unknownType key) => "unknown part type: " ++ key
  | construct (.config kind fault) =>
      "invalid configuration for part '" ++ kind.key ++ "': " ++ fault.message
  | boundPinChanged endpoint =>
      "pin '" ++ endpoint.text ++
        "' is connected; disconnect it before changing the part's pins"
  | invalidName name fault => invalidNameText name fault
  | zeroMultiplicity => zeroMultiplicityText
  | inconsistent graph problems =>
      "graph '" ++ graph ++ "' is inconsistent: " ++
        String.intercalate "; " (problems.map Problem.message)
  | saveTimeout key milliseconds =>
      "saving '" ++ key ++ "' timed out after " ++ toString milliseconds.toNat ++ "ms"
  | configUnreadable => "failed to parse configuration"
  | configNotFound path => "configuration file not found: " ++ path
  | system error => "IO error: " ++ error.message
  | document error => "JSON error: " ++ error.message

/-- What lies behind an error, from the nearest cause to the first. -/
def causes : Error → List String
  | system error => [error.message]
  | document error => [error.message]
  | configUnreadable => ["malformed text"]
  | _ => []

/-- The class of an error. -/
def code : Error → ErrorCode
  | graphNotFound _ | nodeNotFound _ | channelNotFound _ | pinNotFound _ | configNotFound _ =>
      .notFound
  | graphLoaded _ | nodeExists _ | channelExists _ | pinBound .. | typeMismatch ..
  | sameDirection _ | nodeOnChannel .. | construct _ | boundPinChanged _ | inconsistent .. =>
      .failedPrecondition
  | invalidName .. | zeroMultiplicity => .invalidArgument
  | saveTimeout .. | configUnreadable | system _ | document _ => .internal

end Error

end Pipework
