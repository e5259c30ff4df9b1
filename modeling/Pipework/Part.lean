import Pipework.Part.Code
import Pipework.Part.Broadcast
import Pipework.Part.Join
import Pipework.Part.Filter
import Pipework.Part.Sink
import Pipework.Part.HttpServer

/-!
Parts: what a node does.
-/

namespace Pipework

open Json (Value)

/-! ## Kinds -/

/-- The kinds of parts. -/
inductive PartKind where
  | broadcast
  | code
  | filter
  | httpServer
  | join
  | sink
  deriving DecidableEq, Repr, Inhabited

namespace PartKind

/-- All kinds, in the order of their keys. -/
def all : List PartKind := [broadcast, code, filter, httpServer, join, sink]

/-- The name of a kind in documents and requests. -/
def key : PartKind → String
  | broadcast => "Broadcast"
  | code => "Code"
  | filter => "Filter"
  | httpServer => "HTTPServer"
  | join => "Join"
  | sink => "Sink"

/-- What parts of a kind do, in a line. -/
def description : PartKind → String
  | broadcast => "Copies every input value to every output"
  | code => "Free-form Go code with user-defined pins"
  | filter => "Routes values to match/nomatch by a predicate"
  | httpServer => "Serves HTTP and emits each request as *HTTPRequest"
  | join => "Merges all inputs into a single output"
  | sink => "Discards every value it receives"

end PartKind

/-! ## Parts -/

/-- A configured part. -/
inductive Part where
  | broadcast (part : Part.Broadcast)
  | code (part : Part.Code)
  | filter (part : Part.Filter)
  | httpServer (part : Part.HttpServer)
  | join (part : Part.Join)
  | sink (part : Part.Sink)
  deriving DecidableEq, Repr, Inhabited

namespace Part

/-- The kind of a part. -/
def kind : Part → PartKind
  | broadcast _ => .broadcast
  | code _ => .code
  | filter _ => .filter
  | httpServer _ => .httpServer
  | join _ => .join
  | sink _ => .sink

/-- The pins, in the order of the parameters of the node's function. -/
def pins : Part → List Pin
  | broadcast part => part.pins
  | code part => part.pins
  | filter part => part.pins
  | httpServer _ => HttpServer.pins
  | join part => part.pins
  | sink part => part.pins

/-- The pin with a name. -/
def pin? (part : Part) (name : String) : Option Pin := findPin part.pins name

/-- The Go code of a part some of whose pins are bound. -/
def phases : Part → Bindings → Phases
  | broadcast part, bindings => part.phases bindings
  | code part, _ => part.phases
  | filter part, bindings => part.phases bindings
  | httpServer part, bindings => part.phases bindings
  | join part, bindings => part.phases bindings
  | sink part, bindings => part.phases bindings

/-- The Go packages that the code of a part needs. -/
def imports : Part → List String
  | code part => part.imports
  | httpServer _ => ["log", "net/http"]
  | join _ => ["sync"]
  | _ => []

/-- The declarations that a part needs beside its function. -/
def support? : Part → Option Support
  | httpServer _ => some HttpServer.support
  | _ => none

/-- The configuration of a part, with all its members. -/
def config : Part → Value
  | broadcast part => part.config
  | code part => part.config
  | filter part => part.config
  | httpServer part => part.config
  | join part => part.config
  | sink part => part.config

/-- The part of a kind with a configuration. -/
def ofConfig (kind : PartKind) (config : Value) : Except PartFault Part :=
  match kind with
  | .broadcast => (Broadcast.ofConfig config).map broadcast
  | .code => (Code.ofConfig config).map code
  | .filter => (Filter.ofConfig config).map filter
  | .httpServer => (HttpServer.ofConfig config).map httpServer
  | .join => (Join.ofConfig config).map join
  | .sink => (Sink.ofConfig config).map sink

/-- The part with another configuration of its kind. -/
def reconfigure (part : Part) (config : Value) : Except PartFault Part :=
  ofConfig part.kind config

end Part

end Pipework
