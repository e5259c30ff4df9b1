import Pipework.Part.Basic
import Pipework.Go.Literal

/-!
The part that serves HTTP and sends each request into the pipeline.
-/

namespace Pipework.Part

open Json (Decoder Fields Value)

/-- The address to listen on. -/
structure HttpServer where
  address : String
  deriving DecidableEq, Repr, Inhabited

namespace HttpServer

/-- The members of the configuration. -/
def fields : Fields HttpServer :=
  HttpServer.mk <$> Fields.optional "addr" Decoder.text ":8080"

/-- What is wrong with a configuration. -/
def fault (part : HttpServer) : Option PartFault :=
  if Text.isBlank part.address then some (.emptyMember "addr") else none

/-- The part of a configuration. -/
def ofConfig (config : Value) : Except PartFault HttpServer :=
  readConfig (fields.record "HttpServer" Json.surplusInValue) fault config

/-- The configuration of a part. -/
def config (part : HttpServer) : Value := .object [("addr", .string part.address)]

/-- The output that carries the requests. -/
def pins : List Pin := [Pin.output "requests" "*HTTPRequest"]

/-- What the handler does with a request: it is sent and waited for while the output is bound,
and refused otherwise. -/
def handler (bindings : Bindings) : List String :=
  if bindings.contains "requests" then
    ["\t\treq := &HTTPRequest\x7bResponseWriter: w, Request: r, done: make(chan struct\x7b\x7d)\x7d",
      "\t\trequests <- req",
      "\t\t<-req.done"]
  else ["\t\thttp.Error(w, \"no handler connected\", http.StatusServiceUnavailable)"]

/-- Sets up the server in the head and serves in the first instance of the body. -/
def phases (part : HttpServer) (bindings : Bindings) : Phases :=
  let address := Go.literal part.address
  { head := joinLines <|
      ["srv := &http.Server\x7b",
        "\tAddr: " ++ address ++ ",",
        "\tHandler: http.HandlerFunc(func(w http.ResponseWriter, r *http.Request) \x7b"] ++
      handler bindings ++ ["\t\x7d),", "\x7d"]
    body := joinLines
      ["if instanceNumber == 0 \x7b",
        "\tif err := srv.ListenAndServe(); err != nil && err != http.ErrServerClosed \x7b",
        "\t\tlog.Printf(\"HTTPServer %s: %v\", " ++ address ++ ", err)",
        "\t\x7d",
        "\x7d"]
    tail := "" }

/-- The type of the requests. -/
def support : Support :=
  ⟨"HTTPRequest", joinLines
    ["// HTTPRequest carries one HTTP request through the pipeline.",
      "// The receiver writes the response and then calls Close.",
      "type HTTPRequest struct \x7b",
      "\thttp.ResponseWriter",
      "\tRequest *http.Request",
      "\tdone    chan struct\x7b\x7d",
      "\x7d",
      "",
      "// Close completes the request.",
      "func (r *HTTPRequest) Close() \x7b",
      "\tclose(r.done)",
      "\x7d"]⟩

end HttpServer

end Pipework.Part
