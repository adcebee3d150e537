import TraceAudit.Record.Basic
import TraceAudit.Record.Shape
import TraceAudit.Json.Fault
import TraceAudit.Text.Base64
import TraceAudit.Text.Detail

/-!
# Envelopes

The proxy writes an `Envelope` for every exchange that it intercepts: a request and, when one was
captured, its response, each a `Message`.

* `Envelope.ofJson` reads an envelope from a JSON value, given as an object or as an array;
* `Envelope.records` turns it into its request record and its response record;
* `EnvelopeFault` lists the reasons for which an envelope of the right form is refused.

A message holds its payload as a value that the proxy decoded, or as octets in base 64.
-/

namespace TraceAudit

/-- One side of an exchange as written by the proxy. -/
structure Message where
  method : Option String
  statusCode : Option Nat
  headers : List (String × String)
  content : Option Json
  rawContent : Option String
deriving Inhabited

/-- An exchange as written by the proxy. -/
structure Envelope where
  source : Option String
  timestamp : Option String
  path : String
  host : Option String
  request : Message
  response : Option Message
deriving Inhabited

/-- Why an envelope of the right form is refused. -/
inductive EnvelopeFault where
  | unknownSource (text : String)
  | foreignSource (declared found : Source)
  | badTimestamp (text : String) (fault : TimestampFault)
  | badBase64 (fault : Base64Fault)
  | badJson (fault : JsonFault)
  | missingStatus
deriving DecidableEq, Repr

def EnvelopeFault.message (detail : Detail) : EnvelopeFault → String
  | .unknownSource text => Source.unknownMessage text
  | .foreignSource declared found =>
    s!"envelope declares source '{declared.name}' but was found in the '{found.name}' folder"
  | .badTimestamp text fault => s!"invalid timestamp '{text}': {detail.tell fault.message}"
  | .badBase64 fault => s!"raw_content is not valid base64: {detail.tell fault.message}"
  | .badJson fault =>
    s!"raw_content declared as JSON but does not parse: {detail.tell fault.message}"
  | .missingStatus => "response is missing 'status_code'"

/-! ## Reading the form -/

namespace Message

/-- Read a value that may be missing or `null`. -/
def content? (value : Json) : Except ShapeError (Option Json) :=
  .ok (if value.isNull then none else some value)

/-- Read a message from the members of an object, in the order of their keys. -/
def ofMembers (members : List (String × Json)) : Except ShapeError Message := do
  let content ← Shape.member content? "content" members
  let headers ← Shape.member (Shape.list Shape.pair) "headers" members
  let method ← Shape.member (Shape.optional Shape.text) "method" members
  let rawContent ← Shape.member (Shape.optional Shape.text) "raw_content" members
  let statusCode ← Shape.member (Shape.optional Shape.u16) "status_code" members
  .ok
    { method := method.join
      statusCode := statusCode.join
      headers := headers.getD []
      content := content.join
      rawContent := rawContent.join }

/-- Read a message from an array of its members; trailing ones may be missing. -/
def ofItems (items : List Json) : Except ShapeError Message := do
  let (method, rest) ← Shape.takeOr (Shape.optional Shape.text) none items
  let (statusCode, rest) ← Shape.takeOr (Shape.optional Shape.u16) none rest
  let (headers, rest) ← Shape.takeOr (Shape.list Shape.pair) [] rest
  let (content, rest) ← Shape.takeOr content? none rest
  let (rawContent, rest) ← Shape.takeOr (Shape.optional Shape.text) none rest
  Shape.complete items rest { method, statusCode, headers, content, rawContent }

def ofJson : Json → Except ShapeError Message
  | .obj members => ofMembers members
  | .arr items => ofItems items
  | other => .error (.wrongType other (.object "MessageEnvelope"))

end Message

namespace Envelope

/-- Read an envelope from the members of an object, in the order of their keys; what is missing is
reported last. -/
def ofMembers (members : List (String × Json)) : Except ShapeError Envelope := do
  let host ← Shape.member (Shape.optional Shape.text) "host" members
  let path ← Shape.member Shape.text "path" members
  let request ← Shape.member Message.ofJson "request" members
  let response ← Shape.member (Shape.optional Message.ofJson) "response" members
  let source ← Shape.member (Shape.optional Shape.text) "source" members
  let timestamp ← Shape.member (Shape.optional Shape.text) "timestamp" members
  match path, request with
  | none, _ => .error (.missingMember "path")
  | _, none => .error (.missingMember "request")
  | some path, some request =>
    .ok
      { source := source.join
        timestamp := timestamp.join
        path
        host := host.join
        request
        response := response.join }

/-- How an envelope given as an array is described. -/
def arrayForm : String := "struct Envelope with 6 elements"

/-- Read an envelope from an array of its members; the response and what precedes a required member
may not be left out. -/
def ofItems (items : List Json) : Except ShapeError Envelope := do
  let (source, rest) ← Shape.takeOr (Shape.optional Shape.text) none items
  let (timestamp, rest) ← Shape.takeOr (Shape.optional Shape.text) none rest
  let (path, rest) ← Shape.take Shape.text 2 arrayForm rest
  let (host, rest) ← Shape.takeOr (Shape.optional Shape.text) none rest
  let (request, rest) ← Shape.take Message.ofJson 4 arrayForm rest
  let (response, rest) ← Shape.takeOr (Shape.optional Message.ofJson) none rest
  Shape.complete items rest { source, timestamp, path, host, request, response }

def ofJson : Json → Except ShapeError Envelope
  | .obj members => ofMembers members
  | .arr items => ofItems items
  | other => .error (.wrongType other (.object "Envelope"))

end Envelope

/-! ## From envelopes to records -/

def declaresJson (headers : List (String × String)) : Bool :=
  match headers.find? fun (name, _) => Text.sameIgnoringCase name "content-type" with
  | none => false
  | some (_, value) =>
    let value := (Text.toLowerAscii value).toList
    Text.contains "application/json".toList value || Text.contains "text/json".toList value

/-- The payload of a message: a decoded value, else octets, which are read when the headers declare
them as JSON. -/
def Message.payload (m : Message) : Except EnvelopeFault Payload :=
  match m.content, m.rawContent with
  | some value, _ => .ok (Payload.ofJson value)
  | none, none => .ok Payload.empty
  | none, some encoded =>
    match Base64.decode (Text.trim encoded.toList) with
    | .error fault => .error (.badBase64 fault)
    | .ok [] => .ok Payload.empty
    | .ok bytes =>
      if declaresJson m.headers then
        match Json.ofBytes bytes with
        | .ok value => .ok ⟨bytes, .json value⟩
        | .error fault => .error (.badJson fault)
      else .ok (Payload.ofBytes bytes)

namespace Envelope

/-- The declared source, if any, is the one whose folder holds the envelope. -/
def checkSource (e : Envelope) (found : Source) : Except EnvelopeFault Unit :=
  match e.source with
  | none => .ok ()
  | some text =>
    match Source.ofName? text with
    | none => .error (.unknownSource text)
    | some declared => if declared = found then .ok () else .error (.foreignSource declared found)

/-- The time of the exchange, `fallback` when the envelope has none. -/
def time (e : Envelope) (fallback : Timestamp) : Except EnvelopeFault Timestamp :=
  match e.timestamp with
  | none => .ok fallback
  | some text =>
    (Timestamp.read text.toList).mapError (.badTimestamp text)

/-- The request record of an envelope, and after it the response record when there is a response.
The response belongs to whoever issued the request and carries its request id. The store assigns
the numbers. -/
def records (e : Envelope) (found : Source) (fallback : Timestamp) :
    Except EnvelopeFault (List Record) := do
  e.checkSource found
  let timestamp ← e.time fallback
  let payload ← e.request.payload
  let requestId := RequestId.ofHeaders? e.request.headers
  let request : Record :=
    { seq := 0
      exchange := 0
      source := found
      timestamp
      kind := .request
      method := e.request.method
      path := e.path
      host := e.host
      statusCode := none
      headers := e.request.headers
      payload
      requestId
      logFile := none }
  match e.response with
  | none => .ok [request]
  | some response =>
    match response.statusCode with
    | none => .error .missingStatus
    | some status => do
      let payload ← response.payload
      .ok
        [ request,
          { request with
            kind := .response
            method := none
            statusCode := some status
            headers := response.headers
            payload } ]

end Envelope
end TraceAudit
