import TraceAudit.Source
import TraceAudit.Json.Printer
import TraceAudit.Disk.Path
import TraceAudit.Time.Timestamp
import TraceAudit.Trace.RequestId

/-!
# Records

A `Record` is one half of a captured exchange, a request or a response.

* `Payload` is its body: the octets, and what they stand for when that is known;
* `Record.header?` looks a header up without regard to case;
* `Record.withHeader` adds a header and finds the request id again;
* `Record.toJson` is the written form.

The path of a log file is written as a text. A path that is none cannot be written, which whoever
writes has to ask for; the written form leaves it out.
-/

namespace TraceAudit

/-- Which half of an exchange a record holds. -/
inductive RecordKind where
  | request
  | response
deriving DecidableEq, Repr, Inhabited

/-- What the octets of a payload stand for. -/
inductive Content where
  /-- There is no payload. -/
  | empty
  /-- The payload is a JSON value. -/
  | json (value : Json)
  /-- The payload is in no known form. -/
  | raw
deriving Inhabited

/-- The body of a captured message. -/
structure Payload where
  bytes : Bytes
  content : Content
deriving Inhabited

namespace Payload

def empty : Payload := ⟨[], .empty⟩

/-- A payload given as a value, whose octets are its compact form. -/
def ofJson (value : Json) : Payload := ⟨value.toBytes, .json value⟩

def ofBytes (bytes : Bytes) : Payload := ⟨bytes, .raw⟩

/-- The value of a payload that has one. -/
def json? (p : Payload) : Option Json :=
  match p.content with
  | .json value => some value
  | _ => none

def toJson (p : Payload) : Json :=
  let decoded : List (String × Json) :=
    match p.content with
    | .empty => [("format", .str "empty")]
    | .json value => [("format", .str "json"), ("value", value)]
    | .raw => [("format", .str "raw")]
  .obj [("decoded", .obj decoded)]

end Payload

/-- One half of a captured exchange. `seq` is its place in arrival order, `exchange` is shared by
the two halves. -/
structure Record where
  seq : Nat
  exchange : Nat
  source : Source
  timestamp : Timestamp
  kind : RecordKind
  method : Option String
  path : String
  host : Option String
  statusCode : Option Nat
  headers : List (String × String)
  payload : Payload
  requestId : Option String
  logFile : Option OsPath
deriving Inhabited

namespace Record

/-- A request that was not captured but made up, without headers. -/
def made (source : Source) (path : String) (payload : Payload) (timestamp : Timestamp) : Record :=
  { seq := 0
    exchange := 0
    source
    timestamp
    kind := .request
    method := none
    path
    host := none
    statusCode := none
    headers := []
    payload
    requestId := none
    logFile := none }

def isRequest (r : Record) : Bool := r.kind == .request

def json? (r : Record) : Option Json := r.payload.json?

/-- The first value of a header, whose name is compared without regard to case. -/
def header? (r : Record) (name : String) : Option String :=
  (r.headers.find? fun (k, _) => Text.sameIgnoringCase k name).map (·.2)

/-- The record with one more header, and the request id that its headers then carry. -/
def withHeader (r : Record) (name value : String) : Record :=
  let headers := r.headers ++ [(name, value)]
  { r with headers, requestId := RequestId.ofHeaders? headers }

def headersJson (headers : List (String × String)) : Json :=
  .arr (headers.map fun (name, value) => .arr [.str name, .str value])

def optional {α : Type} (key : String) (encode : α → Json) (value : Option α) :
    List (String × Json) :=
  (value.map fun v => (key, encode v)).toList

/-- The member for the log file that something was found in. -/
def logFileMember (logFile : Option OsPath) : List (String × Json) :=
  optional "log_file" .str (logFile.bind OsPath.text?)

def toJson (r : Record) : Json :=
  .obj <|
    [ ("seq", Json.nat r.seq),
      ("exchange", Json.nat r.exchange),
      ("source", .str r.source.name),
      ("timestamp", .str r.timestamp.render),
      ("kind", .str (if r.isRequest then "request" else "response")) ] ++
    optional "method" .str r.method ++
    [("path", .str r.path)] ++
    optional "host" .str r.host ++
    optional "status_code" Json.nat r.statusCode ++
    [ ("headers", headersJson r.headers),
      ("payload", r.payload.toJson) ] ++
    optional "request_id" .str r.requestId ++
    logFileMember r.logFile

end Record
end TraceAudit
