import TraceAudit.Json.Basic

/-!
# Spans

* `TraceFormat` is the family of a trace payload, chosen by the endpoint it is sent to;
* `Span` is a span decoded from any of them, together with the value it was decoded from;
* `Span.toJson` is its written form.
-/

namespace TraceAudit

/-- The family of a trace payload. -/
inductive TraceFormat where
  /-- Library to agent: an array of traces, each an array of span objects. -/
  | libraryV04
  /-- Library to agent: a string table, then traces whose spans are arrays of indices into it. -/
  | libraryV05
  /-- Agent to backend: trace chunks grouped by the tracer that sent them. -/
  | agentV02
deriving DecidableEq, Repr

def TraceFormat.ofEndpoint? (path : String) : Option TraceFormat :=
  if path = "/v0.4/traces" then some .libraryV04
  else if path = "/v0.5/traces" then some .libraryV05
  else if path = "/api/v0.2/traces" then some .agentV02
  else none

/-- A decoded span. Ids are below `2 ^ 64`, times and the error mark are signed 64-bit numbers; a
span without parent is a root. `tags` and `metrics` are ordered by key. -/
structure Span where
  traceId : Nat
  spanId : Nat
  parentId : Option Nat
  service : String
  name : String
  resource : String
  kind : Option String
  start : Int
  duration : Int
  error : Int
  tags : List (String × String)
  metrics : List (String × Double)
  raw : Json
deriving Inhabited

namespace Span

def isRoot (s : Span) : Bool := s.parentId.isNone

def tag? (s : Span) (key : String) : Option String := Members.find? key s.tags

def toJson (s : Span) : Json :=
  .obj <|
    [ ("trace_id", Json.nat s.traceId),
      ("span_id", Json.nat s.spanId),
      ("parent_id", Json.ofOption Json.nat s.parentId),
      ("service", .str s.service),
      ("name", .str s.name),
      ("resource", .str s.resource) ] ++
    (s.kind.map fun k => ("span_type", Json.str k)).toList ++
    [ ("start", Json.int s.start),
      ("duration", Json.int s.duration),
      ("error", Json.int s.error),
      ("meta", .obj (s.tags.map fun (k, v) => (k, Json.str v))),
      ("metrics", .obj (s.metrics.map fun (k, v) => (k, Json.num (.double v)))),
      ("raw", s.raw) ]

end Span
end TraceAudit
