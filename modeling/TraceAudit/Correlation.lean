import TraceAudit.Record.Basic
import TraceAudit.Trace.Decode
import TraceAudit.Call.Basic

/-!
# From calls to spans

A span belongs to a call when it carries the call's request id. Child spans rarely carry it, so a
search may be widened to all spans of the traces found. As a last resort a root span without any id
is attributed to a call by timing.

* `Correlation.spans` lists all spans of all trace payloads in arrival order;
* `Correlation.spansOf` finds the spans of a call;
* `Correlation.recordsOf` finds the records whose own headers carry the id of a call.
-/

namespace TraceAudit

/-- A span and the number of the record in which it was found. -/
structure LocatedSpan where
  recordSeq : Nat
  span : Span
deriving Inhabited

namespace LocatedSpan

def toJson (s : LocatedSpan) : Json :=
  .obj
    [ ("record_seq", Json.nat s.recordSeq),
      ("trace_id", Json.nat s.span.traceId),
      ("span_id", Json.nat s.span.spanId),
      ("span", s.span.toJson) ]

end LocatedSpan

namespace Correlation

/-- The spans of a record that is a request with a decodable trace payload. -/
def spansIn (record : Record) : List LocatedSpan :=
  if record.isRequest then
    match TraceFormat.ofEndpoint? record.path, record.json? with
    | some format, some payload =>
      match decodeSpans format payload with
      | .ok spans => spans.map (⟨record.seq, ·⟩)
      | .error _ => []
    | _, _ => []
  else []

/-- All spans of all trace payloads, in arrival order. Payloads that do not decode are passed
over. -/
def spans (records : List Record) : List LocatedSpan := records.flatMap spansIn

/-- The span carries the request id of the call. -/
def carries (call : TestCall) (s : LocatedSpan) : Bool := s.span.requestId? == some call.id

/-- The span is a root without request id that started inside the window of the call. -/
def startedWithin (call : TestCall) (s : LocatedSpan) : Bool :=
  match call.window? with
  | none => false
  | some (issued, completed) =>
    s.span.isRoot && s.span.requestId?.isNone && issued ≤ s.span.start &&
      s.span.start ≤ completed

/-- How spans are attributed to a call. -/
structure Attribution where
  /-- Widen the search to all spans of the traces found. -/
  fullTrace : Bool
  /-- Attribute root spans by timing when no span carries the id. -/
  timing : Bool
deriving DecidableEq, Repr

/-- The spans among `all` that are attributed to the call themselves. -/
def attributed (all : List LocatedSpan) (call : TestCall) (timing : Bool) : List LocatedSpan :=
  if timing && !all.any (carries call) then all.filter (startedWithin call)
  else all.filter (carries call)

def spansOf (records : List Record) (call : TestCall) (how : Attribution) : List LocatedSpan :=
  let all := spans records
  let found := attributed all call how.timing
  if how.fullTrace then
    let traces := found.map (·.span.traceId)
    all.filter fun s => traces.contains s.span.traceId
  else found

/-- The records whose own headers carry the id of a call. -/
def recordsOf (records : List Record) (call : TestCall) : List Record :=
  records.filter fun r => r.requestId == some call.id

end Correlation
end TraceAudit
