import TraceAudit.Correlation
import TraceAudit.Scenario
import TraceAudit.Telemetry.Header
import TraceAudit.Validator.Basic

/-!
# Evaluating validators

`Evidence` is all that a validator may look at: the records of its interface, and how the wait for
them ended. Each kind of assertion is a function from evidence to an outcome.

* `Assertion.evaluate` gives the outcome of an assertion and the violations it tolerated;
* `Validator.evaluate` gives the verdict on a validator;
* `Validator.notEvaluated` gives the verdict on a validator that could not run.
-/

namespace TraceAudit

/-- What a validator may look at. -/
structure Evidence where
  scenario : Scenario
  /-- The records of the interface in arrival order. -/
  records : List Record
  /-- How the wait for them ended. -/
  wait : WaitOutcome
  /-- Attribute root spans without a request id to calls by timing. -/
  timingFallback : Bool
  /-- The trace ids that several traces may share. -/
  exceptions : List Nat

namespace Evidence

/-- The largest number of observed items in a failure. -/
def maxObserved : Nat := 10

/-- A failure whose call is not known yet. -/
def fail (kind : FailureKind) (message : String) (observed : List Json) : Outcome :=
  .failed { kind, message, requestId := none, observed }

/-- What was needed is not there; the wording says whether the data was complete. -/
def missing (e : Evidence) (what : String) : Outcome :=
  let message := match e.wait with
    | .timedOut => s!"{what} never arrived: the wait timed out while data was still flowing"
    | .interrupted => s!"{what} not seen before the wait was interrupted"
    | .quiescent | .complete => s!"{what} not found in the complete data"
  fail .noMatchingData message []

def observedSpans (spans : List LocatedSpan) : List Json :=
  (spans.take maxObserved).map (·.span.raw)

def spansOf (e : Evidence) (call : TestCall) (fullTrace : Bool) : List LocatedSpan :=
  Correlation.spansOf e.records call ⟨fullTrace, e.timingFallback⟩

def missingSpans (e : Evidence) (call : TestCall) : Outcome :=
  e.missing s!"span for request {call.id}"

/-! ## Spans of calls -/

/-- The number of spans is the expected one. -/
def countHolds (mode : CountMode) (found expected : Nat) : Bool :=
  match mode with
  | .exactly => found == expected
  | .atLeast => expected ≤ found

/-- The call produced the expected number of spans. -/
def spanCount (e : Evidence) (call : TestCall) (expected : Nat) (mode : CountMode)
    (fullTrace : Bool) : Outcome :=
  let spans := e.spansOf call fullTrace
  let found := spans.length
  if spans.isEmpty && expected > 0 then e.missingSpans call
  else if countHolds mode found expected then .passed
  else
    fail .assertion
      s!"expected {mode.words} {expected} span(s) for request {call.id}, found {found}"
      (observedSpans spans)

/-- The complaint about the first span that does not pass a check. -/
def firstComplaint (check : Span → Except String Unit) :
    List LocatedSpan → Option (LocatedSpan × String)
  | [] => none
  | s :: rest =>
    match check s.span with
    | .ok () => firstComplaint check rest
    | .error reason => some (s, reason)

def spanCheck (e : Evidence) (call : Option TestCall) (check : Span → Except String Unit) :
    Outcome :=
  let spans := match call with
    | some call => e.spansOf call false
    | none => Correlation.spans e.records
  if spans.isEmpty then
    match call with
    | some call => e.missingSpans call
    | none => e.missing "span"
  else
    match firstComplaint check spans with
    | none => .passed
    | some (s, reason) =>
      fail .assertion
        s!"span {s.span.spanId} of trace {s.span.traceId} (record #{s.recordSeq}): {reason}"
        [s.span.raw]

def rootSpan (e : Evidence) (call : TestCall) : Outcome :=
  let spans := e.spansOf call false
  if spans.isEmpty then e.missingSpans call
  else if spans.any (·.span.isRoot) then .passed
  else
    fail .assertion
      s!"request {call.id} produced {spans.length} span(s) but none is a root span"
      (observedSpans spans)

/-! ## Trace ids -/

def roots (e : Evidence) : List LocatedSpan :=
  (Correlation.spans e.records).filter (·.span.isRoot)

/-- The trace ids that several of the roots have, without the excepted ones, in order. -/
def sharedIds (roots : List LocatedSpan) (exceptions : List Nat) : List Nat :=
  let ids := roots.map (·.span.traceId)
  let shared (id : Nat) : Bool := 1 < ids.count id && !exceptions.contains id
  ((ids.filter shared).mergeSort fun a b => a ≤ b).eraseReps

def uniqueTraceIds (e : Evidence) : Outcome :=
  let ids := sharedIds e.roots e.exceptions
  if ids.isEmpty then .passed
  else
    let culprits := ids.flatMap fun id => e.roots.filter (·.span.traceId == id)
    let listing := Text.join ", " (ids.map toString)
    fail .assertion s!"trace id(s) shared by several traces: {listing}" (observedSpans culprits)

/-! ## Headers and responses -/

def tracerHeaders (scenario : Scenario) : List String :=
  [ "datadog-meta-tracer-version",
    "datadog-meta-lang",
    "datadog-meta-lang-version" ] ++
  if scenario.library.is "php" then ["datadog-meta-lang-interpreter"] else []

/-- The record is a request with a trace payload of a library. -/
def isTracePayload (r : Record) : Bool :=
  r.isRequest &&
    match TraceFormat.ofEndpoint? r.path with
    | some .libraryV04 | some .libraryV05 => true
    | _ => false

def lackedHeaders (required : List String) (r : Record) : List String :=
  required.filter fun name => (r.header? name).isNone

/-- Trace payloads carry the headers that identify the tracer. -/
def traceHeaders (e : Evidence) : Outcome :=
  let required := tracerHeaders e.scenario
  let payloads := e.records.filter isTracePayload
  if payloads.isEmpty then e.missing "trace payload"
  else
    match payloads.find? fun r => !(lackedHeaders required r).isEmpty with
    | none => .passed
    | some r =>
      let lacked := Text.join ", " (lackedHeaders required r)
      fail .assertion
        s!"trace payload #{r.seq} on {r.path} is missing header(s): {lacked}"
        [.obj [("headers", Record.headersJson r.headers)]]

def isSuccessful (r : Record) : Bool := r.statusCode.any fun s => 200 ≤ s && s ≤ 299

/-- Every response on a path has a 2xx status. -/
def successfulResponses (e : Evidence) (path : String) : Outcome :=
  let responses := e.records.filter fun r => !r.isRequest && r.path == path
  if responses.isEmpty then e.missing s!"response on {path}"
  else
    let bad := responses.filter (!isSuccessful ·)
    match bad with
    | [] => .passed
    | first :: _ =>
      let status := match first.statusCode with
        | some s => toString s
        | none => "none"
      let amount := s!"{bad.length} of {responses.length} response(s) on {path}"
      fail .assertion
        s!"{amount} were not successful (first: record #{first.seq}, status {status})"
        ((bad.take maxObserved).map fun r =>
          .obj
            [("seq", Json.nat r.seq), ("status_code", Json.ofOption Json.nat r.statusCode)])

/-! ## Telemetry numbers -/

/-- The runtime and the number of a telemetry message; a message without runtime counts for the
nameless one. -/
def telemetryNumber? (r : Record) : Option (String × Nat) := do
  let header ← if r.isRequest &&
      (r.path == Selection.libraryTelemetryPath || r.path == Selection.agentTelemetryPath) then
    r.json?.bind fun payload => (TelemetryHeader.ofJson payload).toOption
  else none
  let number ← header.seqId
  some (header.runtimeId.getD "", number)

/-- Each number that is followed by one that is not its successor, with that one. -/
def gapsIn : List Nat → List (Nat × Nat)
  | a :: b :: rest => if a + 1 < b then (a, b) :: gapsIn (b :: rest) else gapsIn (b :: rest)
  | _ => []

/-- The numbers of a runtime in order, each once. -/
def numbersOf (numbers : List (String × Nat)) (runtime : String) : List Nat :=
  (((numbers.filter (·.1 == runtime)).map (·.2)).mergeSort fun a b => a ≤ b).eraseReps

def telemetryGaps (numbers : List (String × Nat)) : List (String × Nat × Nat) :=
  (Text.distinct (numbers.map (·.1))).flatMap fun runtime =>
    (gapsIn (numbersOf numbers runtime)).map fun (after, next) => (runtime, after, next)

/-- The numbers of the telemetry messages of a runtime have no gap. -/
def gaplessTelemetry (e : Evidence) : Outcome :=
  let numbers := e.records.filterMap telemetryNumber?
  if numbers.isEmpty then e.missing "telemetry message"
  else
    let gaps := telemetryGaps numbers
    if gaps.isEmpty then .passed
    else
      fail .assertion s!"{gaps.length} gap(s) in telemetry seq_id"
        ((gaps.take maxObserved).map fun (runtime, after, next) =>
          Json.object
            [ ("runtime_id", .str runtime), ("after", Json.nat after),
              ("next", Json.nat next) ])

/-! ## Schemas -/

/-- The outcome of a check against schemas. Violations that cannot be written are not shown. -/
def conformance : List Violation → Outcome
  | [] => .passed
  | first :: rest =>
    let place := s!"record #{first.seq} on {first.path} at '{first.pointer}' ({first.schema})"
    fail .schemaViolation
      s!"{rest.length + 1} schema violation(s); first: {place}: {first.message}"
      (((first :: rest).take maxObserved).filterMap fun v => v.toJson?.map Json.sorted)

end Evidence

/-- The outcome of an assertion, and the violations that it tolerated. -/
def Assertion.evaluate (e : Evidence) : Assertion → Outcome × List Violation
  | .spanCount call expected mode fullTrace => (e.spanCount call expected mode fullTrace, [])
  | .spanCheck call _ check => (e.spanCheck call check, [])
  | .rootSpan call => (e.rootSpan call, [])
  | .uniqueTraceIds => (e.uniqueTraceIds, [])
  | .traceHeaders => (e.traceHeaders, [])
  | .successfulResponses path => (e.successfulResponses path, [])
  | .gaplessTelemetry => (e.gaplessTelemetry, [])
  | .schemas allowed =>
    let report := SchemaReport.check e.records allowed
    (Evidence.conformance report.violations, report.tolerated)

/-- The outcome as one of an assertion about the call `requestId`. -/
def Outcome.about (requestId : Option String) : Outcome → Outcome
  | .passed => .passed
  | .failed f => .failed { f with requestId := f.requestId <|> requestId }

namespace Validator

def verdict (v : Validator) (outcome : Outcome) (tolerated : List Violation) : Verdict :=
  { id := v.id
    testId := v.testId
    interface := v.interface
    description := v.assertion.describe
    outcome := outcome.about v.assertion.requestId?
    tolerated }

def evaluate (v : Validator) (e : Evidence) : Verdict :=
  let (outcome, tolerated) := v.assertion.evaluate e
  v.verdict outcome tolerated

/-- The verdict on a validator that is not run. -/
def notEvaluated (v : Validator) (reason : String) : Verdict :=
  v.verdict (Evidence.fail .notEvaluated reason []) []

end Validator
end TraceAudit
