import TraceAudit.Call.Basic
import TraceAudit.Schema.Check
import TraceAudit.Trace.Span

/-!
# Validators

A `Validator` is an assertion that a test registers while its body runs. It is evaluated once, much
later, against all records of one interface.

* `Assertion` is what a validator asserts, `Assertion.describe` words it;
* `Outcome` is a pass or a `Failure`, which says what was seen instead;
* `Verdict` is an outcome together with the validator it belongs to.
-/

namespace TraceAudit

/-- How a wait for data ended. -/
inductive WaitOutcome where
  /-- Data arrived, and then the interface stayed quiet. -/
  | quiescent
  /-- The time ran out first. -/
  | timedOut
  /-- There was nothing to wait for. -/
  | complete
  /-- The session was cancelled. -/
  | interrupted
deriving DecidableEq, Repr, Inhabited

def WaitOutcome.name : WaitOutcome → String
  | .quiescent => "quiescent"
  | .timedOut => "timed_out"
  | .complete => "complete"
  | .interrupted => "interrupted"

/-! ## Assertions -/

/-- Whether a number has to be met or may be exceeded. -/
inductive CountMode where
  | exactly
  | atLeast
deriving DecidableEq, Repr

def CountMode.words : CountMode → String
  | .exactly => "exactly"
  | .atLeast => "at least"

/-- What a validator asserts. -/
inductive Assertion where
  /-- The call produced this number of spans, counting whole traces if `fullTrace` is set. -/
  | spanCount (call : TestCall) (expected : Nat) (mode : CountMode) (fullTrace : Bool)
  /-- Every span, of a call or of the interface, passes a check, which otherwise says what is
  wrong. -/
  | spanCheck (call : Option TestCall) (description : String) (check : Span → Except String Unit)
  /-- The call produced a root span. -/
  | rootSpan (call : TestCall)
  /-- No two traces share a trace id, except for excepted ids. -/
  | uniqueTraceIds
  /-- Trace payloads carry the headers that identify the tracer. -/
  | traceHeaders
  /-- Every response on the path has a 2xx status. -/
  | successfulResponses (path : String)
  /-- The numbers of the telemetry messages of a runtime have no gap. -/
  | gaplessTelemetry
  /-- Every payload matches the schema that governs it, except for allowed violations. -/
  | schemas (allowed : List String)

namespace Assertion

def describe : Assertion → String
  | .spanCount call expected mode fullTrace =>
    let scope := if fullTrace then " (full traces)" else ""
    s!"{mode.words} {expected} span(s) for request {call.id}" ++ scope
  | .spanCheck (some call) description _ =>
    s!"span check '{description}' for request {call.id}"
  | .spanCheck none description _ => s!"span check '{description}'"
  | .rootSpan call => s!"root span for request {call.id}"
  | .uniqueTraceIds => "trace id uniqueness"
  | .traceHeaders => "trace payload headers"
  | .successfulResponses path => s!"successful responses on {path}"
  | .gaplessTelemetry => "no skipped telemetry seq_id"
  | .schemas _ => "schema conformance"

/-- The id of the call that an assertion is about. -/
def requestId? : Assertion → Option String
  | .spanCount call _ _ _ | .spanCheck (some call) _ _ | .rootSpan call => some call.id
  | _ => none

/-- Responses to telemetry are successful; where telemetry is sent depends on the source. -/
def successfulTelemetry (source : Source) : Assertion :=
  .successfulResponses
    (if source = .agent then Selection.agentTelemetryPath else Selection.libraryTelemetryPath)

end Assertion

/-- A registered assertion. -/
structure Validator where
  /-- The place in the order of registration on its interface. -/
  id : Nat
  testId : String
  interface : Source
  assertion : Assertion

/-! ## Verdicts -/

/-- What kind of failure it is. -/
inductive FailureKind where
  /-- The data that was needed is not there. -/
  | noMatchingData
  /-- The data is there, and the assertion does not hold. -/
  | assertion
  /-- A payload does not match its schema. -/
  | schemaViolation
  /-- The session stopped before the validator could run. -/
  | notEvaluated
deriving DecidableEq, Repr

namespace FailureKind

def words : FailureKind → String
  | .noMatchingData => "no matching data"
  | .assertion => "assertion failed"
  | .schemaViolation => "schema violation"
  | .notEvaluated => "not evaluated"

def name : FailureKind → String
  | .noMatchingData => "no_matching_data"
  | .assertion => "assertion"
  | .schemaViolation => "schema_violation"
  | .notEvaluated => "not_evaluated"

end FailureKind

/-- Why an assertion did not pass. -/
structure Failure where
  kind : FailureKind
  message : String
  /-- The id of the call that the assertion is about. -/
  requestId : Option String
  /-- What was seen: spans, headers, responses, gaps or violations. -/
  observed : List Json

/-- How an assertion fared. -/
inductive Outcome where
  | passed
  | failed (failure : Failure)

namespace Outcome

def isPassed : Outcome → Bool
  | .passed => true
  | .failed _ => false

def toJson : Outcome → Json
  | .passed => .obj [("status", .str "passed")]
  | .failed f =>
    let observed : List (String × Json) :=
      if f.observed.isEmpty then [] else [("observed", .arr f.observed)]
    .obj <|
      [ ("status", .str "failed"),
        ("kind", .str f.kind.name),
        ("message", .str f.message) ] ++
      Record.optional "request_id" .str f.requestId ++
      observed

end Outcome

/-- The outcome of a validator. -/
structure Verdict where
  id : Nat
  testId : String
  interface : Source
  description : String
  outcome : Outcome
  /-- The schema violations that were allowed. -/
  tolerated : List Violation

namespace Verdict

def isPassed (v : Verdict) : Bool := v.outcome.isPassed

def toJson (v : Verdict) : Json :=
  let tolerated : List (String × Json) :=
    if v.tolerated.isEmpty then [] else [("tolerated", .arr (v.tolerated.map Violation.toJson))]
  .obj <|
    [ ("id", Json.nat v.id),
      ("test_id", .str v.testId),
      ("interface", .str v.interface.name),
      ("description", .str v.description),
      ("outcome", v.outcome.toJson) ] ++
    tolerated

end Verdict
end TraceAudit
