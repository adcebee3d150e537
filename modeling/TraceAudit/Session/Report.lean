import TraceAudit.Digest.Sha256
import TraceAudit.Session.Interface

/-!
# Session reports

A `SessionReport` is everything that a session learned.

* `SessionReport.isSuccess` is its overall result;
* `SessionReport.byTest` groups the verdicts by test;
* `SessionReport.digest` identifies its content, `SessionReport.render` is a summary for readers.
-/

namespace TraceAudit

/-- Everything that a session learned. Interfaces are listed in the order of their names. -/
structure SessionReport where
  scenario : String
  mode : SessionMode
  /-- The verdicts, interface by interface, in the order of registration. -/
  verdicts : List Verdict
  /-- How the wait on each interface ended. -/
  waits : List (String × WaitOutcome)
  /-- The pieces of the log files that give no records, for interfaces that have some. -/
  corrupt : List (String × List CorruptEntry)
  /-- Failures of the engine itself. -/
  errors : List String
  /-- How much is told about what is wrong with the log files. -/
  detail : Detail

namespace SessionReport

def total (r : SessionReport) : Nat := r.verdicts.length

def passed (r : SessionReport) : Nat := r.verdicts.countP Verdict.isPassed

/-- The number of validators that did not pass. -/
def failed (r : SessionReport) : Nat := r.verdicts.countP (!·.isPassed)

/-- The number of pieces of the log files that give no records. -/
def corruptCount (r : SessionReport) : Nat := (r.corrupt.flatMap (·.2)).length

/-- Every validator passed, and nothing else went wrong. -/
def isSuccess (r : SessionReport) : Bool :=
  r.failed == 0 && r.corruptCount == 0 && r.errors.isEmpty

/-- The verdicts by the test that registered them. -/
def byTest (r : SessionReport) : List (String × List Verdict) :=
  (Text.distinct (r.verdicts.map (·.testId))).map fun testId =>
    (testId, r.verdicts.filter (·.testId == testId))

/-- The tests with a validator that did not pass. -/
def failedTests (r : SessionReport) : List String :=
  (r.byTest.filter fun (_, verdicts) => verdicts.any (!·.isPassed)).map (·.1)

def tolerated (r : SessionReport) : List Violation := r.verdicts.flatMap (·.tolerated)

/-- All violations that were tolerated can be written. -/
def isWritable (r : SessionReport) : Bool := r.tolerated.all Violation.isWritable

/-- The written form of a report that can be written. -/
def toJson (r : SessionReport) : Json :=
  let written := CorruptEntry.toJson r.detail
  .obj
    [ ("scenario", .str r.scenario),
      ("mode", .str r.mode.name),
      ("results", .arr (r.verdicts.map Verdict.toJson)),
      ("waits", .obj (r.waits.map fun (name, w) => (name, .str w.name))),
      ("deserialization_errors",
        .obj (r.corrupt.map fun (name, es) => (name, .arr (es.map written)))),
      ("session_errors", .arr (r.errors.map .str)),
      ("passed", Json.nat r.passed),
      ("failed", Json.nat r.failed),
      ("total", Json.nat r.total) ]

/-- The digest of the written form. Two runs over the same data agree in it. A report that cannot
be written has the digest of nothing. -/
def digest (r : SessionReport) : String :=
  Sha256.hash (if r.isWritable then r.toJson.toBytes else [])

/-- The line on a verdict, if it is no pass. -/
def failureLine (v : Verdict) : List String :=
  match v.outcome with
  | .passed => []
  | .failed f =>
    let place := s!"  FAIL [{v.interface.name}/{v.testId}]"
    [s!"{place}: {v.description} ({f.kind.words}): {f.message}"]

def summaryLines (r : SessionReport) : List String :=
  s!"Session '{r.scenario}': {r.passed}/{r.total} passed ({r.failed} failed)" ::
    r.verdicts.flatMap failureLine ++
    (r.corrupt.flatMap fun (name, entries) =>
      entries.map fun e => s!"  CORRUPT [{name}]: {e.render r.detail}") ++
    r.errors.map fun e => s!"  ERROR: {e}"

def render (r : SessionReport) : String :=
  String.join (r.summaryLines.map (· ++ "\n"))

end SessionReport
end TraceAudit
