import TraceAudit.Session.Report

/-!
# Test Anything Protocol

`TapReport` is a session report as a list of test points, and `TapReport.render` writes it in
version 14 of the protocol. There is a point for every validator, one for every interface with
corrupt log entries, and one for every failure of the engine.
-/

namespace TraceAudit

/-- A test point with its diagnostics. -/
structure TestPoint where
  ok : Bool
  title : String
  notes : List String
deriving DecidableEq, Repr, Inhabited

/-- A report as test points. -/
structure TapReport where
  points : List TestPoint
deriving DecidableEq, Repr, Inhabited

namespace TestPoint

def notesOn (tolerated : List Violation) : Outcome → List String
  | .passed => tolerated.map fun v => s!"tolerated: {v.key} ({v.message})"
  | .failed f =>
    s!"{f.kind.words}: {f.message}" ::
      (f.requestId.map fun id => s!"request id: {id}").toList ++
      f.observed.map fun v => s!"observed: {v.compact}"

def ofVerdict (v : Verdict) : TestPoint :=
  { ok := v.isPassed
    title := s!"{v.testId}: [{v.interface.name}] {v.description}"
    notes := notesOn v.tolerated v.outcome }

/-- The point of an interface with corrupt log entries. -/
def ofCorrupt (detail : Detail) (interface : String) (entries : List CorruptEntry) : TestPoint :=
  { ok := false
    title := s!"deserialization: [{interface}] {entries.length} corrupt log entries"
    notes := entries.map (CorruptEntry.render detail) }

/-- The point of a failure of the engine. -/
def ofError (error : String) : TestPoint := { ok := false, title := "session", notes := [error] }

def noteLines (p : TestPoint) : List String :=
  p.notes.flatMap fun note =>
    (Text.lines note.toList).map fun line => "  # " ++ String.ofList line

/-- The lines of the point with a number. -/
def lines (number : Nat) (p : TestPoint) : List String :=
  let status := if p.ok then "ok" else "not ok"
  s!"{status} {number} - {p.title}" :: p.noteLines

end TestPoint

namespace TapReport

def ofReport (r : SessionReport) : TapReport :=
  ⟨r.verdicts.map TestPoint.ofVerdict ++
    (r.corrupt.map fun (name, entries) => TestPoint.ofCorrupt r.detail name entries) ++
    r.errors.map TestPoint.ofError⟩

/-- The number of points that are not ok. -/
def failureCount (t : TapReport) : Nat := t.points.countP (!·.ok)

/-- The lines of points that are numbered from `number` on. -/
def pointLines (number : Nat) : List TestPoint → List String
  | [] => []
  | p :: rest => p.lines number ++ pointLines (number + 1) rest

def textLines (t : TapReport) : List String :=
  let total := t.points.length
  "TAP version 14" :: s!"1..{total}" :: pointLines 1 t.points ++
    [ s!"# tests {total}",
      s!"# pass  {total - t.failureCount}",
      s!"# fail  {t.failureCount}" ]

def render (t : TapReport) : String := String.join (t.textLines.map (· ++ "\n"))

end TapReport
end TraceAudit
