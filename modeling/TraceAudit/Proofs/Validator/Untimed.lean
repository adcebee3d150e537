import TraceAudit.Proofs.Record.Envelope
import TraceAudit.Validator.Evaluation

/-!
# Verdicts and the times of records

The time of a record has no say in a verdict. Timing compares the start of a span with the window of
a call, and neither of them is the time of a record.

* `Evidence.untimed` forgets the times of the records;
* each kind of assertion that looks at records has one lemma about such evidence;
* `Validator.evaluate_untimed` is the statement for all validators.
-/

namespace TraceAudit

theorem Correlation.spans_untimed (records : List Record) :
    spans (records.map Record.untimed) = spans records := by
  rw [spans, List.flatMap_map]
  rfl

theorem SchemaReport.check_untimed (records : List Record) (allowed : List String) :
    check (records.map Record.untimed) allowed = check records allowed := by
  have hgoverned : governed (records.map Record.untimed) = governed records := by
    rw [governed, List.filter_map, List.filterMap_map]
    rfl
  rw [check, check, hgoverned]

namespace Evidence

/-- The evidence without the times of the records. -/
def untimed (e : Evidence) : Evidence := { e with records := e.records.map Record.untimed }

variable (e : Evidence)

theorem allSpans_untimed : Correlation.spans e.untimed.records = Correlation.spans e.records :=
  Correlation.spans_untimed e.records

theorem spansOf_untimed (call : TestCall) (fullTrace : Bool) :
    e.untimed.spansOf call fullTrace = e.spansOf call fullTrace := by
  simp only [spansOf, Correlation.spansOf, allSpans_untimed]
  rfl

theorem roots_untimed : e.untimed.roots = e.roots := by
  rw [roots, roots, allSpans_untimed]

theorem spanCheck_untimed (call : Option TestCall) (check : Span → Except String Unit) :
    e.untimed.spanCheck call check = e.spanCheck call check := by
  cases call with
  | some call =>
    simp only [spanCheck, spansOf_untimed]
    rfl
  | none =>
    simp only [spanCheck, allSpans_untimed]
    rfl

/-- The first payload without a header is the same, and is told by its number, path and headers. -/
theorem traceHeaders_untimed : e.untimed.traceHeaders = e.traceHeaders := by
  have hpayloads : e.untimed.records.filter isTracePayload =
      (e.records.filter isTracePayload).map Record.untimed := by
    rw [untimed, List.filter_map]
    rfl
  have hfirst : ((e.records.filter isTracePayload).map Record.untimed).find?
        (fun r => !(lackedHeaders (tracerHeaders e.untimed.scenario) r).isEmpty) =
      ((e.records.filter isTracePayload).find? fun r =>
        !(lackedHeaders (tracerHeaders e.scenario) r).isEmpty).map Record.untimed := by
    rw [List.find?_map]
    rfl
  simp only [traceHeaders, hpayloads, hfirst, List.isEmpty_map]
  cases (e.records.filter isTracePayload).find? fun r =>
    !(lackedHeaders (tracerHeaders e.scenario) r).isEmpty <;> rfl

theorem successfulResponses_untimed (path : String) :
    e.untimed.successfulResponses path = e.successfulResponses path := by
  have hresponses : e.untimed.records.filter (fun r => !r.isRequest && r.path == path) =
      (e.records.filter fun r => !r.isRequest && r.path == path).map Record.untimed := by
    rw [untimed, List.filter_map]
    rfl
  have hbad : ((e.records.filter fun r => !r.isRequest && r.path == path).map
        Record.untimed).filter (!isSuccessful ·) =
      ((e.records.filter fun r => !r.isRequest && r.path == path).filter
        (!isSuccessful ·)).map Record.untimed := by
    rw [List.filter_map]
    rfl
  simp only [successfulResponses, hresponses, hbad, List.isEmpty_map, List.length_map]
  cases (e.records.filter fun r => !r.isRequest && r.path == path).filter (!isSuccessful ·) with
  | nil => rfl
  | cons first more =>
    -- What is listed of a response is its number and its status.
    have hlisted : (((first :: more).map Record.untimed).take maxObserved).map
          (fun r => Json.obj
            [("seq", Json.nat r.seq), ("status_code", Json.ofOption Json.nat r.statusCode)]) =
        ((first :: more).take maxObserved).map fun r => Json.obj
            [("seq", Json.nat r.seq), ("status_code", Json.ofOption Json.nat r.statusCode)] := by
      rw [← List.map_take, List.map_map]
      rfl
    split
    · rfl
    · exact congrArg (fail .assertion _) hlisted

theorem gaplessTelemetry_untimed : e.untimed.gaplessTelemetry = e.gaplessTelemetry := by
  have hnumbers : e.untimed.records.filterMap telemetryNumber? =
      e.records.filterMap telemetryNumber? := by
    rw [untimed, List.filterMap_map]
    rfl
  simp only [gaplessTelemetry, hnumbers]
  rfl

theorem evaluate_untimed (assertion : Assertion) :
    assertion.evaluate e.untimed = assertion.evaluate e := by
  cases assertion with
  | spanCount call expected mode fullTrace =>
    simp only [Assertion.evaluate, spanCount, spansOf_untimed]
    rfl
  | spanCheck call description check =>
    simp only [Assertion.evaluate, spanCheck_untimed]
  | rootSpan call =>
    simp only [Assertion.evaluate, rootSpan, spansOf_untimed]
    rfl
  | uniqueTraceIds =>
    simp only [Assertion.evaluate, uniqueTraceIds, roots_untimed]
    rfl
  | traceHeaders => simp only [Assertion.evaluate, traceHeaders_untimed]
  | successfulResponses path => simp only [Assertion.evaluate, successfulResponses_untimed]
  | gaplessTelemetry => simp only [Assertion.evaluate, gaplessTelemetry_untimed]
  | schemas allowed =>
    have hcheck : SchemaReport.check e.untimed.records allowed =
        SchemaReport.check e.records allowed := SchemaReport.check_untimed e.records allowed
    simp only [Assertion.evaluate, hcheck]

end Evidence

/-- Whatever a validator asserts: its verdict on the same records at other times is the same. -/
theorem Validator.evaluate_untimed (v : Validator) (e : Evidence) :
    v.evaluate e.untimed = v.evaluate e := by
  simp only [evaluate, Evidence.evaluate_untimed]

end TraceAudit
