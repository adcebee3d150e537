import TraceAudit.Validator.Evaluation

/-!
# How the wait ended

How the wait for the records ended is told where data is missing, and has no other say in a verdict:

* `Verdict.plain` is a verdict without these words;
* `Validator.evaluate_wait` says that it is the same for every end of the wait.
-/

namespace TraceAudit

/-- The outcome without the words on missing data. -/
def Outcome.plain : Outcome → Outcome
  | .passed => .passed
  | .failed f =>
    .failed { f with message := if f.kind = .noMatchingData then "" else f.message }

/-- The verdict without the words on missing data. -/
def Verdict.plain (v : Verdict) : Verdict := { v with outcome := v.outcome.plain }

theorem Outcome.plain_about (requestId : Option String) (o : Outcome) :
    (o.about requestId).plain = o.plain.about requestId := by
  cases o <;> rfl

namespace Evidence

/-- Where data is there, the end of the wait is not looked at, and elsewhere it only decides the
words. -/
theorem plain_missing_or (e : Evidence) (wait : WaitOutcome) (lacking : Bool) (what : String)
    (found : Outcome) :
    (if lacking then { e with wait }.missing what else found).plain =
      (if lacking then e.missing what else found).plain := by
  cases lacking with
  | true => simp [missing, fail, Outcome.plain]
  | false => rfl

theorem plain_evaluate (e : Evidence) (wait : WaitOutcome) (assertion : Assertion) :
    (assertion.evaluate { e with wait }).1.plain = (assertion.evaluate e).1.plain ∧
      (assertion.evaluate { e with wait }).2 = (assertion.evaluate e).2 := by
  cases assertion with
  | spanCount call expected mode fullTrace => exact ⟨e.plain_missing_or wait _ _ _, rfl⟩
  | spanCheck call description check =>
    cases call with
    | none => exact ⟨e.plain_missing_or wait _ _ _, rfl⟩
    | some call => exact ⟨e.plain_missing_or wait _ _ _, rfl⟩
  | rootSpan call => exact ⟨e.plain_missing_or wait _ _ _, rfl⟩
  | uniqueTraceIds => exact ⟨rfl, rfl⟩
  | traceHeaders => exact ⟨e.plain_missing_or wait _ _ _, rfl⟩
  | successfulResponses path => exact ⟨e.plain_missing_or wait _ _ _, rfl⟩
  | gaplessTelemetry => exact ⟨e.plain_missing_or wait _ _ _, rfl⟩
  | schemas allowed => exact ⟨rfl, rfl⟩

end Evidence

/-- The same records give the same verdict, but for the words on missing data, however the wait for
them ended. -/
theorem Validator.evaluate_wait (v : Validator) (e : Evidence) (wait : WaitOutcome) :
    (v.evaluate { e with wait }).plain = (v.evaluate e).plain := by
  have hassertion := Evidence.plain_evaluate e wait v.assertion
  simp only [Validator.evaluate, Validator.verdict, Verdict.plain, Outcome.plain_about,
    hassertion.1, hassertion.2]

end TraceAudit
