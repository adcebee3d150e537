import Mathlib.Data.List.Sort
import Mathlib.Data.String.Basic
import TraceAudit.Validator.Evaluation

/-!
# Verdicts and the order of arrival

The files of a folder may be delivered in any order, so the records of an interface may come in any
order. What a validator finds must not hang on that.

* `Correlation.spansOf_perm` says that the spans of a call are the same ones in another order;
* each kind of assertion has one lemma that compares its outcomes on reordered evidence;
* `verdict_reordered` is the statement for all validators.
-/

namespace TraceAudit

/-! ## What is compared -/

namespace Outcome

/-- The kind of a failure, nothing for a pass. -/
def kind? : Outcome → Option FailureKind
  | .passed => none
  | .failed f => some f.kind

/-- The message of a failure, nothing for a pass. -/
def message? : Outcome → Option String
  | .passed => none
  | .failed f => some f.message

theorem kind?_about (requestId : Option String) (o : Outcome) :
    (o.about requestId).kind? = o.kind? := by
  cases o <;> rfl

theorem message?_about (requestId : Option String) (o : Outcome) :
    (o.about requestId).message? = o.message? := by
  cases o <;> rfl

theorem about_none (o : Outcome) : o.about none = o := by
  cases o with
  | passed => rfl
  | failed f =>
    rcases f with ⟨kind, message, requestId, observed⟩
    cases requestId <;> rfl

theorem isPassed_eq (o : Outcome) : o.isPassed = o.kind?.isNone := by
  cases o <;> rfl

end Outcome

/-- The assertion is about an amount that its message tells in full. -/
def Assertion.isCount : Assertion → Bool
  | .spanCount _ _ _ _ => true
  | .gaplessTelemetry => true
  | _ => false

/-! ## Spans -/

namespace Correlation

variable {records records' : List Record}

theorem spans_perm (h : records.Perm records') : (spans records).Perm (spans records') :=
  h.flatMap_right spansIn

theorem attributed_perm {all all' : List LocatedSpan} (h : all.Perm all') (call : TestCall)
    (timing : Bool) : (attributed all call timing).Perm (attributed all' call timing) := by
  unfold attributed
  -- Whether some span carries the id is the same for both, so both go the same way.
  rw [h.any_eq]
  split
  · exact h.filter (startedWithin call)
  · exact h.filter (carries call)

theorem spansOf_perm (h : records.Perm records') (call : TestCall) (how : Attribution) :
    (spansOf records call how).Perm (spansOf records' call how) := by
  have hall := spans_perm h
  have hfound := attributed_perm hall call how.timing
  unfold spansOf
  split
  · have htraces : ∀ id, ((attributed (spans records) call how.timing).map
        (·.span.traceId)).contains id =
        ((attributed (spans records') call how.timing).map (·.span.traceId)).contains id :=
      fun id => (hfound.map (·.span.traceId)).contains_eq
    simp only [htraces]
    exact hall.filter _
  · exact hfound

end Correlation

/-! ## Sorted lists -/

/-- Sorting forgets the order in which items came. -/
theorem mergeSort_eq_of_perm {α : Type} (r : α → α → Prop) [DecidableRel r] [Std.Total r]
    [IsTrans α r] [Std.Antisymm r] {items items' : List α} (h : items.Perm items') :
    items.mergeSort (r · ·) = items'.mergeSort (r · ·) := by
  have hsame : (items.mergeSort (r · ·)).Perm (items'.mergeSort (r · ·)) :=
    (List.mergeSort_perm items _).trans (h.trans (List.mergeSort_perm items' _).symm)
  exact hsame.eq_of_pairwise' (List.pairwise_mergeSort' r items) (List.pairwise_mergeSort' r items')

theorem Text.distinct_perm {texts texts' : List String} (h : texts.Perm texts') :
    distinct texts = distinct texts' :=
  congrArg List.eraseReps (mergeSort_eq_of_perm (· ≤ ·) h)

namespace Evidence

/-! ## Kinds of failure -/

/-- How an assertion fails that needs some data and then looks for a fault in it. -/
def kindOf (lacking faulty : Bool) : Option FailureKind :=
  if lacking then some .noMatchingData else if faulty then some .assertion else none

section Kinds

variable (e : Evidence)

theorem kind?_spanCount (call : TestCall) (expected : Nat) (mode : CountMode) (fullTrace : Bool) :
    (e.spanCount call expected mode fullTrace).kind? =
      kindOf ((e.spansOf call fullTrace).isEmpty && expected > 0)
        (!countHolds mode (e.spansOf call fullTrace).length expected) := by
  simp only [spanCount]
  cases (e.spansOf call fullTrace).isEmpty && decide (expected > 0) with
  | true => rfl
  | false => cases countHolds mode (e.spansOf call fullTrace).length expected <;> rfl

/-- There is a complaint when some span does not pass. -/
theorem isSome_firstComplaint (check : Span → Except String Unit) (spans : List LocatedSpan) :
    (firstComplaint check spans).isSome = spans.any fun s => !(check s.span).isOk := by
  induction spans with
  | nil => rfl
  | cons s rest ih =>
    cases hcheck : check s.span with
    | ok u => simp [firstComplaint, hcheck, ih, Except.isOk, Except.toBool]
    | error reason => simp [firstComplaint, hcheck, Except.isOk, Except.toBool]

/-- The spans that a check is about: those of a call, or all of the interface. -/
def checkedSpans (e : Evidence) : Option TestCall → List LocatedSpan
  | some call => e.spansOf call false
  | none => Correlation.spans e.records

theorem kind?_spanCheck (call : Option TestCall) (check : Span → Except String Unit) :
    (e.spanCheck call check).kind? =
      kindOf (e.checkedSpans call).isEmpty
        ((e.checkedSpans call).any fun s => !(check s.span).isOk) := by
  rw [← isSome_firstComplaint]
  cases call with
  | some call =>
    simp only [spanCheck, checkedSpans]
    cases (e.spansOf call false).isEmpty with
    | true => rfl
    | false => cases firstComplaint check (e.spansOf call false) <;> rfl
  | none =>
    simp only [spanCheck, checkedSpans]
    cases (Correlation.spans e.records).isEmpty with
    | true => rfl
    | false => cases firstComplaint check (Correlation.spans e.records) <;> rfl

theorem kind?_rootSpan (call : TestCall) :
    (e.rootSpan call).kind? =
      kindOf (e.spansOf call false).isEmpty (!(e.spansOf call false).any (·.span.isRoot)) := by
  simp only [rootSpan]
  cases (e.spansOf call false).isEmpty with
  | true => rfl
  | false => cases (e.spansOf call false).any (·.span.isRoot) <;> rfl

theorem kind?_uniqueTraceIds :
    e.uniqueTraceIds.kind? = kindOf false (!(sharedIds e.roots e.exceptions).isEmpty) := by
  simp only [uniqueTraceIds]
  cases (sharedIds e.roots e.exceptions).isEmpty <;> rfl

theorem kind?_traceHeaders :
    e.traceHeaders.kind? =
      kindOf (e.records.filter isTracePayload).isEmpty
        ((e.records.filter isTracePayload).any fun r =>
          !(lackedHeaders (tracerHeaders e.scenario) r).isEmpty) := by
  rw [← List.isSome_find?]
  simp only [traceHeaders]
  cases (e.records.filter isTracePayload).isEmpty with
  | true => rfl
  | false =>
    cases (e.records.filter isTracePayload).find? fun r =>
      !(lackedHeaders (tracerHeaders e.scenario) r).isEmpty <;> rfl

/-- The responses on a path. -/
def responsesOn (e : Evidence) (path : String) : List Record :=
  e.records.filter fun r => !r.isRequest && r.path == path

theorem kind?_successfulResponses (path : String) :
    (e.successfulResponses path).kind? =
      kindOf (e.responsesOn path).isEmpty
        (!((e.responsesOn path).filter (!isSuccessful ·)).isEmpty) := by
  simp only [successfulResponses, responsesOn]
  cases (e.records.filter fun r => !r.isRequest && r.path == path).isEmpty with
  | true => rfl
  | false =>
    cases (e.records.filter fun r => !r.isRequest && r.path == path).filter
      (!isSuccessful ·) <;> rfl

theorem kind?_conformance (violations : List Violation) :
    (conformance violations).kind? =
      if violations.isEmpty then none else some .schemaViolation := by
  cases violations <;> rfl

end Kinds

/-! ## Evidence in another order -/

section Reordered

variable (e : Evidence) {records : List Record}

theorem spansOf_reordered (h : e.records.Perm records) (call : TestCall) (fullTrace : Bool) :
    (e.spansOf call fullTrace).Perm ({ e with records }.spansOf call fullTrace) :=
  Correlation.spansOf_perm h call ⟨fullTrace, e.timingFallback⟩

/-- The message tells the number of spans, which stays the same. -/
theorem spanCount_reordered (h : e.records.Perm records) (call : TestCall) (expected : Nat)
    (mode : CountMode) (fullTrace : Bool) :
    ({ e with records }.spanCount call expected mode fullTrace).kind? =
        (e.spanCount call expected mode fullTrace).kind? ∧
      ({ e with records }.spanCount call expected mode fullTrace).message? =
        (e.spanCount call expected mode fullTrace).message? := by
  have hspans := e.spansOf_reordered h call fullTrace
  refine ⟨?_, ?_⟩
  · rw [kind?_spanCount, kind?_spanCount, hspans.isEmpty_eq, hspans.length_eq]
  · simp only [spanCount, ← hspans.isEmpty_eq, ← hspans.length_eq]
    split
    · rfl
    · split <;> rfl

/-- Which span is complained about first may differ, but not whether there is one. -/
theorem spanCheck_reordered (h : e.records.Perm records) (call : Option TestCall)
    (check : Span → Except String Unit) :
    ({ e with records }.spanCheck call check).kind? = (e.spanCheck call check).kind? := by
  have hspans : (e.checkedSpans call).Perm ({ e with records }.checkedSpans call) := by
    cases call with
    | some call => exact e.spansOf_reordered h call false
    | none => exact Correlation.spans_perm h
  rw [kind?_spanCheck, kind?_spanCheck, hspans.isEmpty_eq, hspans.any_eq]

theorem rootSpan_reordered (h : e.records.Perm records) (call : TestCall) :
    ({ e with records }.rootSpan call).kind? = (e.rootSpan call).kind? := by
  have hspans := e.spansOf_reordered h call false
  rw [kind?_rootSpan, kind?_rootSpan, hspans.isEmpty_eq, hspans.any_eq]

/-- The shared ids are counted and then sorted, so they come out the same. -/
theorem sharedIds_perm {roots roots' : List LocatedSpan} (h : roots.Perm roots')
    (exceptions : List Nat) : sharedIds roots exceptions = sharedIds roots' exceptions := by
  have hids := h.map (·.span.traceId)
  simp only [sharedIds, hids.count_eq]
  exact congrArg List.eraseReps (mergeSort_eq_of_perm (· ≤ ·) (hids.filter _))

theorem uniqueTraceIds_reordered (h : e.records.Perm records) :
    { e with records }.uniqueTraceIds.kind? = e.uniqueTraceIds.kind? := by
  have hroots : e.roots.Perm { e with records }.roots := (Correlation.spans_perm h).filter _
  rw [kind?_uniqueTraceIds, kind?_uniqueTraceIds, sharedIds_perm hroots]

theorem traceHeaders_reordered (h : e.records.Perm records) :
    { e with records }.traceHeaders.kind? = e.traceHeaders.kind? := by
  have hpayloads := h.filter isTracePayload
  rw [kind?_traceHeaders, kind?_traceHeaders, hpayloads.isEmpty_eq, hpayloads.any_eq]

theorem successfulResponses_reordered (h : e.records.Perm records) (path : String) :
    ({ e with records }.successfulResponses path).kind? = (e.successfulResponses path).kind? := by
  have hresponses : (e.responsesOn path).Perm ({ e with records }.responsesOn path) := h.filter _
  have hbad := hresponses.filter (!isSuccessful ·)
  rw [kind?_successfulResponses, kind?_successfulResponses, hresponses.isEmpty_eq, hbad.isEmpty_eq]

theorem numbersOf_perm {numbers numbers' : List (String × Nat)} (h : numbers.Perm numbers')
    (runtime : String) : numbersOf numbers runtime = numbersOf numbers' runtime :=
  congrArg List.eraseReps
    (mergeSort_eq_of_perm (· ≤ ·) ((h.filter fun n => n.1 == runtime).map (·.2)))

theorem telemetryGaps_perm {numbers numbers' : List (String × Nat)} (h : numbers.Perm numbers') :
    telemetryGaps numbers = telemetryGaps numbers' := by
  unfold telemetryGaps
  rw [Text.distinct_perm (h.map (·.1))]
  simp only [numbersOf_perm h]

/-- The numbers are sorted runtime by runtime, so nothing at all differs. -/
theorem gaplessTelemetry_reordered (h : e.records.Perm records) :
    { e with records }.gaplessTelemetry = e.gaplessTelemetry := by
  have hnumbers := h.filterMap telemetryNumber?
  unfold gaplessTelemetry
  simp only [← hnumbers.isEmpty_eq, ← telemetryGaps_perm hnumbers]
  rfl

end Reordered

end Evidence

theorem SchemaReport.violations_perm {records records' : List Record} (h : records.Perm records')
    (allowed : List String) :
    (check records allowed).violations.Perm (check records' allowed).violations := by
  have hgoverned : (governed records).Perm (governed records') :=
    (h.filter Record.isRequest).filterMap Violation.ofRecord?
  exact hgoverned.flatten.filter _

/-! ## Verdicts -/

/-- Where an assertion is about no call, its outcome is the outcome of the validator. -/
theorem Validator.outcome_evaluate {v : Validator} (h : v.assertion.requestId? = none)
    (e : Evidence) : (v.evaluate e).outcome = (v.assertion.evaluate e).1 := by
  simp only [evaluate, verdict, h, Outcome.about_none]

theorem Assertion.evaluate_reordered (a : Assertion) (e : Evidence) {records : List Record}
    (h : e.records.Perm records) :
    (a.evaluate { e with records }).1.kind? = (a.evaluate e).1.kind? ∧
      (a.isCount = true →
        (a.evaluate { e with records }).1.message? = (a.evaluate e).1.message?) := by
  cases a with
  | spanCount call expected mode fullTrace =>
    have hcount := e.spanCount_reordered h call expected mode fullTrace
    exact ⟨hcount.1, fun _ => hcount.2⟩
  | gaplessTelemetry =>
    have hgapless := e.gaplessTelemetry_reordered h
    exact ⟨congrArg Outcome.kind? hgapless, fun _ => congrArg Outcome.message? hgapless⟩
  | spanCheck call description check => exact ⟨e.spanCheck_reordered h call check, nofun⟩
  | rootSpan call => exact ⟨e.rootSpan_reordered h call, nofun⟩
  | uniqueTraceIds => exact ⟨e.uniqueTraceIds_reordered h, nofun⟩
  | traceHeaders => exact ⟨e.traceHeaders_reordered h, nofun⟩
  | successfulResponses path => exact ⟨e.successfulResponses_reordered h path, nofun⟩
  | schemas allowed =>
    have hviolations := SchemaReport.violations_perm h allowed
    refine ⟨?_, nofun⟩
    simp only [evaluate, Evidence.kind?_conformance, hviolations.isEmpty_eq]

/-- Whatever a validator asserts: on the same records in another order it passes or fails alike, and
fails in the same way. Where it is about an amount, the message is the same too. -/
theorem verdict_reordered (v : Validator) (e : Evidence) {records : List Record}
    (h : e.records.Perm records) :
    (v.evaluate { e with records }).isPassed = (v.evaluate e).isPassed ∧
      (v.evaluate { e with records }).outcome.kind? = (v.evaluate e).outcome.kind? ∧
      (v.assertion.isCount = true →
        (v.evaluate { e with records }).outcome.message? = (v.evaluate e).outcome.message?) := by
  rcases v.assertion.evaluate_reordered e h with ⟨hkind, hmessage⟩
  have hkinds : (v.evaluate { e with records }).outcome.kind? = (v.evaluate e).outcome.kind? := by
    simpa [Validator.evaluate, Validator.verdict, Outcome.kind?_about] using hkind
  refine ⟨?_, hkinds, ?_⟩
  · simp only [Verdict.isPassed, Outcome.isPassed_eq, hkinds]
  · intro hcount
    simpa [Validator.evaluate, Validator.verdict, Outcome.message?_about] using hmessage hcount

/-- A request with one trace of one span, which carries a request id. -/
def recordWithSpan (id : Nat) (requestId : String) : Record :=
  let span : Json := .obj
    [ ("meta", .obj [("http.request.headers.x-test-request-id", .str requestId)]),
      ("span_id", .nat id), ("trace_id", .nat id) ]
  Record.made .library "/v0.4/traces" (Payload.ofJson (.arr [.arr [span]])) default

/-- Two spans of the call `A`, and between them one of the call `B`. -/
def interleaved : Evidence :=
  { scenario := default
    records := [recordWithSpan 1 "A", recordWithSpan 2 "B", recordWithSpan 3 "A"]
    wait := .quiescent
    timingFallback := true
    exceptions := [] }

/-- Three spans are asked of the call `A`. -/
def threeSpans : Validator :=
  { id := 0
    testId := "t"
    interface := .library
    assertion := .spanCount { (default : TestCall) with id := "A" } 3 .exactly false }

/-- The records arrive the other way round, and still two spans are found. -/
theorem verdict_reordered_reversed :
    let e := { interleaved with records := interleaved.records.reverse }
    (threeSpans.evaluate e).outcome.kind? = some .assertion ∧
      (threeSpans.evaluate e).outcome.message? =
        some "expected exactly 3 span(s) for request A, found 2" := by
  intro e
  rcases verdict_reordered threeSpans interleaved (List.reverse_perm interleaved.records).symm with
    ⟨-, hkind, hmessage⟩
  refine ⟨hkind.trans ?_, (hmessage rfl).trans ?_⟩
  · decide +kernel
  · decide +kernel

end TraceAudit
