import TraceAudit.Proofs.Session.Ledger
import TraceAudit.Proofs.Validator.Continuity
import TraceAudit.Proofs.Validator.SharedTraces

/-!
# The grounds of a verdict

Whoever reads a failure has to know whose it is, and what was seen that speaks for it.

* `Assertion.TiedTo` says which call an assertion is about, and `Verdict.BelongsTo` that a verdict
  tells its validator and this call;
* `Evidence.Shows` lists what may be shown against an assertion, and `Evidence.Hides` says when
  nothing can be shown although it does not hold;
* `Outcome.Grounded` is an outcome that shows nothing where data is missing, and otherwise up to ten
  such items, one at least unless they are hidden. There is one lemma for each kind of assertion;
* `verdict_grounded` is the statement for all validators, and `unnamed_log_hides` a failure that
  shows nothing.
-/

namespace TraceAudit

/-! ## Whose verdict it is -/

/-- The assertion is about what a call has caused. -/
inductive Assertion.TiedTo (call : TestCall) : Assertion → Prop
  | spanCount (expected : Nat) (mode : CountMode) (fullTrace : Bool) :
      TiedTo call (.spanCount call expected mode fullTrace)
  | spanCheck (description : String) (check : Span → Except String Unit) :
      TiedTo call (.spanCheck (some call) description check)
  | rootSpan : TiedTo call (.rootSpan call)

theorem Assertion.requestId?_eq_some {a : Assertion} {id : String} :
    a.requestId? = some id ↔ ∃ call, a.TiedTo call ∧ call.id = id := by
  constructor
  · intro h
    cases a with
    | spanCount call expected mode fullTrace =>
      exact ⟨call, .spanCount expected mode fullTrace, Option.some.inj h⟩
    | spanCheck call description check =>
      cases call with
      | none => cases h
      | some call => exact ⟨call, .spanCheck description check, Option.some.inj h⟩
    | rootSpan call => exact ⟨call, .rootSpan, Option.some.inj h⟩
    | _ => cases h
  · rintro ⟨call, htied, rfl⟩
    cases htied <;> rfl

/-- The verdict has the id, test, interface and description of the validator, and its failure the id
of the call that the validator is tied to, if there is one. -/
structure Verdict.BelongsTo (verdict : Verdict) (v : Validator) : Prop where
  receipt : verdict.receipt = v.receipt
  requestId : ∀ f, verdict.outcome = .failed f →
    ∀ id, f.requestId = some id ↔ ∃ call, v.assertion.TiedTo call ∧ call.id = id

/-! ## What it rests on -/

/-- The violation cannot be written, since the path of its log file is no text. -/
def Violation.Unwritable (v : Violation) : Prop :=
  ∃ octets foreign, v.logFile = some (.raw octets foreign)

theorem Violation.isWritable_iff {v : Violation} : v.isWritable = true ↔ ¬v.Unwritable := by
  rw [isWritable, Unwritable]
  rcases v.logFile with _ | path | ⟨octets, foreign⟩
  · simp
  · simp [OsPath.text?]
  · simp [OsPath.text?, foreign]

namespace Evidence

/-- The violations that a failure would show. -/
def firstViolations (e : Evidence) (allowed : List String) : List Violation :=
  (SchemaReport.check e.records allowed).violations.take maxObserved

/-- What may be shown against an assertion. -/
inductive Shows (e : Evidence) : Assertion → Json → Prop
  | counted {call : TestCall} {expected : Nat} {mode : CountMode} {fullTrace : Bool}
      {s : LocatedSpan} : s ∈ e.spansOf call fullTrace →
      Shows e (.spanCount call expected mode fullTrace) s.span.raw
  | refused {call : Option TestCall} {description : String} {check : Span → Except String Unit}
      {s : LocatedSpan} {reason : String} :
      s ∈ e.checkedSpans call → check s.span = .error reason →
      Shows e (.spanCheck call description check) s.span.raw
  | child {call : TestCall} {s : LocatedSpan} :
      s ∈ e.spansOf call false → s.span.isRoot = false → Shows e (.rootSpan call) s.span.raw
  | shared {id : Nat} {s : LocatedSpan} :
      s ∈ Correlation.spans e.records → IsRootOf id s → Shared (Correlation.spans e.records) id →
      id ∉ e.exceptions → Shows e .uniqueTraceIds s.span.raw
  | headers {r : Record} {name : String} :
      r ∈ e.records → isTracePayload r = true → name ∈ tracerHeaders e.scenario →
      r.header? name = none →
      Shows e .traceHeaders (.obj [("headers", Record.headersJson r.headers)])
  | response {r : Record} :
      r ∈ e.records → r.isRequest = false → isSuccessful r = false →
      Shows e (.successfulResponses r.path) (.obj
        [("seq", Json.nat r.seq), ("status_code", Json.ofOption Json.nat r.statusCode)])
  | gap {runtime : String} {after next : Nat} :
      Gap (seqIds e.records runtime) after next →
      Shows e .gaplessTelemetry (.obj
        [("after", Json.nat after), ("next", Json.nat next), ("runtime_id", .str runtime)])
  | violation {allowed : List String} {violation : Violation} :
      violation ∈ e.firstViolations allowed → ¬violation.Unwritable →
      Shows e (.schemas allowed) violation.toJson.sorted

/-- Nothing can be shown against the assertion, since none of the violations that would be shown can
be written. -/
def Hides (e : Evidence) : Assertion → Prop
  | .schemas allowed => ∀ v ∈ e.firstViolations allowed, v.Unwritable
  | _ => False

end Evidence

/-- How an assertion fails that does not hold. -/
def Assertion.failureKind : Assertion → FailureKind
  | .schemas _ => .schemaViolation
  | _ => .assertion

/-- The outcome shows nothing where data is missing. Where the assertion does not hold, the failure
is of this kind and shows up to ten of these items, one at least unless they are hidden. -/
inductive Outcome.Grounded (kind : FailureKind) (shown : Json → Prop) (hidden : Prop) :
    Outcome → Prop
  | passed : Grounded kind shown hidden .passed
  | missing (message : String) :
      Grounded kind shown hidden (Evidence.fail .noMatchingData message [])
  | refuted (message : String) {items : List Json} :
      (items = [] ↔ hidden) → items.length ≤ 10 → (∀ item ∈ items, shown item) →
      Grounded kind shown hidden (Evidence.fail kind message items)

/-- Of what speaks against an assertion, the first ten items are shown. -/
theorem Outcome.Grounded.first {kind : FailureKind} {shown : Json → Prop} (message : String)
    {α : Type} {found : List α} {item : α → Json} (hsome : found ≠ [])
    (hshown : ∀ a ∈ found, shown (item a)) :
    Grounded kind shown False
      (Evidence.fail kind message ((found.take Evidence.maxObserved).map item)) := by
  refine .refuted message (iff_false_intro ?_) (by simp [Evidence.maxObserved]) fun v hv => ?_
  · simpa [Evidence.maxObserved] using hsome
  · rcases List.mem_map.1 hv with ⟨a, ha, rfl⟩
    exact hshown a (List.mem_of_mem_take ha)

namespace Evidence

/-! ## Kinds of assertions -/

variable (e : Evidence)

/-- Where no span is expected and none is found, the number is right. -/
theorem countHolds_zero (mode : CountMode) : countHolds mode 0 0 = true := by
  cases mode <;> rfl

theorem spanCount_grounded (call : TestCall) (expected : Nat) (mode : CountMode)
    (fullTrace : Bool) :
    (e.spanCount call expected mode fullTrace).Grounded .assertion
      (e.Shows (.spanCount call expected mode fullTrace)) False := by
  simp only [spanCount]
  split
  · exact .missing _
  · rename_i hfound
    split
    · exact .passed
    · rename_i hnot
      have hsome : e.spansOf call fullTrace ≠ [] := by
        intro hnil
        have hzero : expected = 0 := by simpa [hnil] using hfound
        rw [hnil, hzero] at hnot
        exact hnot (countHolds_zero mode)
      exact .first _ hsome fun s hs => .counted hs

/-- The span complained about is one that the check refuses. -/
theorem firstComplaint_eq_some {check : Span → Except String Unit} {spans : List LocatedSpan}
    {s : LocatedSpan} {reason : String} (h : firstComplaint check spans = some (s, reason)) :
    s ∈ spans ∧ check s.span = .error reason := by
  induction spans with
  | nil => cases h
  | cons first rest ih =>
    rw [firstComplaint] at h
    split at h
    · rcases ih h with ⟨hs, hreason⟩
      exact ⟨List.mem_cons_of_mem first hs, hreason⟩
    · rename_i hrefused
      cases h
      exact ⟨List.mem_cons_self, hrefused⟩

theorem spanCheck_grounded (call : Option TestCall) (description : String)
    (check : Span → Except String Unit) :
    (e.spanCheck call check).Grounded .assertion
      (e.Shows (.spanCheck call description check)) False := by
  have hcomplaint : ∀ s reason, firstComplaint check (e.checkedSpans call) = some (s, reason) →
      ∀ message, (fail .assertion message [s.span.raw]).Grounded .assertion
        (e.Shows (.spanCheck call description check)) False := by
    intro s reason hfound message
    rcases firstComplaint_eq_some hfound with ⟨hs, hrefused⟩
    refine .refuted message (iff_false_intro (List.cons_ne_nil _ _)) (by simp) fun item hitem => ?_
    rw [List.mem_singleton.1 hitem]
    exact .refused hs hrefused
  -- Only the words on missing spans differ with and without a call.
  cases call
  all_goals
    simp only [spanCheck]
    split
    · exact .missing _
    · split
      · exact .passed
      · rename_i s reason hfound
        exact hcomplaint s reason hfound _

theorem rootSpan_grounded (call : TestCall) :
    (e.rootSpan call).Grounded .assertion (e.Shows (.rootSpan call)) False := by
  simp only [rootSpan]
  split
  · exact .missing _
  · rename_i hfound
    split
    · exact .passed
    · rename_i hchildren
      have hsome : e.spansOf call false ≠ [] := by simpa using hfound
      refine .first _ hsome fun s hs => .child hs ?_
      simpa using fun hroot => hchildren (List.any_eq_true.2 ⟨s, hs, hroot⟩)

/-- An id that is shared has roots to be shown. -/
theorem uniqueTraceIds_grounded :
    e.uniqueTraceIds.Grounded .assertion (e.Shows .uniqueTraceIds) False := by
  simp only [uniqueTraceIds]
  split
  · exact .passed
  · rename_i hids
    have hmem : ∀ {id s}, s ∈ e.roots.filter (·.span.traceId == id) ↔
        s ∈ Correlation.spans e.records ∧ IsRootOf id s := by
      intro id s
      rw [List.mem_filter, roots, List.mem_filter, beq_iff_eq, IsRootOf, and_assoc,
        and_comm (a := s.span.isRoot = true)]
    refine .first _ ?_ fun s hs => ?_
    · have hsome : sharedIds e.roots e.exceptions ≠ [] := by simpa using hids
      rcases List.exists_mem_of_ne_nil _ hsome with ⟨id, hid⟩
      rcases (mem_sharedIds.1 hid).1 with ⟨i, -, hi, -, -, hroot, -⟩
      have hs := hmem.2 ⟨List.getElem_mem hi, hroot⟩
      exact List.ne_nil_of_mem (List.mem_flatMap.2 ⟨id, hid, hs⟩)
    · rcases List.mem_flatMap.1 hs with ⟨id, hid, hs⟩
      rcases hmem.1 hs with ⟨hspan, hroot⟩
      rcases mem_sharedIds.1 hid with ⟨hshared, hexcepted⟩
      exact .shared hspan hroot hshared hexcepted

/-- The payload complained about lacks a header. -/
theorem traceHeaders_grounded :
    e.traceHeaders.Grounded .assertion (e.Shows .traceHeaders) False := by
  simp only [traceHeaders]
  split
  · exact .missing _
  · split
    · exact .passed
    · rename_i r hfound
      have hlacks := List.find?_some hfound
      rcases List.mem_filter.1 (List.mem_of_find?_eq_some hfound) with ⟨hr, hpayload⟩
      have hsome : lackedHeaders (tracerHeaders e.scenario) r ≠ [] := by simpa using hlacks
      rcases List.exists_mem_of_ne_nil _ hsome with ⟨name, hname⟩
      rcases List.mem_filter.1 hname with ⟨hrequired, hnone⟩
      refine .refuted _ (iff_false_intro (List.cons_ne_nil _ _)) (by simp) fun item hitem => ?_
      rw [List.mem_singleton.1 hitem]
      exact .headers hr hpayload hrequired (by simpa using hnone)

theorem successfulResponses_grounded (path : String) :
    (e.successfulResponses path).Grounded .assertion
      (e.Shows (.successfulResponses path)) False := by
  simp only [successfulResponses]
  split
  · exact .missing _
  · split
    · exact .passed
    · rename_i first rest hbad
      refine .first _ (hbad ▸ List.cons_ne_nil first rest) fun r hr => ?_
      rcases List.mem_filter.1 hr with ⟨hresponse, hnot⟩
      rcases List.mem_filter.1 hresponse with ⟨hrecord, hpath⟩
      simp only [Bool.and_eq_true, Bool.not_eq_true', beq_iff_eq] at hpath hnot
      rw [← hpath.2]
      exact .response hrecord hpath.1 hnot

theorem gaplessTelemetry_grounded :
    e.gaplessTelemetry.Grounded .assertion (e.Shows .gaplessTelemetry) False := by
  simp only [gaplessTelemetry]
  split
  · exact .missing _
  · split
    · exact .passed
    · rename_i hgaps
      have hlists := lists_telemetryGaps e.records
      refine .first _ (by simpa using hgaps) fun gap hgap => ?_
      rcases gap with ⟨runtime, after, next⟩
      exact .gap ((hlists.mem runtime after next).1 hgap)

/-- Of the first ten violations those are shown that can be written. -/
theorem conformance_grounded (allowed : List String) :
    (conformance (SchemaReport.check e.records allowed).violations).Grounded .schemaViolation
      (e.Shows (.schemas allowed)) (e.Hides (.schemas allowed)) := by
  let items := (e.firstViolations allowed).filterMap fun v => v.toJson?.map Json.sorted
  have hhidden : items = [] ↔ e.Hides (.schemas allowed) := by
    rw [List.filterMap_eq_nil_iff, Hides]
    refine forall₂_congr fun v hv => ?_
    rw [Option.map_eq_none_iff, Violation.toJson?, ite_eq_right_iff, Violation.isWritable_iff]
    simp
  have hfew : items.length ≤ 10 :=
    (List.length_filterMap_le _ _).trans (by simp [firstViolations, maxObserved])
  have hshown : ∀ item ∈ items, e.Shows (.schemas allowed) item := by
    intro item hitem
    rcases List.mem_filterMap.1 hitem with ⟨v, hv, hwritten⟩
    rcases Option.map_eq_some_iff.1 hwritten with ⟨written, hsome, rfl⟩
    rw [Violation.toJson?, Option.ite_none_right_eq_some] at hsome
    rcases hsome with ⟨hwritable, hjson⟩
    rw [← Option.some.inj hjson]
    exact .violation hv (Violation.isWritable_iff.1 hwritable)
  cases hviolations : (SchemaReport.check e.records allowed).violations with
  | nil => exact .passed
  | cons first rest =>
    have hitems : items = ((first :: rest).take maxObserved).filterMap
        fun v => v.toJson?.map Json.sorted := by
      rw [← hviolations]
      rfl
    rw [hitems] at hhidden hfew hshown
    exact .refuted _ hhidden hfew hshown

theorem evaluate_grounded (a : Assertion) :
    (a.evaluate e).1.Grounded a.failureKind (e.Shows a) (e.Hides a) := by
  cases a with
  | spanCount call expected mode fullTrace =>
    exact e.spanCount_grounded call expected mode fullTrace
  | spanCheck call description check => exact e.spanCheck_grounded call description check
  | rootSpan call => exact e.rootSpan_grounded call
  | uniqueTraceIds => exact e.uniqueTraceIds_grounded
  | traceHeaders => exact e.traceHeaders_grounded
  | successfulResponses path => exact e.successfulResponses_grounded path
  | gaplessTelemetry => exact e.gaplessTelemetry_grounded
  | schemas allowed => exact e.conformance_grounded allowed

end Evidence

/-! ## Verdicts -/

/-- The failure of an assertion shows what was seen, and its kind says what that is. -/
structure Failure.RestsOn (f : Failure) (e : Evidence) (a : Assertion) : Prop where
  evaluated : f.kind ≠ .notEvaluated
  schemas : f.kind = .schemaViolation → ∃ allowed, a = .schemas allowed
  few : f.observed.length ≤ 10
  none : f.kind = .noMatchingData → f.observed = []
  some : f.kind = .assertion → f.observed ≠ []
  /-- Violations are shown unless all the first ones are from log files whose paths are no texts. -/
  violations : f.kind = .schemaViolation → (f.observed = [] ↔ e.Hides a)
  shown : ∀ item ∈ f.observed, e.Shows a item

namespace Outcome.Grounded

variable {kind : FailureKind} {shown : Json → Prop} {hidden : Prop} {o : Outcome}

/-- The call is told by the validator, not by the outcome. -/
theorem requestId (h : o.Grounded kind shown hidden) {f : Failure} (hf : o = .failed f) :
    f.requestId = none := by
  cases h <;> cases hf <;> rfl

theorem restsOn {e : Evidence} {a : Assertion}
    (h : o.Grounded a.failureKind (e.Shows a) (e.Hides a)) {id : Option String} {f : Failure}
    (hf : o.about id = .failed f) : f.RestsOn e a := by
  cases h with
  | passed => cases hf
  | missing message =>
    cases hf
    exact ⟨nofun, nofun, Nat.zero_le _, fun _ => rfl, nofun, nofun, nofun⟩
  | refuted message hhidden hfew hshown =>
    cases hf
    have hkind : a.failureKind ≠ .notEvaluated ∧
        a.failureKind ≠ .noMatchingData ∧
        (a.failureKind = .schemaViolation → ∃ allowed, a = .schemas allowed) ∧
        (a.failureKind = .assertion → ¬e.Hides a) := by
      cases a with
      | schemas allowed => exact ⟨nofun, nofun, fun _ => ⟨allowed, rfl⟩, nofun⟩
      | _ => exact ⟨nofun, nofun, nofun, fun _ hhides => hhides⟩
    rcases hkind with ⟨hevaluated, hfound, hschemas, hvisible⟩
    exact ⟨hevaluated, hschemas, hfew, fun h => absurd h hfound,
      fun h hnil => hvisible h (hhidden.1 hnil), fun _ => hhidden, hshown⟩

end Outcome.Grounded

theorem Validator.belongsTo_verdict (v : Validator) {outcome : Outcome}
    (h : ∀ f, outcome = .failed f → f.requestId = none) (tolerated : List Violation) :
    (v.verdict outcome tolerated).BelongsTo v := by
  refine ⟨rfl, fun f hf id => ?_⟩
  cases outcome with
  | passed => cases hf
  | failed found =>
    have hid : f.requestId = v.assertion.requestId? := by
      cases hf
      change (found.requestId <|> v.assertion.requestId?) = v.assertion.requestId?
      rw [h found rfl]
      rfl
    rw [hid, Assertion.requestId?_eq_some]

/-- A request that violates its schema, from a log file whose name is an octet that starts no
text. -/
def fromUnnamedLog : Record :=
  { Record.made .library "/v0.4/traces" (Payload.ofJson (.obj [])) default with
    logFile := some (.raw (Utf8.ofString "run/interfaces/library/" ++ [0xFF]) (by decide +kernel)) }

def conformityCheck : Validator :=
  { id := 0
    testId := "t"
    interface := .library
    assertion := .schemas [] }

end TraceAudit
