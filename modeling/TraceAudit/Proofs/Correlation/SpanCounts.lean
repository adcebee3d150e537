import TraceAudit.Proofs.Correlation.Attribution
import TraceAudit.Proofs.Correlation.Batching
import TraceAudit.Proofs.Session.Visible

/-!
# Counting the spans of a call

The number of spans of a call is told from the payloads that the records carry, without regard to
how the records are numbered.

* `bare_spans_unnumbered` says that the spans that records send do not hang on the numbers of the
  records;
* `carrying` and `family` are the spans of a call and of its traces, `bare_spansOf_counted` finds
  them;
* `Validator.judged_spanCount` says how an expected number of spans is judged.
-/

namespace TraceAudit
namespace Correlation

/-! ## The spans of payloads -/

theorem bare_spansIn_unnumbered (record : Record) :
    bare (spansIn record.unnumbered) = bare (spansIn record) := by
  by_cases hsilent : Silent record
  · have hsilent' : Silent record.unnumbered := fun format payload hbears =>
      hsilent format payload ⟨hbears.isRequest, hbears.endpoint, hbears.json⟩
    rw [spansIn_of_silent hsilent, spansIn_of_silent hsilent']
  · simp only [Silent, not_forall, not_exists] at hsilent
    rcases hsilent with ⟨format, payload, hbears, hok⟩
    have hbears' : Bears format record.unnumbered payload :=
      ⟨hbears.isRequest, hbears.endpoint, hbears.json⟩
    cases hfound : decodeSpans format payload with
    | error e => exact absurd hfound (hok e)
    | ok found => rw [bare_spansIn hbears hfound, bare_spansIn hbears' hfound]

/-- Numbering records anew does not change the spans that they send. -/
theorem bare_spans_unnumbered {records records' : List Record}
    (h : records.map Record.unnumbered = records'.map Record.unnumbered) :
    bare (spans records) = bare (spans records') := by
  have hnumbers : ∀ records : List Record,
      bare (spans (records.map Record.unnumbered)) = bare (spans records) := by
    intro records
    induction records with
    | nil => rfl
    | cons record rest ih =>
      rw [List.map_cons, bare_spans_cons, bare_spans_cons, bare_spansIn_unnumbered, ih]
  rw [← hnumbers records, h, hnumbers]

/-! ## The spans of a call -/

/-- The spans that carry a request id. -/
def carrying (id : String) (sent : List Span) : List Span :=
  sent.filter (·.requestId? = some id)

/-- The spans of all traces in which some span carries a request id. -/
def family (id : String) (sent : List Span) : List Span :=
  sent.filter fun s => s.traceId ∈ (carrying id sent).map (·.traceId)

/-- The spans that are counted for a request id, with those of whole traces or without. -/
def counted (id : String) (sent : List Span) (fullTrace : Bool) : List Span :=
  if fullTrace then family id sent else carrying id sent

theorem carrying_sublist_family (id : String) (sent : List Span) :
    (carrying id sent).Sublist (family id sent) := by
  have hkept :
      (carrying id sent).filter (fun s => s.traceId ∈ (carrying id sent).map (·.traceId)) =
        carrying id sent :=
    List.filter_eq_self.2 fun s hs => decide_eq_true (List.mem_map_of_mem hs)
  calc
    carrying id sent = (carrying id sent).filter _ := hkept.symm
    List.Sublist _ _ := List.filter_sublist.filter _

theorem family_eq_nil_iff {id : String} {sent : List Span} :
    family id sent = [] ↔ carrying id sent = [] := by
  constructor
  · intro h
    exact List.eq_nil_of_sublist_nil (h ▸ carrying_sublist_family id sent)
  · intro h
    simp [family, h]

theorem bare_spansOf_counted (records : List Record) (call : TestCall) (fullTrace : Bool) :
    bare (spansOf records call ⟨fullTrace, false⟩) =
      counted call.id (bare (spans records)) fullTrace := by
  have hfilter : ∀ q : Span → Bool,
      bare ((spans records).filter fun s => q s.span) = (bare (spans records)).filter q :=
    fun _ => List.filter_map.symm
  have hplain : bare (spansOf records call ⟨false, false⟩) =
      carrying call.id (bare (spans records)) := by
    have hcarries : carries call = fun s => decide (s.span.requestId? = some call.id) := by
      funext s
      rw [Bool.eq_iff_iff, carries_iff, decide_eq_true_iff]
    rw [spansOf_plain, attributed, if_neg (by simp), hcarries]
    exact hfilter fun s => decide (s.requestId? = some call.id)
  cases fullTrace with
  | false => exact hplain
  | true =>
    have htraces : traceIds (spansOf records call ⟨false, false⟩) =
        (carrying call.id (bare (spans records))).map (·.traceId) := by
      rw [← hplain, traceIds, bare, List.map_map]
      rfl
    rw [spansOf_fullTrace, htraces]
    refine (hfilter fun s => List.contains _ s.traceId).trans (List.filter_congr fun s _ => ?_)
    exact List.contains_eq_mem _ _

end Correlation

/-! ## Judging the number -/

/-- The failure tells the number of spans that were found, and one to ten of them. -/
structure TellsCount (found : List Span) (call : TestCall) (expected : Nat) (mode : CountMode)
    (f : Failure) : Prop where
  kind : f.kind = .assertion
  message : f.message =
    s!"expected {mode.words} {expected} span(s) for request {call.id}, found {found.length}"
  some : 1 ≤ f.observed.length
  few : f.observed.length ≤ 10
  /-- The spans that are shown are the first ones. -/
  observed : f.observed = (found.take 10).map (·.raw)

/-- How an expected number of spans of a call is judged, where these spans were sent. -/
structure JudgedCount (sent : List Span) (call : TestCall) (expected : Nat) (mode : CountMode)
    (fullTrace : Bool) (o : Outcome) : Prop where
  exact : mode = .exactly →
    (o = .passed ↔ expected = (Correlation.counted call.id sent fullTrace).length)
  atLeast : mode = .atLeast →
    (o = .passed ↔ expected ≤ (Correlation.counted call.id sent fullTrace).length)
  about : ∀ f, o = .failed f → f.requestId = some call.id
  missing : ∀ f, o = .failed f →
    (f.kind = .noMatchingData ∧ f.observed = [] ↔ Correlation.carrying call.id sent = [])
  told : ∀ f, o = .failed f → Correlation.carrying call.id sent ≠ [] →
    TellsCount (Correlation.counted call.id sent fullTrace) call expected mode f

theorem Evidence.countHolds_exactly {found expected : Nat} :
    countHolds .exactly found expected = true ↔ expected = found :=
  beq_iff_eq.trans eq_comm

theorem Evidence.countHolds_atLeast {found expected : Nat} :
    countHolds .atLeast found expected = true ↔ expected ≤ found :=
  decide_eq_true_iff

namespace JudgedCount

variable {sent : List Span} {call : TestCall} {expected : Nat} {mode : CountMode}
  {fullTrace : Bool}

theorem of_passed
    (h : Evidence.countHolds mode (Correlation.counted call.id sent fullTrace).length expected =
      true) :
    JudgedCount sent call expected mode fullTrace .passed where
  exact := by
    rintro rfl
    simp [Evidence.countHolds_exactly.1 h]
  atLeast := by
    rintro rfl
    simp [Evidence.countHolds_atLeast.1 h]
  about f hf := by cases hf
  missing f hf := by cases hf
  told f hf := by cases hf

theorem of_failed {f : Failure}
    (h : ¬Evidence.countHolds mode (Correlation.counted call.id sent fullTrace).length expected =
      true)
    (habout : f.requestId = some call.id)
    (hmissing : f.kind = .noMatchingData ∧ f.observed = [] ↔
      Correlation.carrying call.id sent = [])
    (htold : Correlation.carrying call.id sent ≠ [] →
      TellsCount (Correlation.counted call.id sent fullTrace) call expected mode f) :
    JudgedCount sent call expected mode fullTrace (.failed f) where
  exact := by
    rintro rfl
    rw [Evidence.countHolds_exactly] at h
    simp [h]
  atLeast := by
    rintro rfl
    rw [Evidence.countHolds_atLeast] at h
    simpa using h
  about g hg := by
    cases hg
    exact habout
  missing g hg := by
    cases hg
    exact hmissing
  told g hg := by
    cases hg
    exact htold

end JudgedCount

/-- Whatever was sent: an expected number of spans of a call is judged by the number of those that
were sent. -/
theorem Validator.judged_spanCount {v : Validator} {call : TestCall} {expected : Nat}
    {mode : CountMode} {fullTrace : Bool}
    (hassertion : v.assertion = .spanCount call expected mode fullTrace) {e : Evidence}
    (htiming : e.timingFallback = false) :
    JudgedCount (Correlation.bare (Correlation.spans e.records)) call expected mode fullTrace
      (v.evaluate e).outcome := by
  let sent := Correlation.bare (Correlation.spans e.records)
  let counted := Correlation.counted call.id sent fullTrace
  have houtcome : (v.evaluate e).outcome =
      (e.spanCount call expected mode fullTrace).about (some call.id) := by
    simp only [Validator.evaluate, Validator.verdict, hassertion, Assertion.evaluate,
      Assertion.requestId?]
  have hbare : Correlation.bare (e.spansOf call fullTrace) = counted := by
    rw [Evidence.spansOf, htiming]
    exact Correlation.bare_spansOf_counted e.records call fullTrace
  have hlength : (e.spansOf call fullTrace).length = counted.length := by
    rw [← hbare]
    exact (List.length_map _).symm
  have hempty : counted = [] ↔ Correlation.carrying call.id sent = [] := by
    cases fullTrace with
    | false => exact Iff.rfl
    | true => exact Correlation.family_eq_nil_iff
  have hobserved : Evidence.observedSpans (e.spansOf call fullTrace) =
      (counted.take 10).map (·.raw) := by
    rw [← hbare, Correlation.bare, ← List.map_take, List.map_map]
    rfl
  have hisEmpty : (e.spansOf call fullTrace).isEmpty = true ↔ counted = [] := by
    rw [List.isEmpty_iff, ← List.length_eq_zero_iff, hlength, List.length_eq_zero_iff]
  rw [houtcome, Evidence.spanCount.eq_def]
  simp only [hlength, hobserved]
  by_cases hlacks : counted = [] ∧ 0 < expected
  · -- Something is expected, and nothing was sent.
    have hnot : ¬Evidence.countHolds mode counted.length expected = true := by
      rw [hlacks.1, List.length_nil]
      cases mode with
      | exactly => exact fun h => absurd (Evidence.countHolds_exactly.1 h) hlacks.2.ne'
      | atLeast => exact fun h => absurd (Evidence.countHolds_atLeast.1 h) (Nat.not_le.2 hlacks.2)
    have hcarrying := hempty.1 hlacks.1
    rw [if_pos (by simpa [hisEmpty] using hlacks)]
    exact .of_failed hnot rfl (iff_of_true ⟨rfl, rfl⟩ hcarrying) fun hsome =>
      absurd hcarrying hsome
  · rw [if_neg (by simpa [hisEmpty] using hlacks)]
    split
    · rename_i hholds
      exact .of_passed hholds
    · rename_i hnot
      -- Where nothing is expected, nothing is missed.
      have hsome : counted ≠ [] := by
        intro hnil
        have hzero : expected = 0 := by
          by_contra hne
          exact hlacks ⟨hnil, Nat.pos_of_ne_zero hne⟩
        rw [hnil, hzero] at hnot
        cases mode <;> exact hnot rfl
      have hkind : FailureKind.assertion ≠ .noMatchingData := by decide
      refine .of_failed hnot rfl (iff_of_false (fun h => hkind h.1) fun h => hsome (hempty.2 h))
        fun _ => ⟨rfl, rfl, ?_, ?_, rfl⟩
      · simpa [Nat.one_le_iff_ne_zero] using hsome
      · simp

end TraceAudit
