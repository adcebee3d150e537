import TraceAudit.Proofs.Correlation.Batching
import TraceAudit.Proofs.Text.Distinct

/-!
# Trace ids that several traces share

The root spans of an interface come from payloads of three formats, which write ids in several
notations. Whether two traces have the same id is a question about the numbers behind the notations.

* `Denotes` says which number a written id stands for, `Normalised` that a span was read so;
* `Shared` says that an id is found at two root spans, `mem_sharedIds` that those ids are listed;
* `JudgedUnique` is the verdict of the validator in these terms, `unique_trace_ids` gives it for all
  records and exceptions.
-/

namespace TraceAudit

/-! ## Ids of spans -/

/-- The value writes an integer, as a number or as a text, that has 64 bits with or without a sign.
It stands for the number below `2 ^ 64` with the same bits. -/
def Denotes (v : Json) (id : Nat) : Prop :=
  ∃ i, v.integer? = some i ∧ -(Word.half64 : Int) ≤ i ∧ i < Word.count64 ∧
    (id : Int) = i % Word.count64

/-- Where a format keeps the trace id and the parent id of a span. -/
inductive KeepsIds : TraceFormat → Json → Json → Option Json → Prop
  | v04 {obj traceId : Json} : obj.get? "trace_id" = some traceId →
      KeepsIds .libraryV04 obj traceId (obj.get? "parent_id")
  | v05 {service name resource traceId spanId parentId start duration error tags metrics kind :
      Json} :
      KeepsIds .libraryV05
        (.arr [service, name, resource, traceId, spanId, parentId, start, duration, error, tags,
          metrics, kind])
        traceId (some parentId)
  | agentV02 {obj traceId : Json} : obj.get? "traceID" = some traceId →
      KeepsIds .agentV02 obj traceId (obj.get? "parentID")

/-- The trace id of the span is what the span denotes as it was sent, and it is a root when it was
sent without a parent other than zero. -/
def Normalised (format : TraceFormat) (s : Span) : Prop :=
  ∃ traceId parentId, KeepsIds format s.raw traceId parentId ∧ Denotes traceId s.traceId ∧
    (s.isRoot = true ↔ ∀ v ∈ parentId, ∀ id, Denotes v id → id = 0)

theorem spanId?_eq_some_iff_denotes {v : Json} {id : Nat} :
    v.spanId? = some id ↔ Denotes v id := by
  have hid : ∀ i : Int, unsignedId i = id ↔ (id : Int) = i % Word.count64 := by
    intro i
    have hcount : (Word.count64 : Int) ≠ 0 := by decide
    have hnonneg : 0 ≤ i % Word.count64 := Int.emod_nonneg i hcount
    rw [unsignedId]
    omega
  simp only [Json.spanId?_eq_some, Denotes, hid]

theorem isRoot_iff {s : Span} {parentId : Option Json}
    (h : s.parentId = parentOf (parentId.bind Json.spanId?)) :
    s.isRoot = true ↔ ∀ v ∈ parentId, ∀ id, Denotes v id → id = 0 := by
  simp only [← spanId?_eq_some_iff_denotes]
  rw [Span.isRoot, h, parentOf]
  cases parentId with
  | none => simp
  | some v => cases hid : v.spanId? <;> simp [hid]

/-- What an object is decoded to. -/
theorem decodeObject_eq_ok {keys : IdKeys} {index : Nat} {obj : Json} {span : Span}
    (h : decodeObject keys index obj = .ok span) :
    span.raw = obj ∧ (∃ v, obj.get? keys.traceId = some v ∧ Denotes v span.traceId) ∧
      span.parentId = parentOf ((obj.get? keys.parentId).bind Json.spanId?) := by
  unfold decodeObject at h
  cases hobject : obj.isObject with
  | false => simp [hobject, bind, Except.bind] at h
  | true =>
    simp only [hobject, not_true_eq_false, if_false] at h
    rcases bind_eq_ok.1 h with ⟨traceId, htrace, h⟩
    rcases bind_eq_ok.1 h with ⟨spanId, hspan, h⟩
    cases h
    rcases Option.bind_eq_some_iff.1 (requiredId_eq_ok.1 htrace) with ⟨v, hv, hid⟩
    exact ⟨rfl, ⟨v, hv, spanId?_eq_some_iff_denotes.1 hid⟩, rfl⟩

theorem decodeRow_normalised {table : List String} {index : Nat} {row : Json} {span : Span}
    (h : decodeRow table index row = .ok span) : Normalised .libraryV05 span := by
  unfold decodeRow at h
  split at h
  · rcases bind_eq_ok.1 h with ⟨tags, -, h⟩
    rcases bind_eq_ok.1 h with ⟨metrics, -, h⟩
    rcases bind_eq_ok.1 h with ⟨kind, -, h⟩
    rcases bind_eq_ok.1 h with ⟨service, -, h⟩
    rcases bind_eq_ok.1 h with ⟨name, -, h⟩
    rcases bind_eq_ok.1 h with ⟨resource, -, h⟩
    rcases bind_eq_ok.1 h with ⟨traceId, htrace, h⟩
    rcases bind_eq_ok.1 h with ⟨spanId, -, h⟩
    cases h
    exact ⟨_, _, .v05, spanId?_eq_some_iff_denotes.1 (rowId_eq_ok.1 htrace), isRoot_iff rfl⟩
  · cases h

section Each

variable {decodeOne : Nat → Json → Except DecodeError Span} {P : Span → Prop}
  (hone : ∀ index v span, decodeOne index v = .ok span → P span)

include hone

theorem forall_of_decodeEach {index : Nat} {items : List Json} {spans : List Span}
    (h : decodeEach decodeOne index items = .ok spans) : ∀ span ∈ spans, P span := by
  induction items generalizing index spans with
  | nil =>
    cases h
    exact fun _ hspan => nomatch hspan
  | cons item rest ih =>
    rcases bind_eq_ok.1 h with ⟨span, hspan, h⟩
    rcases bind_eq_ok.1 h with ⟨more, hmore, h⟩
    cases h
    exact List.forall_mem_cons.2 ⟨hone index item span hspan, ih hmore⟩

theorem forall_of_decodeTraces {index : Nat} {traces : List Json} {spans : List Span}
    (h : decodeTraces decodeOne index traces = .ok spans) : ∀ span ∈ spans, P span := by
  induction traces generalizing index spans with
  | nil =>
    cases h
    exact fun _ hspan => nomatch hspan
  | cons trace rest ih =>
    cases trace with
    | arr items =>
      rcases bind_eq_ok.1 h with ⟨found, hfound, h⟩
      rcases bind_eq_ok.1 h with ⟨more, hmore, h⟩
      cases h
      exact List.forall_mem_append.2 ⟨forall_of_decodeEach hone hfound, ih hmore⟩
    | _ => cases h

end Each

/-- All formats are read with normalised ids. -/
theorem decodeSpans_normalised {format : TraceFormat} {payload : Json} {spans : List Span}
    (h : decodeSpans format payload = .ok spans) : ∀ span ∈ spans, Normalised format span := by
  cases format with
  | libraryV04 =>
    cases payload with
    | arr traces =>
      refine forall_of_decodeTraces (fun index obj span hspan => ?_) h
      rcases decodeObject_eq_ok hspan with ⟨rfl, ⟨v, hv, hid⟩, hparent⟩
      exact ⟨v, _, .v04 hv, hid, isRoot_iff hparent⟩
    | _ => cases h
  | libraryV05 =>
    simp only [decodeSpans, decodeV05] at h
    split at h
    · rename_i strings traces
      cases strings with
      | arr entries =>
        cases traces with
        | arr traces =>
          exact forall_of_decodeTraces (fun index row span => decodeRow_normalised) h
        | _ => cases h
      | _ => cases h
    · cases h
    · cases h
  | agentV02 =>
    simp only [decodeSpans, decodeAgentV02] at h
    split at h
    · cases h
      exact fun _ hspan => nomatch hspan
    · cases h
      exact fun _ hspan => nomatch hspan
    · refine forall_of_decodeEach (fun index obj span hspan => ?_) h
      rcases decodeObject_eq_ok hspan with ⟨rfl, ⟨v, hv, hid⟩, hparent⟩
      exact ⟨v, _, .agentV02 hv, hid, isRoot_iff hparent⟩
    · cases h

theorem Correlation.normalised_of_mem_spans {records : List Record} {s : LocatedSpan}
    (h : s ∈ spans records) :
    ∃ r ∈ records, ∃ format, TraceFormat.ofEndpoint? r.path = some format ∧
      Normalised format s.span := by
  rcases List.mem_flatMap.1 h with ⟨r, hr, hs⟩
  unfold spansIn at hs
  split at hs
  · split at hs
    · rename_i format payload hformat hpayload
      split at hs
      · rename_i found hfound
        rcases List.mem_map.1 hs with ⟨span, hspan, rfl⟩
        exact ⟨r, hr, format, hformat, decodeSpans_normalised hfound span hspan⟩
      · cases hs
    · cases hs
  · cases hs

/-! ## Shared ids -/

/-- The span is the root of a trace with this id. -/
def IsRootOf (id : Nat) (s : LocatedSpan) : Prop := s.span.traceId = id ∧ s.span.isRoot = true

/-- Roots at two positions have this id. -/
def Shared (spans : List LocatedSpan) (id : Nat) : Prop :=
  ∃ (i j : Nat) (hi : i < spans.length) (hj : j < spans.length),
    i < j ∧ IsRootOf id spans[i] ∧ IsRootOf id spans[j]

theorem Shared.append_right {spans : List LocatedSpan} {id : Nat} (h : Shared spans id)
    (more : List LocatedSpan) : Shared (spans ++ more) id := by
  rcases h with ⟨i, j, hi, hj, hij, hfirst, hsecond⟩
  have hle : spans.length ≤ (spans ++ more).length := by simp
  refine ⟨i, j, hi.trans_le hle, hj.trans_le hle, hij, ?_, ?_⟩
  · rwa [List.getElem_append_left hi]
  · rwa [List.getElem_append_left hj]

/-- Something is counted more than once if it is found at two positions. -/
theorem one_lt_countP_iff {α : Type} {p : α → Bool} {items : List α} :
    1 < items.countP p ↔ ∃ (i j : Nat) (hi : i < items.length) (hj : j < items.length),
      i < j ∧ p items[i] = true ∧ p items[j] = true := by
  -- The induction is about pairs of items, since positions shift from a list to its tail.
  have hpairwise : items.Pairwise (fun a b => ¬(p a = true ∧ p b = true)) ↔
      items.countP p ≤ 1 := by
    induction items with
    | nil => simp
    | cons a rest ih =>
      rw [List.pairwise_cons, ih, List.countP_cons]
      cases ha : p a with
      | false => simp
      | true =>
        have hnone : (∀ b ∈ rest, ¬(true = true ∧ p b = true)) ↔ rest.countP p = 0 := by
          rw [List.countP_eq_zero]
          simp
        rw [hnone, if_pos rfl]
        omega
  rw [← not_le, ← hpairwise, List.pairwise_iff_getElem]
  simp only [not_forall, not_not, exists_prop]

namespace Evidence

variable {e : Evidence} {id : Nat}

/-- The roots are counted, while positions are those among all spans. -/
theorem shared_iff_count :
    Shared (Correlation.spans e.records) id ↔ 1 < (e.roots.map (·.span.traceId)).count id := by
  have hcount : (e.roots.map (·.span.traceId)).count id =
      (Correlation.spans e.records).countP fun s => s.span.traceId == id && s.span.isRoot := by
    rw [List.count_eq_countP, List.countP_map, roots, List.countP_filter]
    rfl
  rw [hcount, one_lt_countP_iff, Shared]
  simp only [IsRootOf, Bool.and_eq_true, beq_iff_eq]

theorem mem_sharedIds :
    id ∈ sharedIds e.roots e.exceptions ↔
      Shared (Correlation.spans e.records) id ∧ id ∉ e.exceptions := by
  rw [sharedIds, mem_eraseReps_mergeSort, shared_iff_count, List.mem_filter]
  have hmem : 1 < (e.roots.map (·.span.traceId)).count id → id ∈ e.roots.map (·.span.traceId) :=
    fun hcount => List.count_pos_iff.1 (Nat.lt_of_succ_lt hcount)
  simp only [Bool.and_eq_true, decide_eq_true_eq, Bool.not_eq_true', List.contains_eq_mem,
    decide_eq_false_iff_not]
  exact ⟨fun h => h.2, fun h => ⟨hmem h.1, h⟩⟩

theorem pairwise_sharedIds (roots : List LocatedSpan) (exceptions : List Nat) :
    (sharedIds roots exceptions).Pairwise (· < ·) :=
  pairwise_eraseReps_mergeSort _

end Evidence

/-! ## Verdicts -/

/-- The failure tells all shared ids that are not excepted, and at most ten roots with one of
them. -/
structure TellsShared (spans : List LocatedSpan) (exceptions ids : List Nat) (f : Failure) :
    Prop where
  ascending : ids.Pairwise (· < ·)
  mem : ∀ id, id ∈ ids ↔ Shared spans id ∧ id ∉ exceptions
  kind : f.kind = .assertion
  message : f.message =
    "trace id(s) shared by several traces: " ++ Text.join ", " (ids.map toString)
  requestId : f.requestId = none
  few : f.observed.length ≤ 10
  roots : ∀ v ∈ f.observed, ∃ s ∈ spans, (∃ id ∈ ids, IsRootOf id s) ∧ s.span.raw = v

/-- How spans are judged by the trace ids of their roots. -/
structure JudgedUnique (spans : List LocatedSpan) (exceptions : List Nat) (o : Outcome) :
    Prop where
  passed : o = .passed ↔ ∀ id, Shared spans id → id ∈ exceptions
  failed : o ≠ .passed → ∃ ids f, o = .failed f ∧ TellsShared spans exceptions ids f

namespace Evidence

theorem sharedIds_eq_nil_iff (e : Evidence) :
    sharedIds e.roots e.exceptions = [] ↔
      ∀ id, Shared (Correlation.spans e.records) id → id ∈ e.exceptions := by
  rw [List.eq_nil_iff_forall_not_mem]
  simp only [mem_sharedIds, not_and, not_not]

/-- What is told are the values of roots. -/
theorem mem_observedSpans {spans : List LocatedSpan} {v : Json} (h : v ∈ observedSpans spans) :
    ∃ s ∈ spans, s.span.raw = v := by
  rcases List.mem_map.1 h with ⟨s, hs, heq⟩
  exact ⟨s, List.mem_of_mem_take hs, heq⟩

theorem length_observedSpans_le (spans : List LocatedSpan) : (observedSpans spans).length ≤ 10 := by
  simp [observedSpans, maxObserved]

theorem uniqueTraceIds_failed {e : Evidence} (h : sharedIds e.roots e.exceptions ≠ []) :
    ∃ f, e.uniqueTraceIds = .failed f ∧
      TellsShared (Correlation.spans e.records) e.exceptions (sharedIds e.roots e.exceptions)
        f := by
  have hsome : ¬(sharedIds e.roots e.exceptions).isEmpty = true := by simpa using h
  rw [uniqueTraceIds.eq_def]
  simp only [if_neg hsome]
  refine ⟨_, rfl, pairwise_sharedIds _ _, fun id => mem_sharedIds, rfl, rfl, rfl,
    length_observedSpans_le _, fun v hv => ?_⟩
  rcases mem_observedSpans hv with ⟨s, hs, hraw⟩
  rcases List.mem_flatMap.1 hs with ⟨id, hid, hs⟩
  rcases List.mem_filter.1 hs with ⟨hroot, heq⟩
  rcases List.mem_filter.1 hroot with ⟨hspan, hisRoot⟩
  exact ⟨s, hspan, ⟨id, hid, by simpa using heq, hisRoot⟩, hraw⟩

theorem uniqueTraceIds_judged (e : Evidence) :
    JudgedUnique (Correlation.spans e.records) e.exceptions e.uniqueTraceIds := by
  have hempty := e.sharedIds_eq_nil_iff
  by_cases hids : sharedIds e.roots e.exceptions = []
  · have hpassed : e.uniqueTraceIds = .passed := by simp [uniqueTraceIds, hids]
    exact ⟨⟨fun _ => hempty.1 hids, fun _ => hpassed⟩, fun hnot => absurd hpassed hnot⟩
  · rcases uniqueTraceIds_failed hids with ⟨f, houtcome, htells⟩
    have hnot : e.uniqueTraceIds ≠ .passed := by
      rw [houtcome]
      rintro ⟨⟩
    exact ⟨⟨fun hpassed => absurd hpassed hnot, fun hall => absurd (hempty.2 hall) hids⟩,
      fun _ => ⟨_, f, houtcome, htells⟩⟩

end Evidence

/-- Traces are told apart by the numbers that their ids denote, over all spans that the records send
in any format. More exceptions do not turn a pass into a failure, and more records no failure into a
pass. -/
theorem unique_trace_ids (v : Validator) (h : v.assertion = .uniqueTraceIds) (e : Evidence) :
    (∀ sent, Correlation.Sends e.records sent ↔
        sent = Correlation.bare (Correlation.spans e.records)) ∧
      (∀ s ∈ Correlation.spans e.records, ∃ r ∈ e.records, ∃ format,
        TraceFormat.ofEndpoint? r.path = some format ∧ Normalised format s.span) ∧
      JudgedUnique (Correlation.spans e.records) e.exceptions (v.evaluate e).outcome ∧
      (∀ exceptions, (∀ id ∈ e.exceptions, id ∈ exceptions) →
        (v.evaluate e).outcome = .passed →
        (v.evaluate { e with exceptions }).outcome = .passed) ∧
      ∀ more, (v.evaluate { e with records := e.records ++ more }).outcome = .passed →
        (v.evaluate e).outcome = .passed := by
  have houtcome : ∀ e : Evidence, (v.evaluate e).outcome = e.uniqueTraceIds := by
    intro e
    have hnone : v.assertion.requestId? = none := by simp [h, Assertion.requestId?]
    rw [Validator.outcome_evaluate hnone, h, Assertion.evaluate]
  simp only [houtcome]
  refine ⟨fun sent => Correlation.sends_iff, fun s => Correlation.normalised_of_mem_spans,
    e.uniqueTraceIds_judged, ?_, ?_⟩
  · intro exceptions hmore hpassed
    have hexcepted := e.uniqueTraceIds_judged.passed.1 hpassed
    have hjudged := { e with exceptions }.uniqueTraceIds_judged
    exact hjudged.passed.2 fun id hshared => hmore id (hexcepted id hshared)
  · intro more hpassed
    have hexcepted := { e with records := e.records ++ more }.uniqueTraceIds_judged.passed.1 hpassed
    -- Two positions stay where they are when spans are added behind them.
    refine e.uniqueTraceIds_judged.passed.2 fun id hshared => hexcepted id ?_
    simp only [Correlation.spans, List.flatMap_append]
    exact hshared.append_right _

/-- A library sends a root span whose trace id is a negative number, and the agent one whose trace
id is a text. -/
def bothNotations : Evidence :=
  let sent : Json := .obj [("span_id", .nat 1), ("trace_id", .int (-1))]
  let forwarded : Json := .obj [("spanID", .nat 2), ("traceID", .str "18446744073709551615")]
  let group : Json := .obj [("chunks", .arr [.obj [("spans", .arr [forwarded])]])]
  { scenario := default
    records :=
      [ Record.made .library "/v0.4/traces" (Payload.ofJson (.arr [.arr [sent]])) default,
        Record.made .agent "/api/v0.2/traces"
          (Payload.ofJson (.obj [("tracerPayloads", .arr [group])])) default ]
    wait := .quiescent
    timingFallback := true
    exceptions := [] }

def uniqueTraces : Validator :=
  { id := 0
    testId := "t"
    interface := .library
    assertion := .uniqueTraceIds }

/-- Both ids denote the same number. -/
theorem unique_trace_ids_notations :
    (uniqueTraces.evaluate bothNotations).outcome.message? =
      some "trace id(s) shared by several traces: 18446744073709551615" := by
  rcases unique_trace_ids uniqueTraces rfl bothNotations with ⟨-, -, hjudged, -, -⟩
  have hspans : ∀ s ∈ Correlation.spans bothNotations.records,
      s.span.traceId = 18446744073709551615 ∧ s.span.isRoot = true := by
    decide +kernel
  have hlength : (Correlation.spans bothNotations.records).length = 2 := by decide +kernel
  have hshared : ∀ id, Shared (Correlation.spans bothNotations.records) id ↔
      id = 18446744073709551615 := by
    intro id
    constructor
    · rintro ⟨i, -, hi, -, -, hroot, -⟩
      rw [← hroot.1, (hspans _ (List.getElem_mem hi)).1]
    · rintro rfl
      have hfirst : 0 < (Correlation.spans bothNotations.records).length := by omega
      have hsecond : 1 < (Correlation.spans bothNotations.records).length := by omega
      exact ⟨0, 1, hfirst, hsecond, by omega, hspans _ (List.getElem_mem hfirst),
        hspans _ (List.getElem_mem hsecond)⟩
  have hnot : (uniqueTraces.evaluate bothNotations).outcome ≠ .passed := fun hpassed =>
    absurd (hjudged.passed.1 hpassed _ ((hshared _).2 rfl)) List.not_mem_nil
  rcases hjudged.failed hnot with ⟨ids, f, houtcome, htells⟩
  have hids : ids = [18446744073709551615] := by
    refine htells.ascending.eq_of_mem_iff (List.pairwise_singleton _ _) fun id => ?_
    rw [htells.mem, hshared, List.mem_singleton]
    exact and_iff_left List.not_mem_nil
  rw [houtcome, Outcome.message?, htells.message, hids]
  decide +kernel

end TraceAudit
