import Mathlib.Data.List.Basic
import TraceAudit.Correlation

/-!
# Which spans are attributed to a call

A call is credited with the spans that carry its request id. Only where no span does, and only when
asked to, the roots that started during the call are taken instead.

* `attributed_of_carried` and `attributed_of_not_carried` are the two ways of attribution;
* `mem_spansOf_fullTrace` says what widening by trace id adds;
* `Laws` lists what may be relied upon, `spansOf_laws` says that it always holds.
-/

namespace TraceAudit
namespace Correlation

variable {records : List Record} {call : TestCall} {timing : Bool} {s : LocatedSpan}

/-! ## Attribution -/

/-- Some of the spans carries the request id of the call. -/
def Carried (all : List LocatedSpan) (call : TestCall) : Prop :=
  ∃ s ∈ all, s.span.requestId? = some call.id

/-- The span is a root without request id that started in the time from `issued` to `completed`. -/
def RootIn (issued completed : Timestamp) (s : LocatedSpan) : Prop :=
  s.span.parentId = none ∧ s.span.requestId? = none ∧
    issued.epochNanos ≤ s.span.start ∧ s.span.start ≤ completed.epochNanos

instance (issued completed : Timestamp) : DecidablePred (RootIn issued completed) :=
  fun _ => inferInstanceAs (Decidable (_ ∧ _ ∧ _ ∧ _))

theorem carries_iff : carries call s = true ↔ s.span.requestId? = some call.id :=
  beq_iff_eq

theorem any_carries_iff {all : List LocatedSpan} :
    all.any (carries call) = true ↔ Carried all call := by
  simp only [List.any_eq_true, carries_iff, Carried]

theorem not_startedWithin (h : call.completedAt = none) : startedWithin call s = false := by
  simp [startedWithin, TestCall.window?, h]

theorem startedWithin_iff {completed : Timestamp} (h : call.completedAt = some completed) :
    startedWithin call s = true ↔ RootIn call.issuedAt completed s := by
  simp [startedWithin, TestCall.window?, h, RootIn, Span.isRoot, and_assoc]

theorem attributed_sublist (all : List LocatedSpan) (call : TestCall) (timing : Bool) :
    (attributed all call timing).Sublist all := by
  unfold attributed
  split
  · exact List.filter_sublist
  · exact List.filter_sublist

/-- Once some span carries the id, timing is not asked. -/
theorem attributed_of_carried {all : List LocatedSpan} (h : Carried all call) (timing : Bool) :
    attributed all call timing = all.filter (carries call) := by
  have hany : all.any (carries call) = true := any_carries_iff.2 h
  simp [attributed, hany]

theorem attributed_of_not_carried {all : List LocatedSpan} (h : ¬Carried all call)
    (timing : Bool) :
    attributed all call timing = if timing then all.filter (startedWithin call) else [] := by
  have hany : all.any (carries call) = false := by
    rw [← Bool.not_eq_true, any_carries_iff]
    exact h
  have hnone : all.filter (carries call) = [] := by
    simpa using hany
  cases timing with
  | true => simp [attributed, hany]
  | false => simpa [attributed] using hnone

/-- A span that is attributed to a call carries no other id. -/
theorem requestId?_of_mem_attributed {all : List LocatedSpan} {id : String}
    (hmem : s ∈ attributed all call timing) (hid : s.span.requestId? = some id) : id = call.id := by
  by_cases h : Carried all call
  · rw [attributed_of_carried h] at hmem
    have hcarries : s.span.requestId? = some call.id := carries_iff.1 (List.mem_filter.1 hmem).2
    exact Option.some.inj (hid.symm.trans hcarries)
  · rw [attributed_of_not_carried h] at hmem
    cases timing with
    | false => cases hmem
    | true =>
      -- Timing is for spans without id only, and this one has an id.
      have hstarted : startedWithin call s = true := (List.mem_filter.1 hmem).2
      cases hcompleted : call.completedAt with
      | none =>
        rw [not_startedWithin hcompleted] at hstarted
        cases hstarted
      | some completed =>
        have hroot := (startedWithin_iff hcompleted).1 hstarted
        rw [hroot.2.1] at hid
        cases hid

/-! ## Whole traces -/

/-- The ids of the traces that the spans belong to. -/
def traceIds (spans : List LocatedSpan) : List Nat := spans.map (·.span.traceId)

theorem spansOf_plain (records : List Record) (call : TestCall) (timing : Bool) :
    spansOf records call ⟨false, timing⟩ = attributed (spans records) call timing := rfl

theorem spansOf_fullTrace (records : List Record) (call : TestCall) (timing : Bool) :
    spansOf records call ⟨true, timing⟩ = (spans records).filter fun s =>
      (traceIds (spansOf records call ⟨false, timing⟩)).contains s.span.traceId := rfl

theorem mem_spansOf_fullTrace :
    s ∈ spansOf records call ⟨true, timing⟩ ↔
      s ∈ spans records ∧ s.span.traceId ∈ traceIds (spansOf records call ⟨false, timing⟩) := by
  rw [spansOf_fullTrace, List.mem_filter, List.contains_iff_mem]

theorem spansOf_sublist (records : List Record) (call : TestCall) (how : Attribution) :
    (spansOf records call how).Sublist (spans records) := by
  rcases how with ⟨fullTrace, timing⟩
  cases fullTrace with
  | true => exact List.filter_sublist
  | false => exact attributed_sublist (spans records) call timing

/-- Widening keeps every span that was found, each as often as it was found. -/
theorem plain_sublist_fullTrace (records : List Record) (call : TestCall) (timing : Bool) :
    (spansOf records call ⟨false, timing⟩).Sublist (spansOf records call ⟨true, timing⟩) := by
  have hkept : (spansOf records call ⟨false, timing⟩).filter (fun s =>
      (traceIds (spansOf records call ⟨false, timing⟩)).contains s.span.traceId) =
      spansOf records call ⟨false, timing⟩ := by
    apply List.filter_eq_self.2
    intro s hs
    exact List.contains_iff_mem.2 (List.mem_map_of_mem hs)
  rw [spansOf_fullTrace]
  calc
    spansOf records call ⟨false, timing⟩
        = (spansOf records call ⟨false, timing⟩).filter _ := hkept.symm
    List.Sublist _ _ := (spansOf_sublist records call ⟨false, timing⟩).filter _

theorem mem_traceIds_fullTrace {id : Nat} :
    id ∈ traceIds (spansOf records call ⟨true, timing⟩) ↔
      id ∈ traceIds (spansOf records call ⟨false, timing⟩) := by
  constructor
  · intro h
    rcases List.mem_map.1 h with ⟨s, hs, rfl⟩
    exact (mem_spansOf_fullTrace.1 hs).2
  · intro h
    exact ((plain_sublist_fullTrace records call timing).map (·.span.traceId)).subset h

/-! ## The laws -/

/-- What may be relied upon when the spans of a call are looked up. -/
structure Laws (records : List Record) (call : TestCall) : Prop where
  /-- Spans are found in arrival order, none of them made up or repeated. -/
  sublist : ∀ how, (spansOf records call how).Sublist (spans records)
  /-- Widening loses nothing. -/
  widened : ∀ timing,
    (spansOf records call ⟨false, timing⟩).Sublist (spansOf records call ⟨true, timing⟩)
  /-- Widening reaches no further trace. -/
  sameTraces : ∀ timing id, id ∈ traceIds (spansOf records call ⟨true, timing⟩) ↔
    id ∈ traceIds (spansOf records call ⟨false, timing⟩)
  /-- Widening takes all spans of the traces that were found. -/
  wholeTraces : ∀ timing,
    ((spans records).filter fun s =>
        s.span.traceId ∈ traceIds (spansOf records call ⟨false, timing⟩)).Sublist
      (spansOf records call ⟨true, timing⟩)
  /-- No span of another call is taken. -/
  noOtherId : ∀ timing, ∀ s ∈ spansOf records call ⟨false, timing⟩, ∀ id,
    s.span.requestId? = some id → id = call.id
  /-- The id decides where some span carries it. -/
  byId : Carried (spans records) call → ∀ timing,
    spansOf records call ⟨false, timing⟩ =
      (spans records).filter fun s => s.span.requestId? = some call.id
  /-- Where some span carries the id, timing changes nothing. -/
  timingUnused : Carried (spans records) call → ∀ fullTrace,
    spansOf records call ⟨fullTrace, true⟩ = spansOf records call ⟨fullTrace, false⟩
  /-- Where no span carries the id, nothing is found without timing. -/
  noneById : ¬Carried (spans records) call → spansOf records call ⟨false, false⟩ = []
  /-- A call that is not complete has no time to go by. -/
  noneIncomplete : ¬Carried (spans records) call → call.completedAt = none →
    spansOf records call ⟨false, true⟩ = []
  /-- Where no span carries the id, timing takes the roots without id that started in the time of
  the call, both ends included. -/
  byTiming : ¬Carried (spans records) call → ∀ completed, call.completedAt = some completed →
    spansOf records call ⟨false, true⟩ =
      (spans records).filter fun s => RootIn call.issuedAt completed s
  /-- Without timing, calls of different ids share no span. -/
  disjoint : ∀ other : TestCall, other.id ≠ call.id →
    (spansOf records call ⟨false, false⟩).Disjoint (spansOf records other ⟨false, false⟩)

theorem plain_byId (h : Carried (spans records) call) (timing : Bool) :
    spansOf records call ⟨false, timing⟩ =
      (spans records).filter fun s => s.span.requestId? = some call.id := by
  rw [spansOf_plain, attributed_of_carried h]
  apply List.filter_congr
  intro s _
  rw [Bool.eq_iff_iff, carries_iff, decide_eq_true_iff]

/-- Both ways of looking up start from the same spans. -/
theorem spansOf_timing (h : Carried (spans records) call) (fullTrace : Bool) :
    spansOf records call ⟨fullTrace, true⟩ = spansOf records call ⟨fullTrace, false⟩ := by
  have hplain : spansOf records call ⟨false, true⟩ = spansOf records call ⟨false, false⟩ :=
    (plain_byId h true).trans (plain_byId h false).symm
  cases fullTrace with
  | false => exact hplain
  | true => rw [spansOf_fullTrace, spansOf_fullTrace, hplain]

theorem plain_none (h : ¬Carried (spans records) call) :
    spansOf records call ⟨false, false⟩ = [] :=
  attributed_of_not_carried h false

theorem plain_incomplete (h : ¬Carried (spans records) call)
    (hcompleted : call.completedAt = none) :
    spansOf records call ⟨false, true⟩ = [] := by
  rw [spansOf_plain, attributed_of_not_carried h, if_pos rfl]
  apply List.filter_eq_nil_iff.2
  intro s _ hstarted
  rw [not_startedWithin hcompleted] at hstarted
  cases hstarted

theorem plain_byTiming (h : ¬Carried (spans records) call) {completed : Timestamp}
    (hcompleted : call.completedAt = some completed) :
    spansOf records call ⟨false, true⟩ =
      (spans records).filter fun s => RootIn call.issuedAt completed s := by
  rw [spansOf_plain, attributed_of_not_carried h, if_pos rfl]
  apply List.filter_congr
  intro s _
  rw [Bool.eq_iff_iff, startedWithin_iff hcompleted, decide_eq_true_iff]

/-- Without timing, a span that is found carries the id of the call. -/
theorem carried_of_mem_plain (h : s ∈ spansOf records call ⟨false, false⟩) :
    s.span.requestId? = some call.id := by
  by_cases hcarried : Carried (spans records) call
  · rw [plain_byId hcarried] at h
    simpa using (List.mem_filter.1 h).2
  · rw [plain_none hcarried] at h
    cases h

/-- Whatever the records and the call: the spans found follow arrival order, widening adds exactly
the rest of the traces found, the request id comes before timing, and no call is credited with the
spans of another. -/
theorem spansOf_laws (records : List Record) (call : TestCall) : Laws records call where
  sublist := spansOf_sublist records call
  widened := plain_sublist_fullTrace records call
  sameTraces := fun _ _ => mem_traceIds_fullTrace
  wholeTraces := by
    intro timing
    apply List.monotone_filter_right
    intro s hs
    exact List.contains_iff_mem.2 (of_decide_eq_true hs)
  noOtherId := fun _ _ hs _ hid => requestId?_of_mem_attributed hs hid
  byId := plain_byId
  timingUnused := spansOf_timing
  noneById := plain_none
  noneIncomplete := plain_incomplete
  byTiming := fun h _ hcompleted => plain_byTiming h hcompleted
  disjoint := by
    intro other hne s hcall hother
    have hid : some call.id = some other.id :=
      (carried_of_mem_plain hcall).symm.trans (carried_of_mem_plain hother)
    exact hne (Option.some.inj hid).symm

/-- A request with one trace: a span that may carry a request id, and a child of it that carries
none. -/
def familyRecord (traceId : Nat) (tags : List (String × Json)) : Record :=
  let root : Json := .obj
    [("meta", .obj tags), ("span_id", .nat 1), ("start", .nat 5), ("trace_id", .nat traceId)]
  let child : Json := .obj [("parent_id", .nat 1), ("span_id", .nat 2), ("trace_id", .nat traceId)]
  Record.made .library "/v0.4/traces" (Payload.ofJson (.arr [.arr [root, child]])) default

/-- Of three families, only the root of the second one carries the id of the call. -/
example :
    let records := [familyRecord 7 [], familyRecord 8 [("http.useragent", .str "test rid/A")],
      familyRecord 9 [("http.useragent", .str "test rid/B")]]
    let call : TestCall := { (default : TestCall) with id := "A" }
    let found how := (spansOf records call how).map fun s => (s.span.traceId, s.span.spanId)
    found ⟨false, true⟩ = [(8, 1)] ∧ found ⟨true, true⟩ = [(8, 1), (8, 2)] := by
  decide +kernel

end Correlation
end TraceAudit
