import Mathlib.Data.List.Forall2
import TraceAudit.Proofs.Trace.Readable
import TraceAudit.Proofs.Validator.ArrivalOrder

/-!
# Batches of traces

A tracer may send its traces in one payload or in several. What is found in them is the same.

* `Concatenates` is what a decoder of many values has to keep, `decodeEach_concatenates` and
  `decodeTraces_concatenates` say that both decoders keep it;
* `Batches` are the ways to cut a payload of each format, `decodeSpans_batches` decodes the parts;
* `Mixed` puts records without spans in between, `spans_mixed` looks past them;
* `Sends` says which spans records send, and `sends_iff` that these are the spans that are found;
* `batching_invisible` compares the spans, the spans of calls and the verdicts.
-/

namespace TraceAudit

/-! ## Decoding in parts -/

/-- What a value decodes to does not hang on its number, which only faults tell. -/
def Unnumbered (decodeOne : Nat → Json → Except DecodeError Span) : Prop :=
  ∀ i j v span, decodeOne i v = .ok span → decodeOne j v = .ok span

/-- The spans of values one after the other are the spans of the first ones and those of the
rest, wherever the values are cut and however they are numbered. -/
structure Concatenates (decodeAll : Nat → List Json → Except DecodeError (List Span)) : Prop where
  nil : ∀ i, decodeAll i [] = .ok []
  append : ∀ i j front back spans, decodeAll i (front ++ back) = .ok spans →
    ∃ first rest, decodeAll j front = .ok first ∧ decodeAll j back = .ok rest ∧
      spans = first ++ rest

section Decoders

variable {decodeOne : Nat → Json → Except DecodeError Span}

theorem decodeEach_unnumbered (hone : Unnumbered decodeOne) {items : List Json}
    {spans : List Span} {i : Nat} (j : Nat) (h : decodeEach decodeOne i items = .ok spans) :
    decodeEach decodeOne j items = .ok spans := by
  induction items generalizing i j spans with
  | nil => exact h
  | cons item rest ih =>
    rcases bind_eq_ok.1 h with ⟨span, hspan, h⟩
    rcases bind_eq_ok.1 h with ⟨more, hmore, h⟩
    exact bind_eq_ok.2 ⟨span, hone i j item span hspan, bind_eq_ok.2 ⟨more, ih (j + 1) hmore, h⟩⟩

theorem decodeEach_concatenates (hone : Unnumbered decodeOne) :
    Concatenates (decodeEach decodeOne) where
  nil := fun _ => rfl
  append := by
    intro i j front back spans h
    induction front generalizing i j spans with
    | nil => exact ⟨[], spans, rfl, decodeEach_unnumbered hone j h, rfl⟩
    | cons item front ih =>
      rcases bind_eq_ok.1 h with ⟨span, hspan, h⟩
      rcases bind_eq_ok.1 h with ⟨more, hmore, h⟩
      cases h
      rcases ih (i + 1) (j + 1) more hmore with ⟨first, rest, hfirst, hrest, rfl⟩
      refine ⟨span :: first, rest, ?_, decodeEach_unnumbered hone j hrest, rfl⟩
      exact bind_eq_ok.2 ⟨span, hone i j item span hspan, bind_eq_ok.2 ⟨first, hfirst, rfl⟩⟩

theorem decodeTraces_cons {i : Nat} {trace : Json} {rest : List Json} {spans : List Span} :
    decodeTraces decodeOne i (trace :: rest) = .ok spans ↔
      ∃ items first more, trace = .arr items ∧ decodeEach decodeOne i items = .ok first ∧
        decodeTraces decodeOne (i + items.length) rest = .ok more ∧ spans = first ++ more := by
  cases trace with
  | arr items =>
    rw [decodeTraces, bind_eq_ok]
    constructor
    · rintro ⟨first, hfirst, h⟩
      rcases bind_eq_ok.1 h with ⟨more, hmore, h⟩
      cases h
      exact ⟨items, first, more, rfl, hfirst, hmore, rfl⟩
    · rintro ⟨_, first, more, heq, hfirst, hmore, rfl⟩
      cases heq
      exact ⟨first, hfirst, bind_eq_ok.2 ⟨more, hmore, rfl⟩⟩
  | _ => simp [decodeTraces]

theorem decodeTraces_unnumbered (hone : Unnumbered decodeOne) {traces : List Json}
    {spans : List Span} {i : Nat} (j : Nat) (h : decodeTraces decodeOne i traces = .ok spans) :
    decodeTraces decodeOne j traces = .ok spans := by
  induction traces generalizing i j spans with
  | nil => exact h
  | cons trace rest ih =>
    rcases decodeTraces_cons.1 h with ⟨items, first, more, htrace, hfirst, hmore, hspans⟩
    exact decodeTraces_cons.2 ⟨items, first, more, htrace, decodeEach_unnumbered hone j hfirst,
      ih (j + items.length) hmore, hspans⟩

theorem decodeTraces_concatenates (hone : Unnumbered decodeOne) :
    Concatenates (decodeTraces decodeOne) where
  nil := fun _ => rfl
  append := by
    intro i j front back spans h
    induction front generalizing i j spans with
    | nil => exact ⟨[], spans, rfl, decodeTraces_unnumbered hone j h, rfl⟩
    | cons trace front ih =>
      rcases decodeTraces_cons.1 h with ⟨items, first, more, htrace, hfirst, hmore, rfl⟩
      rcases ih (i + items.length) (j + items.length) more hmore with ⟨x, y, hx, hy, rfl⟩
      refine ⟨first ++ x, y, ?_, decodeTraces_unnumbered hone j hy, (List.append_assoc ..).symm⟩
      exact decodeTraces_cons.2 ⟨items, first, x, htrace, decodeEach_unnumbered hone j hfirst, hx,
        rfl⟩

end Decoders

/-- Decoding group by group gives all spans, in their order. -/
theorem Concatenates.flatten {decodeAll : Nat → List Json → Except DecodeError (List Span)}
    (h : Concatenates decodeAll) {groups : List (List Json)} {spans : List Span}
    (hspans : decodeAll 0 groups.flatten = .ok spans) :
    ∃ found, List.Forall₂ (fun group part => decodeAll 0 group = .ok part) groups found ∧
      found.flatten = spans := by
  induction groups generalizing spans with
  | nil =>
    rw [List.flatten_nil, h.nil] at hspans
    cases hspans
    exact ⟨[], .nil, rfl⟩
  | cons group groups ih =>
    rcases h.append 0 0 group groups.flatten spans hspans with ⟨first, rest, hfirst, hrest, rfl⟩
    rcases ih hrest with ⟨found, hfound, rfl⟩
    exact ⟨first :: found, .cons hfirst hfound, rfl⟩

/-! ## One span -/

theorem decodeObject_unnumbered (keys : IdKeys) : Unnumbered (decodeObject keys) := by
  intro i j obj span h
  cases hobject : obj.isObject with
  | false => simp [decodeObject, hobject, bind, Except.bind] at h
  | true =>
    simp only [decodeObject, hobject, not_true_eq_false, if_false] at h ⊢
    rcases bind_eq_ok.1 h with ⟨traceId, htrace, h⟩
    rcases bind_eq_ok.1 h with ⟨spanId, hspan, h⟩
    exact bind_eq_ok.2 ⟨traceId, requiredId_eq_ok.2 (requiredId_eq_ok.1 htrace),
      bind_eq_ok.2 ⟨spanId, requiredId_eq_ok.2 (requiredId_eq_ok.1 hspan), h⟩⟩

theorem decodeRow_unnumbered (table : List String) : Unnumbered (decodeRow table) := by
  intro i j row span h
  unfold decodeRow at h ⊢
  split at h
  · -- Only the two ids of a row could name the span in a fault.
    rcases bind_eq_ok.1 h with ⟨tags, htags, h⟩
    rcases bind_eq_ok.1 h with ⟨metrics, hmetrics, h⟩
    rcases bind_eq_ok.1 h with ⟨kind, hkind, h⟩
    rcases bind_eq_ok.1 h with ⟨service, hservice, h⟩
    rcases bind_eq_ok.1 h with ⟨name, hname, h⟩
    rcases bind_eq_ok.1 h with ⟨resource, hresource, h⟩
    rcases bind_eq_ok.1 h with ⟨traceId, htrace, h⟩
    rcases bind_eq_ok.1 h with ⟨spanId, hspan, h⟩
    refine bind_eq_ok.2 ⟨tags, htags, bind_eq_ok.2 ⟨metrics, hmetrics, ?_⟩⟩
    refine bind_eq_ok.2 ⟨kind, hkind, bind_eq_ok.2 ⟨service, hservice, ?_⟩⟩
    refine bind_eq_ok.2 ⟨name, hname, bind_eq_ok.2 ⟨resource, hresource, ?_⟩⟩
    exact bind_eq_ok.2 ⟨traceId, rowId_eq_ok.2 (rowId_eq_ok.1 htrace),
      bind_eq_ok.2 ⟨spanId, rowId_eq_ok.2 (rowId_eq_ok.1 hspan), h⟩⟩
  · cases h

/-! ## Payloads in parts -/

/-- The chunks of traces in a payload, tracer after tracer. -/
def tracerChunks (payload : Json) : List Json :=
  (arrayMember payload "tracerPayloads").flatMap (arrayMember · "chunks")

theorem groupedSpans_eq (payload : Json) :
    groupedSpans payload = (tracerChunks payload).flatMap (arrayMember · "spans") := by
  rw [tracerChunks, List.flatMap_assoc]
  rfl

/-- The parts carry the traces of the whole payload, cut into consecutive groups. Rows keep their
string table. Chunks are cut between tracers or inside the chunks of one, and each part may say
anything else of its tracers. -/
inductive Batches : TraceFormat → Json → List Json → Prop
  | objects (groups : List (List Json)) :
      Batches .libraryV04 (.arr groups.flatten) (groups.map .arr)
  | rows (table : Json) (groups : List (List Json)) :
      Batches .libraryV05 (.arr [table, .arr groups.flatten])
        (groups.map fun group => .arr [table, .arr group])
  | chunks {whole : Json} {parts : List Json} :
      (∀ part ∈ parts, ∃ tracers, part.get? "tracerPayloads" = some (.arr tracers)) →
      parts.flatMap tracerChunks = tracerChunks whole → Batches .agentV02 whole parts

/-- A payload without tracers holds no chunks, so it is no exception. -/
theorem decodeEach_of_decodeAgentV02 {payload : Json} {spans : List Span}
    (h : decodeAgentV02 payload = .ok spans) :
    decodeEach (decodeObject .agent) 0 (groupedSpans payload) = .ok spans := by
  unfold decodeAgentV02 at h
  unfold groupedSpans arrayMember
  split at h
  · rename_i hmember
    rw [hmember]
    exact h
  · rename_i hmember
    rw [hmember]
    exact h
  · rename_i tracers hmember
    rw [hmember]
    exact h
  · cases h

theorem decodeAgentV02_of_array {payload : Json}
    (h : ∃ tracers, payload.get? "tracerPayloads" = some (.arr tracers)) :
    decodeAgentV02 payload = decodeEach (decodeObject .agent) 0 (groupedSpans payload) := by
  rcases h with ⟨tracers, hmember⟩
  unfold decodeAgentV02 groupedSpans arrayMember
  rw [hmember]
  rfl

theorem decodeSpans_batches {format : TraceFormat} {whole : Json} {parts : List Json}
    {spans : List Span} (hparts : Batches format whole parts)
    (h : decodeSpans format whole = .ok spans) :
    ∃ found, List.Forall₂ (fun part spans => decodeSpans format part = .ok spans) parts found ∧
      found.flatten = spans := by
  cases hparts with
  | objects groups =>
    rcases (decodeTraces_concatenates (decodeObject_unnumbered .library)).flatten h with
      ⟨found, hfound, hspans⟩
    exact ⟨found, List.forall₂_map_left_iff.2 hfound, hspans⟩
  | rows table groups =>
    cases table with
    | arr entries =>
      rcases (decodeTraces_concatenates (decodeRow_unnumbered _)).flatten h with
        ⟨found, hfound, hspans⟩
      exact ⟨found, List.forall₂_map_left_iff.2 hfound, hspans⟩
    | _ => cases h
  | chunks harrays hchunks =>
    have hwhole : groupedSpans whole = (parts.map groupedSpans).flatten := by
      calc
        groupedSpans whole
            = (tracerChunks whole).flatMap (arrayMember · "spans") := groupedSpans_eq whole
        _ = (parts.flatMap tracerChunks).flatMap (arrayMember · "spans") := by rw [hchunks]
        _ = parts.flatMap groupedSpans := by
              rw [List.flatMap_assoc]
              simp only [← groupedSpans_eq]
        _ = (parts.map groupedSpans).flatten := List.flatMap_def
    have hall := decodeEach_of_decodeAgentV02 h
    rw [hwhole] at hall
    rcases (decodeEach_concatenates (decodeObject_unnumbered .agent)).flatten hall with
      ⟨found, hfound, hspans⟩
    have hparts := (List.forall₂_and_left parts found).2
      ⟨harrays, List.forall₂_map_left_iff.1 hfound⟩
    refine ⟨found, hparts.imp ?_, hspans⟩
    intro part spans hpart
    exact (decodeAgentV02_of_array hpart.1).trans hpart.2

/-! ## Records in between -/

namespace Correlation

/-- The record is a request with this payload on the endpoint of the format. -/
structure Bears (format : TraceFormat) (record : Record) (payload : Json) : Prop where
  isRequest : record.isRequest = true
  endpoint : TraceFormat.ofEndpoint? record.path = some format
  json : record.json? = some payload

/-- The record is no request with a trace payload, or its payload does not decode. -/
def Silent (record : Record) : Prop :=
  ∀ format payload, Bears format record payload → ∃ e, decodeSpans format payload = .error e

/-- The records are those of a batch in their order, with silent records in between. -/
inductive Mixed : List Record → List Record → Prop
  | nil : Mixed [] []
  | next (record : Record) {batch records : List Record} :
      Mixed batch records → Mixed (record :: batch) (record :: records)
  | silent {record : Record} {batch records : List Record} :
      Silent record → Mixed batch records → Mixed batch (record :: records)

theorem spansIn_of_bears {format : TraceFormat} {record : Record} {payload : Json}
    {found : List Span} (h : Bears format record payload)
    (hfound : decodeSpans format payload = .ok found) :
    spansIn record = found.map (⟨record.seq, ·⟩) := by
  simp [spansIn, h.isRequest, h.endpoint, h.json, hfound]

theorem spansIn_of_silent {record : Record} (h : Silent record) : spansIn record = [] := by
  unfold spansIn
  split
  · rename_i hrequest
    split
    · rename_i format payload hformat hpayload
      rcases h format payload ⟨hrequest, hformat, hpayload⟩ with ⟨e, he⟩
      rw [he]
    · rfl
  · rfl

theorem spans_cons (record : Record) (records : List Record) :
    spans (record :: records) = spansIn record ++ spans records :=
  List.flatMap_cons

theorem spans_mixed {batch records : List Record} (h : Mixed batch records) :
    spans records = spans batch := by
  induction h with
  | nil => rfl
  | next record _ ih => rw [spans_cons, spans_cons, ih]
  | silent hsilent _ ih => rw [spans_cons, spansIn_of_silent hsilent, List.nil_append, ih]

/-- The spans themselves, without the numbers of the records that hold them. -/
def bare (found : List LocatedSpan) : List Span := found.map (·.span)

theorem bare_spansIn {format : TraceFormat} {record : Record} {payload : Json} {found : List Span}
    (h : Bears format record payload) (hfound : decodeSpans format payload = .ok found) :
    bare (spansIn record) = found := by
  rw [spansIn_of_bears h hfound, bare, List.map_map]
  exact List.map_id found

/-- Records send the spans of their trace payloads, one payload after the other. Responses, other
requests and payloads that do not decode send none. -/
inductive Sends : List Record → List Span → Prop
  | nil : Sends [] []
  | payload {format : TraceFormat} {record : Record} {payload : Json} {found : List Span}
      {records : List Record} {spans : List Span} :
      Bears format record payload → decodeSpans format payload = .ok found →
      Sends records spans → Sends (record :: records) (found ++ spans)
  | silent {record : Record} {records : List Record} {spans : List Span} :
      Silent record → Sends records spans → Sends (record :: records) spans

theorem bare_spans_cons (record : Record) (records : List Record) :
    bare (spans (record :: records)) = bare (spansIn record) ++ bare (spans records) := by
  rw [spans_cons, bare, List.map_append]
  rfl

/-- The spans that records send are those that are found in them. -/
theorem sends_iff {records : List Record} {sent : List Span} :
    Sends records sent ↔ sent = bare (spans records) := by
  constructor
  · intro h
    induction h with
    | nil => rfl
    | payload hbears hfound _ ih => rw [bare_spans_cons, bare_spansIn hbears hfound, ih]
    | silent hsilent _ ih =>
      rw [bare_spans_cons, spansIn_of_silent hsilent, ih]
      rfl
  · rintro rfl
    induction records with
    | nil => exact .nil
    | cons record rest ih =>
      by_cases hsilent : Silent record
      · rw [bare_spans_cons, spansIn_of_silent hsilent]
        exact .silent hsilent ih
      · simp only [Silent, not_forall, not_exists] at hsilent
        rcases hsilent with ⟨format, payload, hbears, hok⟩
        cases hfound : decodeSpans format payload with
        | error e => exact absurd hfound (hok e)
        | ok found =>
          rw [bare_spans_cons, bare_spansIn hbears hfound]
          exact .payload hbears hfound ih

theorem bare_spans_batch {format : TraceFormat} {batch : List Record} {parts : List Json}
    {found : List (List Span)} (hbatch : List.Forall₂ (Bears format) batch parts)
    (hfound : List.Forall₂ (fun part spans => decodeSpans format part = .ok spans) parts found) :
    bare (spans batch) = found.flatten := by
  induction hbatch generalizing found with
  | nil =>
    cases hfound
    rfl
  | @cons record part batch parts hbears _ ih =>
    cases hfound with
    | @cons _ spans _ more hspans hmore =>
      calc
        bare (Correlation.spans (record :: batch))
            = bare (spansIn record) ++ bare (Correlation.spans batch) :=
              bare_spans_cons record batch
        _ = spans ++ more.flatten := by rw [bare_spansIn hbears hspans, ih hmore]

/-! ## Spans of calls -/

section SameSpans

variable {all all' : List LocatedSpan}

/-- A property of spans selects the same ones, wherever they were found. -/
theorem bare_filter (q : Span → Bool) (h : bare all = bare all') :
    bare (all.filter fun s => q s.span) = bare (all'.filter fun s => q s.span) := by
  have hfilter : ∀ found, bare (found.filter fun s => q s.span) = (bare found).filter q :=
    fun _ => List.filter_map.symm
  rw [hfilter, hfilter, h]

theorem any_bare (q : Span → Bool) (h : bare all = bare all') :
    (all.any fun s => q s.span) = all'.any fun s => q s.span := by
  have hany : ∀ found, (found.any fun s => q s.span) = (bare found).any q :=
    fun _ => List.any_map.symm
  rw [hany, hany, h]

theorem map_bare {α : Type} (f : Span → α) (h : bare all = bare all') :
    (all.map fun s => f s.span) = all'.map fun s => f s.span := by
  have hmap : ∀ found, (found.map fun s => f s.span) = (bare found).map f :=
    fun _ => List.map_map.symm
  rw [hmap, hmap, h]

theorem isEmpty_bare (h : bare all = bare all') : all.isEmpty = all'.isEmpty := by
  simpa [bare] using congrArg List.isEmpty h

theorem length_bare (h : bare all = bare all') : all.length = all'.length := by
  simpa [bare] using congrArg List.length h

/-- Which spans are attributed to a call hangs on the spans alone. -/
theorem bare_attributed (h : bare all = bare all') (call : TestCall) (timing : Bool) :
    bare (attributed all call timing) = bare (attributed all' call timing) := by
  have hany : all.any (carries call) = all'.any (carries call) :=
    any_bare (fun s => carries call ⟨0, s⟩) h
  unfold attributed
  rw [hany]
  split
  · exact bare_filter (fun s => startedWithin call ⟨0, s⟩) h
  · exact bare_filter (fun s => carries call ⟨0, s⟩) h

theorem bare_spansOf {records records' : List Record}
    (h : bare (spans records) = bare (spans records')) (call : TestCall) (how : Attribution) :
    bare (spansOf records call how) = bare (spansOf records' call how) := by
  have hfound := bare_attributed h call how.timing
  have htraces : (attributed (spans records) call how.timing).map (·.span.traceId) =
      (attributed (spans records') call how.timing).map (·.span.traceId) :=
    map_bare Span.traceId hfound
  unfold spansOf
  split
  · simp only [htraces]
    exact bare_filter (fun s => List.contains _ s.traceId) h
  · exact hfound

end SameSpans

end Correlation

/-! ## Verdicts -/

/-- The assertion is about the spans of the interface and nothing else. -/
def Assertion.isAboutSpans : Assertion → Bool
  | .spanCount _ _ _ _ => true
  | .spanCheck _ _ _ => true
  | .rootSpan _ => true
  | .uniqueTraceIds => true
  | _ => false

section SameEvidence

open Correlation

variable (e : Evidence) {records records' : List Record}

/-- The roots tell which ids are shared, by their trace ids alone. -/
theorem Evidence.sharedIds_bare (h : bare (spans records) = bare (spans records'))
    (exceptions : List Nat) :
    sharedIds { e with records }.roots exceptions =
      sharedIds { e with records := records' }.roots exceptions := by
  have hroots : bare { e with records }.roots = bare { e with records := records' }.roots :=
    bare_filter Span.isRoot h
  simp only [sharedIds, map_bare Span.traceId hroots]

/-- On the same spans, assertions about spans pass or fail alike. -/
theorem Assertion.evaluate_sameSpans (h : bare (spans records) = bare (spans records'))
    {a : Assertion} (ha : a.isAboutSpans = true) :
    (a.evaluate { e with records }).1.kind? =
      (a.evaluate { e with records := records' }).1.kind? := by
  have hcall : ∀ call fullTrace, bare ({ e with records }.spansOf call fullTrace) =
      bare ({ e with records := records' }.spansOf call fullTrace) :=
    fun call fullTrace => bare_spansOf h call ⟨fullTrace, e.timingFallback⟩
  cases a with
  | spanCount call expected mode fullTrace =>
    have hfound := hcall call fullTrace
    simp only [evaluate, Evidence.kind?_spanCount, isEmpty_bare hfound, length_bare hfound]
  | spanCheck call description check =>
    have hchecked : bare ({ e with records }.checkedSpans call) =
        bare ({ e with records := records' }.checkedSpans call) := by
      cases call with
      | some call => exact hcall call false
      | none => exact h
    have hcomplaint := any_bare (fun s => !(check s).isOk) hchecked
    simp only [evaluate, Evidence.kind?_spanCheck, isEmpty_bare hchecked, hcomplaint]
  | rootSpan call =>
    have hfound := hcall call false
    have hroot := any_bare Span.isRoot hfound
    simp only [evaluate, Evidence.kind?_rootSpan, isEmpty_bare hfound, hroot]
  | uniqueTraceIds =>
    have hshared := e.sharedIds_bare h e.exceptions
    simp only [evaluate, Evidence.kind?_uniqueTraceIds, hshared]
  | _ => cases ha

end SameEvidence

/-- However the traces of a payload are sent, as one record or as many with other records in
between: the same spans are found in the same order, the same ones for each call, and assertions
about spans pass or fail alike, in the same way. -/
theorem batching_invisible {format : TraceFormat} {whole : Record} {payload : Json}
    {found : List Span} {parts : List Json} {batch records : List Record}
    (hwhole : Correlation.Bears format whole payload)
    (hfound : decodeSpans format payload = .ok found)
    (hparts : Batches format payload parts)
    (hbatch : List.Forall₂ (Correlation.Bears format) batch parts)
    (hmixed : Correlation.Mixed batch records) :
    (Correlation.spans records).map (·.span) = found ∧
      (Correlation.spans [whole]).map (·.span) = found ∧
      (∀ call how, (Correlation.spansOf records call how).map (·.span) =
        (Correlation.spansOf [whole] call how).map (·.span)) ∧
      ∀ (v : Validator) (e : Evidence), v.assertion.isAboutSpans = true →
        (v.evaluate { e with records }).isPassed =
            (v.evaluate { e with records := [whole] }).isPassed ∧
          (v.evaluate { e with records }).outcome.kind? =
            (v.evaluate { e with records := [whole] }).outcome.kind? := by
  rcases decodeSpans_batches hparts hfound with ⟨groups, hgroups, hflatten⟩
  have hrecords : Correlation.bare (Correlation.spans records) = found := by
    calc
      Correlation.bare (Correlation.spans records)
          = Correlation.bare (Correlation.spans batch) := by rw [Correlation.spans_mixed hmixed]
      _ = groups.flatten := Correlation.bare_spans_batch hbatch hgroups
      _ = found := hflatten
  have halone : Correlation.bare (Correlation.spans [whole]) = found := by
    rw [Correlation.spans_cons, Correlation.spans, List.flatMap_nil, List.append_nil]
    exact Correlation.bare_spansIn hwhole hfound
  have hsame : Correlation.bare (Correlation.spans records) =
      Correlation.bare (Correlation.spans [whole]) := hrecords.trans halone.symm
  refine ⟨hrecords, halone, fun call how => Correlation.bare_spansOf hsame call how, ?_⟩
  intro v e habout
  have hkind := v.assertion.evaluate_sameSpans e hsame habout
  have hkinds : (v.evaluate { e with records }).outcome.kind? =
      (v.evaluate { e with records := [whole] }).outcome.kind? := by
    simpa [Validator.evaluate, Validator.verdict, Outcome.kind?_about] using hkind
  refine ⟨?_, hkinds⟩
  simp only [Verdict.isPassed, Outcome.isPassed_eq, hkinds]

/-- A payload of one tracer with one chunk for each of the spans, all of the trace 7. -/
def chunkedPayload (spanIds : List Nat) : Json :=
  let chunk (id : Nat) : Json :=
    .obj [("spans", .arr [.obj [("spanID", .nat id), ("traceID", .nat 7)]])]
  .obj [("tracerPayloads", .arr [.obj [("chunks", .arr (spanIds.map chunk))]])]

def chunkedRecord (spanIds : List Nat) : Record :=
  Record.made .agent "/api/v0.2/traces" (Payload.ofJson (chunkedPayload spanIds)) default

/-- A request whose payload is no JSON. -/
def undecodedRecord : Record :=
  Record.made .agent "/api/v0.2/traces" (Payload.ofBytes []) default

/-- No span has the number 3. -/
def withoutThird : Validator :=
  let check (s : Span) : Except String Unit := if s.spanId = 3 then .error "third" else .ok ()
  { id := 0, testId := "t", interface := .agent, assertion := .spanCheck none "no third" check }

/-- The chunks of one tracer are cut in two, and a record that is no JSON comes in between. The
span is complained about either way. -/
theorem batching_invisible_chunks :
    let records := [chunkedRecord [1], undecodedRecord, chunkedRecord [2, 3]]
    let e := { interleaved with records }
    (Correlation.spans records).map (·.span.spanId) = [1, 2, 3] ∧
      (withoutThird.evaluate e).outcome.kind? = some .assertion := by
  intro records e
  have hparts : Batches .agentV02 (chunkedPayload [1, 2, 3])
      [chunkedPayload [1], chunkedPayload [2, 3]] := by
    refine .chunks ?_ rfl
    intro part hpart
    rcases List.mem_pair.1 hpart with rfl | rfl
    · exact ⟨_, rfl⟩
    · exact ⟨_, rfl⟩
  have hsilent : Correlation.Silent undecodedRecord := fun _ _ h => nomatch h.json
  have hmixed : Correlation.Mixed [chunkedRecord [1], chunkedRecord [2, 3]] records :=
    .next _ (.silent hsilent (.next _ .nil))
  have hbatch : List.Forall₂ (Correlation.Bears .agentV02) [chunkedRecord [1], chunkedRecord [2, 3]]
      [chunkedPayload [1], chunkedPayload [2, 3]] :=
    .cons ⟨rfl, rfl, rfl⟩ (.cons ⟨rfl, rfl, rfl⟩ .nil)
  have hwhole : Correlation.Bears .agentV02 (chunkedRecord [1, 2, 3]) (chunkedPayload [1, 2, 3]) :=
    ⟨rfl, rfl, rfl⟩
  rcases batching_invisible hwhole rfl hparts hbatch hmixed with ⟨hspans, -, -, hverdicts⟩
  refine ⟨?_, ?_⟩
  · calc
      (Correlation.spans records).map (·.span.spanId)
          = ((Correlation.spans records).map (·.span)).map Span.spanId := List.map_map.symm
      _ = _ := congrArg (List.map Span.spanId) hspans
      _ = [1, 2, 3] := by decide +kernel
  · calc
      (withoutThird.evaluate e).outcome.kind?
          = (withoutThird.evaluate { interleaved with
              records := [chunkedRecord [1, 2, 3]] }).outcome.kind? :=
            (hverdicts withoutThird interleaved rfl).2
      _ = some .assertion := by decide +kernel

end TraceAudit
