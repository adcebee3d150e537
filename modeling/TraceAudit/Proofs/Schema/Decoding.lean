import TraceAudit.Correlation
import TraceAudit.Schema.Check
import TraceAudit.Proofs.Schema.Acceptance
import TraceAudit.Proofs.Trace.Readable

/-!
# Accepted payloads that decode

A schema asks for the form of a trace payload. A payload of that form decodes when its numbers are
readable, and only then: `decodes_iff_readable`. The schemas do not ask for all of that. To a schema
a double without fraction is an integer, an index may lie beyond its table, and the text of an id
may have any length, so `accepted_undecodable` gives accepted payloads of all formats that do not
decode.
-/

namespace TraceAudit

/-- The items of an array, none for any other value. -/
def elements (v : Json) : List Json := v.asArray?.getD []

/-- The ids of all spans have 64 bits, and all indices lie in their table. -/
def Readable : TraceFormat → Json → Prop
  | .libraryV04, payload =>
    ∀ trace ∈ elements payload, ∀ span ∈ elements trace, HasIds .library span
  | .libraryV05, payload =>
    ∀ entries traces, payload = .arr [.arr entries, traces] →
      ∀ trace ∈ elements traces, ∀ row ∈ elements trace, RowFits (tableTexts entries) row
  | .agentV02, payload => ∀ span ∈ groupedSpans payload, HasIds .agent span

/-- In traces of a form, only what is asked beyond the form counts. -/
theorem AllSpans.iff_of_form {form P Q : Json → Prop} {traces : Json} (h : AllSpans form traces)
    (hiff : ∀ v, form v → (P v ↔ Q v)) :
    AllSpans P traces ↔ ∀ trace ∈ elements traces, ∀ v ∈ elements trace, Q v := by
  rcases h with ⟨items, rfl, hform⟩
  constructor
  · rintro ⟨items', heq, hall⟩ trace htrace v hv
    cases heq
    rcases hall trace htrace with ⟨spans, rfl, hspans⟩
    rcases hform _ htrace with ⟨spans', heq, hforms⟩
    cases heq
    exact (hiff v (hforms v hv)).1 (hspans v hv)
  · intro hall
    refine ⟨items, rfl, fun trace htrace => ?_⟩
    rcases hform trace htrace with ⟨spans, rfl, hforms⟩
    exact ⟨spans, rfl, fun v hv => (hiff v (hforms v hv)).2 (hall _ htrace v hv)⟩

namespace Schema

/-- The schema of a trace format. -/
def schemaOf : TraceFormat → SchemaName
  | .libraryV04 => .libraryTracesV04
  | .libraryV05 => .libraryTracesV05
  | .agentV02 => .agentTraces

theorem Admits.tracesOf {schema : Schema} {v : Json}
    (h : (Schema.arrayOf (Schema.arrayOf schema)).Admits v) : AllSpans schema.Admits v := by
  rcases h.arrayOf with ⟨items, rfl, hitems⟩
  exact ⟨items, rfl, fun trace htrace => (hitems trace htrace).arrayOf⟩

theorem Admits.isObject_of_structured {keys : List String} {schemas : List (String × Schema)}
    {v : Json} (h : (Schema.structured keys schemas).Admits v) : v.isObject = true := by
  rcases h.structured.1 with ⟨members, rfl⟩
  rfl

theorem decodeV04_of_admits {payload : Json} (h : libraryTracesV04.Admits payload) :
    (∃ spans, decodeV04 payload = .ok spans) ↔ Readable .libraryV04 payload := by
  have hform : AllSpans librarySpan.Admits payload := Admits.tracesOf h
  rw [decodeV04_ok, Readable]
  apply hform.iff_of_form
  intro v hv
  have hobject : v.isObject = true := Admits.isObject_of_structured hv
  simp [hobject]

theorem decodeV05_of_admits {payload : Json} (h : libraryTracesV05.Admits payload) :
    (∃ spans, decodeV05 payload = .ok spans) ↔ Readable .libraryV05 payload := by
  have hparts := Admits.all h
  rcases (hparts (.type [.array]) (by simp)).isArray with ⟨items, rfl⟩
  have hlength := Admits.length (hparts (.minItems 2) (by simp)) (hparts (.maxItems 2) (by simp))
  -- Only two parts are admitted, the table and the traces.
  rcases items with _ | ⟨strings, _ | ⟨traces, _ | ⟨third, more⟩⟩⟩
  · simp at hlength
  · simp at hlength
  · have hleading := (hparts (.leading [arrayOf string, arrayOf (arrayOf rowSpan)]) (by simp)).leading
    rcases (hleading (arrayOf string, strings) (by simp)).arrayOf with ⟨entries, rfl, -⟩
    have hform : AllSpans rowSpan.Admits traces :=
      Admits.tracesOf (hleading (arrayOf (arrayOf rowSpan), traces) (by simp))
    have hrows := hform.iff_of_form fun v _ => Iff.refl (RowFits (tableTexts entries) v)
    rw [decodeV05_ok, Readable]
    constructor
    · rintro ⟨entries', traces', heq, hall⟩ entries'' traces'' heq'
      cases heq
      cases heq'
      exact hrows.1 hall
    · intro hall
      exact ⟨entries, traces, rfl, hrows.2 (hall entries traces rfl)⟩
  · simp at hlength

/-- A value under a key that a schema requires and constrains. -/
theorem Admits.member {keys : List String} {schemas : List (String × Schema)} {v : Json}
    {key : String} {schema : Schema} (h : (Schema.structured keys schemas).Admits v)
    (hkey : key ∈ keys) (hschema : (key, schema) ∈ schemas) :
    ∃ member, v.get? key = some member ∧ schema.Admits member := by
  rcases h.structured with ⟨-, hrequired, hproperties⟩
  rcases hrequired key hkey with ⟨member, hmember⟩
  exact ⟨member, hmember, hproperties key schema hschema member hmember⟩

theorem arrayMember_of_admits {keys : List String} {schemas : List (String × Schema)} {v : Json}
    {key : String} {schema : Schema} (h : (structured keys schemas).Admits v) (hkey : key ∈ keys)
    (hschema : (key, arrayOf schema) ∈ schemas) :
    ∀ item ∈ arrayMember v key, schema.Admits item := by
  rcases h.member hkey hschema with ⟨member, hmember, hadmits⟩
  rcases hadmits.arrayOf with ⟨items, rfl, hitems⟩
  intro item hitem
  rw [arrayMember, hmember] at hitem
  exact hitems item hitem

theorem decodeAgentV02_of_admits {payload : Json} (h : agentTraces.Admits payload) :
    (∃ spans, decodeAgentV02 payload = .ok spans) ↔ Readable .agentV02 payload := by
  have hgroups : ∀ group ∈ arrayMember payload "tracerPayloads", tracerPayload.Admits group :=
    arrayMember_of_admits h (by simp) (by simp)
  -- The schema goes down to the spans: groups, chunks in a group, spans in a chunk.
  have hobjects : ∀ v ∈ groupedSpans payload, v.isObject = true := by
    intro v hv
    rcases List.mem_flatMap.1 hv with ⟨group, hgroup, hv⟩
    rcases List.mem_flatMap.1 hv with ⟨chunk, hchunk, hv⟩
    have hchunks : ∀ chunk ∈ arrayMember group "chunks", traceChunk.Admits chunk :=
      arrayMember_of_admits (hgroups group hgroup) (by simp) (by simp)
    have hspans : ∀ span ∈ arrayMember chunk "spans", agentSpan.Admits span :=
      arrayMember_of_admits (hchunks chunk hchunk) (by simp) (by simp)
    exact Admits.isObject_of_structured (hspans v hv)
  have hmember : ∃ member, payload.get? "tracerPayloads" = some member ∧
      (arrayOf tracerPayload).Admits member :=
    Admits.member h (by simp) (by simp)
  rcases hmember with ⟨member, hmember, hadmits⟩
  rcases hadmits.arrayOf with ⟨groups, rfl, -⟩
  rw [decodeAgentV02_ok hmember, Readable]
  constructor
  · intro hall v hv
    exact (hall v hv).2
  · intro hall v hv
    exact ⟨hobjects v hv, hall v hv⟩

/-- A payload that satisfies the schema of its format decodes when its numbers are readable. -/
theorem decodeSpans_of_admits {format : TraceFormat} {payload : Json}
    (h : (schemaOf format).schema.Admits payload) :
    (∃ spans, decodeSpans format payload = .ok spans) ↔ Readable format payload := by
  cases format with
  | libraryV04 => exact decodeV04_of_admits h
  | libraryV05 => exact decodeV05_of_admits h
  | agentV02 => exact decodeAgentV02_of_admits h

end Schema

/-! ## Records -/

/-- The endpoint of a format. -/
def TraceFormat.endpoint : TraceFormat → String
  | .libraryV04 => "/v0.4/traces"
  | .libraryV05 => "/v0.5/traces"
  | .agentV02 => "/api/v0.2/traces"

theorem TraceFormat.path_of_ofEndpoint? {path : String} {format : TraceFormat}
    (h : ofEndpoint? path = some format) : path = format.endpoint := by
  unfold ofEndpoint? at h
  split at h
  · cases h
    assumption
  · split at h
    · cases h
      assumption
    · split at h
      · cases h
        assumption
      · cases h

/-- A record on an endpoint of a format is checked against the schema of this format, or it is not
checked. -/
theorem select_of_ofEndpoint? {path : String} {format : TraceFormat}
    (hformat : TraceFormat.ofEndpoint? path = some format) (source : Source)
    (payload : Option Json) :
    Selection.select source path payload = .skip ∨
      Selection.select source path payload = .schema (Schema.schemaOf format) := by
  have hpath : path = format.endpoint := TraceFormat.path_of_ofEndpoint? hformat
  have hlibrary : Selection.library path payload = .skip ∨
      Selection.library path payload = .schema (Schema.schemaOf format) := by
    cases format with
    | libraryV04 => exact Or.inr (by simp [Selection.library, hformat, Schema.schemaOf])
    | libraryV05 => exact Or.inr (by simp [Selection.library, hformat, Schema.schemaOf])
    | agentV02 =>
      rw [hpath]
      exact Or.inl rfl
  have hagent : Selection.agent path payload = .skip ∨
      Selection.agent path payload = .schema (Schema.schemaOf format) := by
    cases format with
    | agentV02 => exact Or.inr (by simp [Selection.agent, hformat, Schema.schemaOf])
    | libraryV04 =>
      rw [hpath]
      exact Or.inl rfl
    | libraryV05 =>
      rw [hpath]
      exact Or.inl rfl
  cases source with
  | library => exact hlibrary
  | buddy n => exact hlibrary
  | agent => exact hagent
  | backend => exact Or.inl rfl
  | openTelemetry => exact Or.inl rfl

/-- A record that is checked without violations has a payload that its schema admits. -/
theorem admits_of_clean {record : Record} {format : TraceFormat} {payload : Json}
    (hformat : TraceFormat.ofEndpoint? record.path = some format)
    (hpayload : record.json? = some payload) (hclean : Violation.ofRecord? record = some []) :
    (Schema.schemaOf format).schema.Admits payload := by
  have hcontent : record.payload.content = .json payload := by
    cases hcontent : record.payload.content <;>
      simp_all [Record.json?, Payload.json?]
  -- A record that is not checked has no list of violations at all.
  rcases select_of_ofEndpoint? hformat record.source record.json? with hskip | hschema
  · simp [Violation.ofRecord?, hskip] at hclean
  · simp [Violation.ofRecord?, hschema, hcontent] at hclean
    exact ⟨[], hclean⟩

/-- A trace payload that is checked without violations decodes when all its ids have 64 bits and all
its indices lie in their table, and only then. -/
theorem decodes_iff_readable {record : Record} {format : TraceFormat} {payload : Json}
    (hformat : TraceFormat.ofEndpoint? record.path = some format)
    (hpayload : record.json? = some payload) (hclean : Violation.ofRecord? record = some []) :
    (∃ spans, decodeSpans format payload = .ok spans) ↔ Readable format payload := by
  have hadmits := admits_of_clean hformat hpayload hclean
  exact Schema.decodeSpans_of_admits hadmits

/-! ## Accepted payloads that do not decode -/

/-- A span of a library, with any value as its trace id. -/
def librarySpanWith (traceId : Json) : Json :=
  .obj
    [ ("duration", .nat 1), ("name", .str "n"), ("resource", .str "r"), ("service", .str "s"),
      ("span_id", .nat 2), ("start", .nat 0), ("trace_id", traceId) ]

/-- A span of the agent, with any value as its trace id. -/
def agentSpanWith (traceId : Json) : Json :=
  .obj
    [ ("duration", .nat 1), ("name", .str "n"), ("resource", .str "r"), ("service", .str "s"),
      ("spanID", .nat 2), ("start", .nat 0), ("traceID", traceId) ]

/-- A payload of the agent with one span. -/
def agentPayload (span : Json) : Json :=
  .obj
    [ ("env", .str "e"), ("hostName", .str "h"),
      ("tracerPayloads", .arr [.obj [("chunks", .arr [.obj [("spans", .arr [span])]])]]) ]

/-- A row whose texts are all the entry `index` of a table of one text. -/
def tablePayload (index : Json) : Json :=
  .arr
    [ .arr [.str "s"],
      .arr [.arr [.arr [index, index, index, .nat 1, .nat 2, .nat 0, .nat 0, .nat 1, .nat 0,
        .obj [], .obj [], index]]] ]

/-- A request that carries a payload in a format. -/
def requestWith (source : Source) (format : TraceFormat) (payload : Json) : Record :=
  Record.made source format.endpoint (Payload.ofJson payload) default

theorem decodes_iff_readable_plain :
    (∃ spans, decodeSpans .libraryV04 (.arr [.arr [librarySpanWith (.nat 1)]]) = .ok spans) ↔
      Readable .libraryV04 (.arr [.arr [librarySpanWith (.nat 1)]]) :=
  @decodes_iff_readable (requestWith .library .libraryV04 (.arr [.arr [librarySpanWith (.nat 1)]]))
    .libraryV04 (.arr [.arr [librarySpanWith (.nat 1)]]) rfl rfl (by decide +kernel)

/-- An id that is written as `1.0`, an index beyond the table, and an id of more than 64 bits pass
the check, and do not decode. -/
theorem accepted_undecodable :
    (Violation.ofRecord? (requestWith .library .libraryV04
        (.arr [.arr [librarySpanWith (.num (.double (Double.ofNat 1)))]])) = some [] ∧
      ∃ fault, decodeSpans .libraryV04
        (.arr [.arr [librarySpanWith (.num (.double (Double.ofNat 1)))]]) = .error fault) ∧
    (Violation.ofRecord? (requestWith .library .libraryV05 (tablePayload (.nat 1))) = some [] ∧
      ∃ fault, decodeSpans .libraryV05 (tablePayload (.nat 1)) = .error fault) ∧
    (Violation.ofRecord? (requestWith .agent .agentV02
        (agentPayload (agentSpanWith (.str "18446744073709551616")))) = some [] ∧
      ∃ fault, decodeSpans .agentV02
        (agentPayload (agentSpanWith (.str "18446744073709551616"))) = .error fault) := by
  refine ⟨⟨?_, _, rfl⟩, ⟨?_, _, rfl⟩, ?_, _, rfl⟩
  · decide +kernel
  · decide +kernel
  · decide +kernel

end TraceAudit
