import Mathlib.Data.List.Infix
import TraceAudit.Proofs.Schema.Decoding
import TraceAudit.Proofs.Text.Cutting

/-!
# Declared wire formats

A record on a trace endpoint or a telemetry endpoint says in which version of the format it is
written.

* `Declares` says which `WireFormat` a record claims, `WireFormat.schema?` is the schema of exactly
  this format;
* `select_of_declares` says what is made of each claim;
* `declared_format_checked` says when a claim is checked at all, and what it takes to pass. The
  trace endpoints of the agent are the exception: `agent_version_skipped`.
-/

namespace TraceAudit

/-! ## Versions in endpoints -/

namespace Text

/-- One ASCII digit or more. -/
def IsNumeral (text : List Char) : Prop := text ≠ [] ∧ text.all isDigit = true

theorem IsNumeral.notMem_dot {text : List Char} (h : IsNumeral text) : '.' ∉ text := by
  intro hmem
  have hdigit : isDigit '.' = true := List.all_eq_true.1 h.2 '.' hmem
  cases hdigit

end Text

/-- A version as endpoints write it: two numbers behind a `v`. -/
def IsVersion (version : String) : Prop :=
  ∃ major minor : List Char, Text.IsNumeral major ∧ Text.IsNumeral minor ∧
    version.toList = 'v' :: (major ++ '.' :: minor)

namespace Selection

/-- The trace endpoint of a library for a version. -/
def libraryTracesPath (version : String) : String := "/" ++ version ++ "/traces"

/-- The trace endpoint of the agent for a version. -/
def agentTracesPath (version : String) : String := "/api/" ++ version ++ "/traces"

theorem libraryTracesPath_inj {version version' : String} :
    libraryTracesPath version = libraryTracesPath version' ↔ version = version' := by
  simp [libraryTracesPath, ← String.toList_inj]

theorem agentTracesPath_inj {version version' : String} :
    agentTracesPath version = agentTracesPath version' ↔ version = version' := by
  simp [agentTracesPath, ← String.toList_inj]

theorem endpointVersion?_of_isVersion {version : String} (h : IsVersion version) :
    endpointVersion? (libraryTracesPath version) = some version := by
  rcases h with ⟨major, minor, hmajor, hminor, htext⟩
  have hpath : (libraryTracesPath version).toList =
      '/' :: (version.toList ++ "/traces".toList) := by
    simp [libraryTracesPath]
  have hslash : ['/'].isPrefixOf? (libraryTracesPath version).toList =
      some (version.toList ++ "/traces".toList) := by
    rw [hpath, List.isPrefixOf?_eq_some_iff_append_eq]
    rfl
  have hsuffix : "/traces".toList.isSuffixOf? (version.toList ++ "/traces".toList) =
      some version.toList := List.isSuffixOf?_eq_some_iff_append_eq.2 rfl
  have hv : ['v'].isPrefixOf? version.toList = some (major ++ '.' :: minor) := by
    rw [htext, List.isPrefixOf?_eq_some_iff_append_eq]
    rfl
  have hdot : Text.splitOnce '.' (major ++ '.' :: minor) = some (major, minor) :=
    Text.splitOnce_append hmajor.notMem_dot
  have hnumeric : ((!major.isEmpty && major.all Text.isDigit) = true) ∧
      (!minor.isEmpty && minor.all Text.isDigit) = true := by
    simp only [Bool.and_eq_true, Bool.not_eq_true', List.isEmpty_eq_false_iff]
    exact ⟨hmajor, hminor⟩
  unfold endpointVersion?
  simp only [hslash, hsuffix, hv, hdot, Option.bind_eq_bind, Option.bind_some, if_pos hnumeric,
    String.ofList_toList]

/-- On a trace endpoint, the two versions with a schema are checked, and all others are reported. -/
theorem library_tracesPath {version : String} (h : IsVersion version) (payload : Option Json) :
    library (libraryTracesPath version) payload =
      if version = "v0.4" then .schema .libraryTracesV04
      else if version = "v0.5" then .schema .libraryTracesV05
      else .unsupported (.traceVersion version) := by
  have hdeclared := endpointVersion?_of_isVersion h
  by_cases hv04 : version = "v0.4"
  · rw [if_pos hv04, hv04]
    rfl
  · by_cases hv05 : version = "v0.5"
    · rw [if_neg hv04, if_pos hv05, hv05]
      rfl
    · rw [if_neg hv04, if_neg hv05]
      -- Neither of the two endpoints of libraries is meant.
      have h04 : libraryTracesPath version ≠ "/v0.4/traces" := fun heq =>
        hv04 (libraryTracesPath_inj.1 heq)
      have h05 : libraryTracesPath version ≠ "/v0.5/traces" := fun heq =>
        hv05 (libraryTracesPath_inj.1 heq)
      simp only [library, TraceFormat.ofEndpoint?, if_neg h04, if_neg h05, hdeclared]
      split <;> simp_all

theorem agentTracesPath_ne_telemetry (version : String) :
    agentTracesPath version ≠ agentTelemetryPath := by
  intro heq
  -- The last characters of the two endpoints differ.
  have hlast := congrArg (fun path => path.toList.reverse.head?) heq
  simp [agentTracesPath, agentTelemetryPath] at hlast

/-- On a trace endpoint of the agent, all versions but one are skipped. -/
theorem agent_tracesPath (version : String) (payload : Option Json) :
    agent (agentTracesPath version) payload =
      if version = "v0.2" then .schema .agentTraces else .skip := by
  by_cases hv02 : version = "v0.2"
  · rw [if_pos hv02, hv02]
    rfl
  · have hpath : agentTracesPath version ≠ "/api/v0.2/traces" := fun heq =>
      hv02 (agentTracesPath_inj.1 heq)
    have hformat : TraceFormat.ofEndpoint? (agentTracesPath version) ≠ some .agentV02 :=
      fun heq => hpath (TraceFormat.path_of_ofEndpoint? heq)
    rw [agent, if_neg hformat, if_neg (agentTracesPath_ne_telemetry version), if_neg hv02]

end Selection

/-! ## Claims of records -/

/-- A wire format as a record names it. -/
inductive WireFormat where
  | libraryTraces (version : String)
  | agentTraces (version : String)
  /-- A telemetry message, which may declare no version. -/
  | telemetry (version : Option String)
deriving DecidableEq, Repr

/-- The schema of exactly this format, if there is one. -/
def WireFormat.schema? : WireFormat → Option SchemaName
  | .libraryTraces version =>
    if version = "v0.4" then some .libraryTracesV04
    else if version = "v0.5" then some .libraryTracesV05
    else none
  | .agentTraces version => if version = "v0.2" then some .agentTraces else none
  | .telemetry (some version) =>
    if version = "v1" then some .telemetryV1
    else if version = "v2" then some .telemetryV2
    else none
  | .telemetry none => none

/-- The source sends what a library sends. -/
def Source.IsLibrary (source : Source) : Prop := source = .library ∨ ∃ n, source = .buddy n

/-- The version that a payload declares as telemetry. -/
def telemetryVersion? (payload : Option Json) : Option String :=
  payload.bind fun value => (value.get? "api_version").bind Json.asString?

/-- The record is on a versioned endpoint of its side, and claims this format by its endpoint and,
for telemetry, by its payload. -/
inductive Declares (r : Record) : WireFormat → Prop
  | libraryTraces {version : String} : r.source.IsLibrary → IsVersion version →
      r.path = Selection.libraryTracesPath version → Declares r (.libraryTraces version)
  | agentTraces {version : String} : r.source = .agent → IsVersion version →
      r.path = Selection.agentTracesPath version → Declares r (.agentTraces version)
  | libraryTelemetry : r.source.IsLibrary → r.path = Selection.libraryTelemetryPath →
      Declares r (.telemetry (telemetryVersion? r.json?))
  | agentTelemetry : r.source = .agent → r.path = Selection.agentTelemetryPath →
      Declares r (.telemetry (telemetryVersion? r.json?))

namespace Selection

theorem select_of_isLibrary {source : Source} (h : source.IsLibrary) (path : String)
    (payload : Option Json) : select source path payload = library path payload := by
  rcases h with rfl | ⟨n, rfl⟩
  · rfl
  · rfl

/-- What is made of a claim: it is checked by the schema of exactly this format, or reported where
there is none. Two claims fare differently. A telemetry message that is no JSON is left to a schema,
and versions of the agent's traces without schema are skipped. -/
inductive Answers (r : Record) : WireFormat → Selection → Prop
  | schema {w : WireFormat} {name : SchemaName} : w.schema? = some name →
      Answers r w (.schema name)
  | unsupported {w : WireFormat} (reason : Unsupported) : w.schema? = none →
      (∀ version, w ≠ .agentTraces version) → Answers r w (.unsupported reason)
  | undecoded : r.json? = none → Answers r (.telemetry none) (.schema .telemetryV2)
  | skipped {version : String} : version ≠ "v0.2" → Answers r (.agentTraces version) .skip

theorem answers_telemetry (r : Record) :
    Answers r (.telemetry (telemetryVersion? r.json?)) (telemetry r.json?) := by
  cases hpayload : r.json? with
  | none => exact .undecoded hpayload
  | some value =>
    simp only [telemetry, telemetryVersion?, Option.bind_some]
    cases hversion : (value.get? "api_version").bind Json.asString? with
    | none => exact .unsupported _ rfl (by simp)
    | some version =>
      simp only
      by_cases hv1 : version = "v1"
      · rw [if_pos hv1]
        exact .schema (by simp [WireFormat.schema?, hv1])
      · by_cases hv2 : version = "v2"
        · rw [if_neg hv1, if_pos hv2]
          exact .schema (by simp [WireFormat.schema?, hv2])
        · rw [if_neg hv1, if_neg hv2]
          exact .unsupported _ (by simp [WireFormat.schema?, hv1, hv2]) (by simp)

theorem select_of_declares {r : Record} {w : WireFormat} (h : Declares r w) :
    Answers r w (select r.source r.path r.json?) := by
  cases h with
  | @libraryTraces version hsource hversion hpath =>
    rw [select_of_isLibrary hsource, hpath, library_tracesPath hversion]
    by_cases hv04 : version = "v0.4"
    · rw [if_pos hv04]
      exact .schema (by simp [WireFormat.schema?, hv04])
    · by_cases hv05 : version = "v0.5"
      · rw [if_neg hv04, if_pos hv05]
        exact .schema (by simp [WireFormat.schema?, hv05])
      · rw [if_neg hv04, if_neg hv05]
        exact .unsupported _ (by simp [WireFormat.schema?, hv04, hv05]) (by simp)
  | @agentTraces version hsource hversion hpath =>
    rw [hsource, hpath]
    change Answers r _ (agent _ _)
    rw [agent_tracesPath]
    by_cases hv02 : version = "v0.2"
    · rw [if_pos hv02]
      exact .schema (by simp [WireFormat.schema?, hv02])
    · rw [if_neg hv02]
      exact .skipped hv02
  | libraryTelemetry hsource hpath =>
    rw [select_of_isLibrary hsource, hpath]
    exact answers_telemetry r
  | agentTelemetry hsource hpath =>
    rw [hsource, hpath]
    exact answers_telemetry r

end Selection

/-! ## Findings -/

/-- Under a schema a record is always checked, and passes only with JSON that satisfies it. -/
theorem Violation.ofRecord?_of_schema {r : Record} {name : SchemaName}
    (h : Selection.select r.source r.path r.json? = .schema name) :
    ∃ found, ofRecord? r = some found ∧
      (found = [] ↔ ∃ value, r.json? = some value ∧ name.schema.accepts value = true) := by
  unfold ofRecord?
  rw [h]
  cases hcontent : r.payload.content with
  | empty => exact ⟨_, rfl, by simp [Record.json?, Payload.json?, hcontent]⟩
  | raw => exact ⟨_, rfl, by simp [Record.json?, Payload.json?, hcontent]⟩
  | json value =>
    exact ⟨_, rfl, by simp [Record.json?, Payload.json?, hcontent, Schema.accepts]⟩

/-- A record that declares a wire format is checked, except for traces of the agent in a version
other than `v0.2`. Where it is checked, nothing is found only if there is a schema of exactly the
declared format and the payload is JSON that satisfies it. -/
theorem declared_format_checked {r : Record} {w : WireFormat} (h : Declares r w) :
    (Violation.ofRecord? r = none ↔ ∃ version, w = .agentTraces version ∧ version ≠ "v0.2") ∧
    ∀ found, Violation.ofRecord? r = some found →
      (found = [] ↔ ∃ name value, w.schema? = some name ∧ r.json? = some value ∧
        name.schema.accepts value = true) := by
  have hanswers := Selection.select_of_declares h
  generalize hselect : Selection.select r.source r.path r.json? = selection at hanswers
  cases hanswers with
  | @schema _ name hschema =>
    rcases Violation.ofRecord?_of_schema hselect with ⟨found, hfound, hclean⟩
    refine ⟨?_, ?_⟩
    · rw [hfound]
      simp only [reduceCtorEq, false_iff]
      rintro ⟨version, rfl, hne⟩
      rw [WireFormat.schema?, if_neg hne] at hschema
      cases hschema
    · intro found' hfound'
      cases hfound.symm.trans hfound'
      rw [hclean]
      simp [hschema]
  | unsupported reason hschema hnot =>
    have hfound : Violation.ofRecord? r =
        some [Violation.make r "unsupported" "" reason.message] := by
      rw [Violation.ofRecord?, hselect]
    refine ⟨?_, ?_⟩
    · rw [hfound]
      simp only [reduceCtorEq, false_iff]
      rintro ⟨version, heq, -⟩
      exact hnot version heq
    · intro found' hfound'
      cases hfound.symm.trans hfound'
      simp [hschema]
  | undecoded hnone =>
    rcases Violation.ofRecord?_of_schema hselect with ⟨found, hfound, hclean⟩
    refine ⟨by simp [hfound], ?_⟩
    intro found' hfound'
    cases hfound.symm.trans hfound'
    rw [hclean]
    simp [hnone]
  | @skipped version hne =>
    have hfound : Violation.ofRecord? r = none := by rw [Violation.ofRecord?, hselect]
    refine ⟨by simp [hfound, hne], ?_⟩
    intro found hsome
    rw [hfound] at hsome
    cases hsome

/-- A request of a library in a version of its traces that no schema covers. -/
def unknownTraces : Record :=
  Record.made .library "/v0.7/traces" (Payload.ofJson (.arr [])) default

theorem isVersion_v07 : IsVersion "v0.7" :=
  ⟨['0'], ['7'], ⟨by simp, rfl⟩, ⟨by simp, rfl⟩, rfl⟩

theorem declared_format_checked_unknown :
    (Violation.ofRecord? unknownTraces = none ↔
      ∃ version, WireFormat.libraryTraces "v0.7" = .agentTraces version ∧ version ≠ "v0.2") ∧
    ∀ found, Violation.ofRecord? unknownTraces = some found →
      (found = [] ↔ ∃ name value, (WireFormat.libraryTraces "v0.7").schema? = some name ∧
        unknownTraces.json? = some value ∧ name.schema.accepts value = true) :=
  declared_format_checked (.libraryTraces (Or.inl rfl) isVersion_v07 rfl)

/-- A request of the agent in a version of its traces that no schema covers. -/
def unknownAgentTraces : Record :=
  Record.made .agent "/api/v0.7/traces" (Payload.ofJson (.obj [])) default

/-- The agent declares a version without schema, and the record is passed over. -/
theorem agent_version_skipped :
    Declares unknownAgentTraces (.agentTraces "v0.7") ∧
      (WireFormat.agentTraces "v0.7").schema? = none ∧
      unknownAgentTraces.isRequest = true ∧ Violation.ofRecord? unknownAgentTraces = none :=
  ⟨.agentTraces rfl isVersion_v07 rfl, rfl, rfl, rfl⟩

end TraceAudit
