import TraceAudit.Schema.Catalog
import TraceAudit.Source
import TraceAudit.Trace.Span

/-!
# Which schema governs a record

The schema is chosen by what a record says about itself: its source, its endpoint and, for
telemetry, the version that its payload declares. A trace endpoint of a library and a telemetry
message that claim a version without schema are `Selection.unsupported`; the agent's endpoints are
told apart by their names only, so its traces of other versions are skipped like everything else
that no schema is about.
-/

namespace TraceAudit

/-- Why no schema covers a record that claims a versioned format. -/
inductive Unsupported where
  | traceVersion (version : String)
  | telemetryVersion (version : String)
  | undeclaredTelemetry
deriving DecidableEq, Repr

/-- The wording of a claim that no schema covers. -/
def Unsupported.message : Unsupported → String
  | .traceVersion version => s!"trace payload version '{version}' has no schema"
  | .telemetryVersion version =>
    s!"telemetry api_version '{version}' is not one of [\"v1\", \"v2\"]"
  | .undeclaredTelemetry => "telemetry message declares no api_version"

/-- The schema that governs a record, if any. -/
inductive Selection where
  | schema (name : SchemaName)
  | unsupported (reason : Unsupported)
  | skip
deriving DecidableEq, Repr

namespace Selection

def libraryTelemetryPath : String := "/telemetry/proxy/api/v2/apmtelemetry"

def agentTelemetryPath : String := "/api/v2/apmtelemetry"

def pipelineStatsPath : String := "/v0.1/pipeline_stats"

/-- The version in a trace endpoint of a library: `v0.7` in `/v0.7/traces`. -/
def endpointVersion? (path : String) : Option String := do
  let rest ← ['/'].isPrefixOf? path.toList
  let version ← "/traces".toList.isSuffixOf? rest
  let numbers ← ['v'].isPrefixOf? version
  let (major, minor) ← Text.splitOnce '.' numbers
  let numeric (text : List Char) : Bool := !text.isEmpty && text.all Text.isDigit
  if numeric major ∧ numeric minor then some (String.ofList version) else none

/-- The schema of a telemetry message. A payload that is no JSON is left to the check against the
newest version, which reports it. -/
def telemetry (payload : Option Json) : Selection :=
  match payload with
  | none => .schema .telemetryV2
  | some value =>
    match (value.get? "api_version").bind Json.asString? with
    | none => .unsupported .undeclaredTelemetry
    | some version =>
      if version = "v1" then .schema .telemetryV1
      else if version = "v2" then .schema .telemetryV2
      else .unsupported (.telemetryVersion version)

/-- The schema of a record from a library. -/
def library (path : String) (payload : Option Json) : Selection :=
  match TraceFormat.ofEndpoint? path with
  | some .libraryV04 => .schema .libraryTracesV04
  | some .libraryV05 => .schema .libraryTracesV05
  | _ =>
    match endpointVersion? path with
    | some version => .unsupported (.traceVersion version)
    | none =>
      if path = pipelineStatsPath then .schema .libraryPipelineStats
      else if path = libraryTelemetryPath then telemetry payload
      else .skip

/-- The schema of a record from the agent. -/
def agent (path : String) (payload : Option Json) : Selection :=
  if TraceFormat.ofEndpoint? path = some .agentV02 then .schema .agentTraces
  else if path = agentTelemetryPath then telemetry payload
  else .skip

def select (source : Source) (path : String) (payload : Option Json) : Selection :=
  match source with
  | .library | .buddy _ => library path payload
  | .agent => agent path payload
  | .backend | .openTelemetry => .skip

end Selection
end TraceAudit
