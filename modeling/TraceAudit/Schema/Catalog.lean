import TraceAudit.Schema.Basic

/-!
# The schemas of the wire formats

One schema for every wire format that is checked, under a `SchemaName`:

* trace payloads of libraries in two formats, and pipeline statistics;
* trace payloads of the agent;
* telemetry messages in two versions.

`SchemaName.schema` gives the schema of a name. The members of `properties` stand in the order of
their keys.
-/

namespace TraceAudit

/-- The name of a schema. -/
inductive SchemaName where
  | libraryTracesV04
  | libraryTracesV05
  | libraryPipelineStats
  | agentTraces
  | telemetryV1
  | telemetryV2
deriving DecidableEq, Repr

namespace SchemaName

def text : SchemaName → String
  | .libraryTracesV04 => "library/v0.4-traces"
  | .libraryTracesV05 => "library/v0.5-traces"
  | .libraryPipelineStats => "library/v0.1-pipeline-stats"
  | .agentTraces => "agent/v0.2-traces"
  | .telemetryV1 => "telemetry/v1"
  | .telemetryV2 => "telemetry/v2"

/-- All names, in the order of their written forms. -/
def listing : List SchemaName :=
  [ .agentTraces, .libraryPipelineStats, .libraryTracesV04, .libraryTracesV05, .telemetryV1,
    .telemetryV2 ]

end SchemaName

namespace Schema

/-! ## Building blocks -/

def string : Schema := .type [.string]

def number : Schema := .type [.number]

def integer : Schema := .type [.integer]

def atLeast (bound : Int) : Schema := .all [.type [.integer], .minimum bound]

def object : Schema := .type [.object]

def name : Schema := .all [.type [.string], .nonEmpty]

def arrayOf (schema : Schema) : Schema := .all [.type [.array], .items schema]

def mapOf (schema : Schema) : Schema := .all [.type [.object], .members schema]

/-- An object with required members and constraints on some of its members. -/
def structured (required : List String) (properties : List (String × Schema)) : Schema :=
  .all [.type [.object], .required required, .properties properties]

def errorMark : Schema := .all [.type [.integer], .enum [.int 0, .int 1]]

/-! ## Trace payloads of libraries -/

/-- An id: any 64-bit number, signed or unsigned. -/
def numericId : Schema :=
  .all [.type [.integer], .minimum (-9223372036854775808), .maximum 18446744073709551615]

/-- A span of a library, as an object. -/
def librarySpan : Schema :=
  structured ["trace_id", "span_id", "name", "service", "resource", "start", "duration"]
    [ ("duration", atLeast 0),
      ("error", errorMark),
      ("meta", mapOf string),
      ("meta_struct", object),
      ("metrics", mapOf number),
      ("name", name),
      ("parent_id", numericId),
      ("resource", string),
      ("service", string),
      ("span_id", numericId),
      ("start", atLeast 0),
      ("trace_id", numericId),
      ("type", .type [.null, .string]) ]

def libraryTracesV04 : Schema := arrayOf (arrayOf librarySpan)

def indexedMap (schema : Schema) : Schema :=
  .all [.type [.object], .members schema, .keys .digits]

/-- A span of a library, as a row over a string table. -/
def rowSpan : Schema :=
  .all
    [ .type [.array], .minItems 12, .maxItems 12,
      .leading
        [ atLeast 0, atLeast 0, atLeast 0, numericId, numericId, numericId, atLeast 0, atLeast 0,
          errorMark, indexedMap (atLeast 0), indexedMap number, atLeast 0 ] ]

def libraryTracesV05 : Schema :=
  .all
    [ .type [.array], .minItems 2, .maxItems 2,
      .leading [arrayOf string, arrayOf (arrayOf rowSpan)] ]

/-! ## Pipeline statistics -/

/-- A latency sketch, which is not looked into. -/
def sketch : Schema := .type [.null, .object, .string]

/-- The statistics of one path through a pipeline. -/
def pathwayStats : Schema :=
  structured ["EdgeTags", "Hash", "ParentHash"]
    [ ("EdgeLatency", sketch),
      ("EdgeTags", arrayOf string),
      ("Hash", integer),
      ("ParentHash", integer),
      ("PathwayLatency", sketch),
      ("TimestampType",
        .all [.type [.string], .enum [.str "current", .str "origin"]]) ]

def windowStats : Schema :=
  structured ["Start", "Duration", "Stats"]
    [ ("Duration", atLeast 0),
      ("Start", atLeast 0),
      ("Stats", arrayOf pathwayStats) ]

def libraryPipelineStats : Schema :=
  structured ["Env", "Service", "Stats"]
    [ ("Env", string),
      ("Lang", string),
      ("Service", string),
      ("Stats", arrayOf windowStats),
      ("TracerVersion", string),
      ("Version", string) ]

/-! ## Trace payloads of the agent -/

/-- An id: an integer or a text of one. -/
def textualId : Schema := .all [.type [.integer, .string], .pattern .signedDigits]

def agentSpan : Schema :=
  structured ["traceID", "spanID", "name", "service", "resource", "start", "duration"]
    [ ("duration", .type [.integer, .string]),
      ("error", errorMark),
      ("meta", mapOf string),
      ("metrics", mapOf number),
      ("name", name),
      ("parentID", textualId),
      ("resource", string),
      ("service", string),
      ("spanID", textualId),
      ("start", .type [.integer, .string]),
      ("traceID", textualId),
      ("type", string) ]

def traceChunk : Schema :=
  structured ["spans"]
    [ ("droppedTrace", .type [.boolean]),
      ("origin", string),
      ("priority", integer),
      ("spans", arrayOf agentSpan) ]

def tracerPayload : Schema :=
  structured ["chunks"]
    [ ("appVersion", string),
      ("chunks", arrayOf traceChunk),
      ("containerID", string),
      ("env", string),
      ("hostname", string),
      ("languageName", string),
      ("languageVersion", string),
      ("runtimeID", string),
      ("tracerVersion", string) ]

def agentTraces : Schema :=
  structured ["hostName", "env", "tracerPayloads"]
    [ ("agentVersion", string),
      ("env", string),
      ("errorTPS", number),
      ("hostName", string),
      ("tags", mapOf string),
      ("targetTPS", number),
      ("tracerPayloads", arrayOf tracerPayload) ]

/-! ## Telemetry -/

def application : Schema :=
  structured ["service_name", "language_name", "language_version", "tracer_version"]
    [ ("env", string),
      ("language_name", string),
      ("language_version", string),
      ("runtime_name", string),
      ("runtime_version", string),
      ("service_name", string),
      ("service_version", string),
      ("tracer_version", string) ]

def requestType (names : List String) : Schema :=
  .all [.type [.string], .enum (names.map .str)]

def telemetryV1 : Schema :=
  structured
    ["api_version", "request_type", "tracer_time", "runtime_id", "seq_id", "application",
      "payload"]
    [ ("api_version", .const "v1"),
      ("application", application),
      ("debug", .type [.boolean]),
      ("host", object),
      ("payload", .type [.array, .null, .object]),
      ("request_type", requestType
        [ "app-started", "app-closing", "app-heartbeat", "app-dependencies-loaded",
          "app-integrations-change", "generate-metrics" ]),
      ("runtime_id", name),
      ("seq_id", atLeast 1),
      ("tracer_time", atLeast 0) ]

def host : Schema :=
  structured ["hostname"]
    [ ("architecture", string),
      ("hostname", string),
      ("kernel_name", string),
      ("kernel_release", string),
      ("kernel_version", string),
      ("os", string),
      ("os_version", string) ]

/-- The value, if it is a telemetry message of one kind, declares that kind. -/
def requestTypeIs (kind : String) : Schema := .properties [("request_type", .const kind)]

/-- The payload of a batch: messages that declare their kind. -/
def batchPayload : Schema :=
  arrayOf (structured ["request_type"] [("payload", anything), ("request_type", string)])

/-- A telemetry message of version 2. A batch has a payload of messages, and every message but a
heartbeat has a payload. -/
def telemetryV2 : Schema :=
  .all
    [ structured
        ["api_version", "request_type", "tracer_time", "runtime_id", "seq_id", "application",
          "host"]
        [ ("api_version", .const "v2"),
          ("application", application),
          ("debug", .type [.boolean]),
          ("host", host),
          ("naming_schema_version", string),
          ("payload", anything),
          ("request_type", requestType
            [ "app-started", "app-closing", "app-heartbeat", "app-extended-heartbeat",
              "app-dependencies-loaded", "app-integrations-change",
              "app-client-configuration-change", "app-product-change", "generate-metrics",
              "distributions", "logs", "message-batch" ]),
          ("runtime_id", name),
          ("seq_id", atLeast 1),
          ("tracer_time", atLeast 0) ],
      .branch (requestTypeIs "message-batch")
        (.all [.required ["payload"], .properties [("payload", batchPayload)]])
        anything,
      .branch (requestTypeIs "app-heartbeat") anything (.required ["payload"]) ]

end Schema

def SchemaName.schema : SchemaName → Schema
  | .libraryTracesV04 => Schema.libraryTracesV04
  | .libraryTracesV05 => Schema.libraryTracesV05
  | .libraryPipelineStats => Schema.libraryPipelineStats
  | .agentTraces => Schema.agentTraces
  | .telemetryV1 => Schema.telemetryV1
  | .telemetryV2 => Schema.telemetryV2

end TraceAudit
