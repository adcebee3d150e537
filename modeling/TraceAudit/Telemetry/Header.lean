import TraceAudit.Trace.Decode

/-!
# Telemetry messages

Every telemetry message starts with the same members. `TelemetryHeader.ofJson` reads them; the
declared version and the kind of request are required, the rest may be missing.
-/

namespace TraceAudit

/-- The members that every telemetry message shares. -/
structure TelemetryHeader where
  apiVersion : String
  requestType : String
  seqId : Option Nat
  runtimeId : Option String
  tracerTime : Option Int
deriving DecidableEq, Repr

namespace TelemetryHeader

/-- A required text member of a telemetry message. -/
def requiredText (payload : Json) (field : String) : Except DecodeError String :=
  match (payload.get? field).bind Json.asString? with
  | some text => .ok text
  | none => .error (.missingField "telemetry message" field)

/-- Read the shared members of a telemetry message. -/
def ofJson (payload : Json) : Except DecodeError TelemetryHeader := do
  let apiVersion ← requiredText payload "api_version"
  let requestType ← requiredText payload "request_type"
  .ok
    { apiVersion
      requestType
      seqId := (payload.get? "seq_id").bind Json.lenientU64?
      runtimeId := (payload.get? "runtime_id").bind Json.asString?
      tracerTime := (payload.get? "tracer_time").bind Json.lenientI64? }

end TelemetryHeader
end TraceAudit
