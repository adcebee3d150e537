import TraceAudit.Config.Basic
import TraceAudit.Toml.Document

/-!
# Reading configurations

A configuration is a TOML document with the tables `scenario`, `engine` and `schemas`. A table may
also be given as an array of its values in order. Keys that a table does not have are refused.

* `Config.ofText` reads a text, `Config.load` a file.
-/

namespace TraceAudit

namespace TomlValue

def text? : TomlValue → Option String
  | .string text => some text
  | _ => none

def natural? (max : Nat) : TomlValue → Option Nat
  | .integer i => if 0 ≤ i ∧ i ≤ max then some i.toNat else none
  | _ => none

def duration? : TomlValue → Option Nat := natural? Decimal.maxU64

def boolean? : TomlValue → Option Bool
  | .boolean b => some b
  | _ => none

def texts? : TomlValue → Option (List String)
  | .array items => items.mapM text?
  | _ => none

/-- The members of a table that has no other keys than `keys`. An array gives them by position. -/
def members? (keys : List String) : TomlValue → Option (List (String × TomlValue))
  | .table members => if members.all fun (key, _) => keys.contains key then some members else none
  | .array items => some (keys.zip items)
  | _ => none

end TomlValue

namespace Config

/-- The value under a key, a default when the key is missing. -/
def valueOr {α : Type} (members : List (String × TomlValue)) (key : String)
    (read : TomlValue → Option α) (default : α) : Option α :=
  match Members.find? key members with
  | none => some default
  | some value => read value

def scenario? (value : TomlValue) : Option ScenarioSettings := do
  let default : ScenarioSettings := {}
  let members ← value.members?
    [ "name", "library", "library_version", "weblog_variant", "agent_version", "features",
      "buddies" ]
  let optionalText (key : String) : Option (Option String) :=
    valueOr members key (fun v => v.text?.map some) none
  let name ← valueOr members "name" TomlValue.text? default.name
  let library ← optionalText "library"
  let libraryVersion ← optionalText "library_version"
  let weblogVariant ← optionalText "weblog_variant"
  let agentVersion ← optionalText "agent_version"
  let features ← valueOr members "features" TomlValue.texts? default.features
  let buddies ← valueOr members "buddies" (TomlValue.natural? 255) default.buddies.toNat
  some
    { name, library, libraryVersion, weblogVariant, agentVersion, features,
      buddies := UInt8.ofNat buddies }

def engine? (value : TomlValue) : Option EngineSettings := do
  let default : EngineSettings := {}
  let members ← value.members?
    [ "poll_interval_ms", "quiescence_ms", "timeout_s", "library_timeout_s", "agent_timeout_s",
      "backend_timeout_s", "open_telemetry_timeout_s", "buddies_timeout_s", "timing_fallback" ]
  let duration (key : String) (default : Nat) : Option Nat :=
    valueOr members key TomlValue.duration? default
  let pollIntervalMs ← duration "poll_interval_ms" default.pollIntervalMs
  let quiescenceMs ← duration "quiescence_ms" default.quiescenceMs
  let timeoutS ← duration "timeout_s" default.timeoutS
  let libraryTimeoutS ←
    valueOr members "library_timeout_s" (fun v => v.duration?.map some) default.libraryTimeoutS
  let agentTimeoutS ← duration "agent_timeout_s" default.agentTimeoutS
  let backendTimeoutS ← duration "backend_timeout_s" default.backendTimeoutS
  let openTelemetryTimeoutS ← duration "open_telemetry_timeout_s" default.openTelemetryTimeoutS
  let buddiesTimeoutS ← duration "buddies_timeout_s" default.buddiesTimeoutS
  let timingFallback ←
    valueOr members "timing_fallback" TomlValue.boolean? default.timingFallback
  some
    { pollIntervalMs, quiescenceMs, timeoutS, libraryTimeoutS, agentTimeoutS, backendTimeoutS,
      openTelemetryTimeoutS, buddiesTimeoutS, timingFallback }

def allowedErrors? (value : TomlValue) : Option (List String) := do
  let members ← value.members? ["allowed_errors"]
  valueOr members "allowed_errors" TomlValue.texts? []

def ofToml? (document : List (String × TomlValue)) : Option Config := do
  let members ← (TomlValue.table document).members? ["scenario", "engine", "schemas"]
  let scenario ← valueOr members "scenario" scenario? {}
  let engine ← valueOr members "engine" engine? {}
  let allowedErrors ← valueOr members "schemas" allowedErrors? []
  some { scenario, engine, allowedErrors }

def read (text : String) : Except ConfigFault Config :=
  match (TomlDocument.read? text.toList).bind ofToml? with
  | none => .error .notReadable
  | some config => config.checked

def ofText (text : String) : Except ConfigError Config :=
  (read text).mapError .invalid

def load (disk : Disk) (file : String) : Except ConfigError Config :=
  match disk.readText file with
  | .error fault => .error (.unreadable file fault)
  | .ok text => (read text).mapError (.invalidFile file)

end Config
end TraceAudit
