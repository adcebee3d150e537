import TraceAudit.Disk.Basic
import TraceAudit.Source
import TraceAudit.Text.Detail

/-!
# Configuration

A `Config` says which scenario is under test, how long the engine waits for data, and which schema
violations are tolerated. Every setting has a default, so that the empty configuration is valid.

* `Config.fault?` names the first setting that the engine cannot work with;
* `EngineSettings.timeoutOf` is the time that teardown waits on a source;
* `ConfigError` lists why a configuration is refused.
-/

namespace TraceAudit

/-- The scenario under test, as it is configured. -/
structure ScenarioSettings where
  name : String := "DEFAULT"
  library : Option String := none
  libraryVersion : Option String := none
  weblogVariant : Option String := none
  agentVersion : Option String := none
  features : List String := []
  /-- The number of auxiliary applications, each captured on an interface of its own. -/
  buddies : UInt8 := 0
deriving DecidableEq, Repr, Inhabited

/-- The timing of the engine. -/
structure EngineSettings where
  /-- The delay between two looks at a folder, in milliseconds. -/
  pollIntervalMs : Nat := 200
  /-- How long an interface has to stay silent before its data counts as complete. -/
  quiescenceMs : Nat := 1000
  /-- The bound on the whole teardown wait, in seconds. -/
  timeoutS : Nat := 60
  /-- The teardown wait on the library; when unset, what the library usually takes. -/
  libraryTimeoutS : Option Nat := none
  agentTimeoutS : Nat := 5
  backendTimeoutS : Nat := 0
  openTelemetryTimeoutS : Nat := 0
  buddiesTimeoutS : Nat := 0
  /-- Attribute root spans without a request id to calls by timing. -/
  timingFallback : Bool := false
deriving DecidableEq, Repr, Inhabited

/-- A whole configuration. -/
structure Config where
  scenario : ScenarioSettings := {}
  engine : EngineSettings := {}
  /-- The keys of known schema violations. -/
  allowedErrors : List String := []
deriving DecidableEq, Repr, Inhabited

/-- The time in seconds that a library usually takes to flush its last payloads. -/
def usualFlushS : Option String → Nat
  | some "java" | some "python" => 25
  | some "golang" | some "php" => 10
  | some "nodejs" | some "ruby" => 0
  | _ => 40

/-- The time in seconds that teardown waits on a source when `library` is under test. -/
def EngineSettings.timeoutOf (settings : EngineSettings) (library : Option String) :
    Source → Nat
  | .library => settings.libraryTimeoutS.getD (usualFlushS library)
  | .agent => settings.agentTimeoutS
  | .backend => settings.backendTimeoutS
  | .openTelemetry => settings.openTelemetryTimeoutS
  | .buddy _ => settings.buddiesTimeoutS

/-! ## Refusals -/

/-- What is wrong with a configuration. -/
inductive ConfigFault where
  /-- The text is no TOML, or its tables are not those of a configuration. -/
  | notReadable
  | zeroPollInterval
  | libraryWithVersion (library : String)
  | keyWithoutPointer (key : String)
deriving DecidableEq, Repr

def ConfigFault.message (detail : Detail) : ConfigFault → String
  | .notReadable => detail.tell "not a configuration in TOML"
  | .zeroPollInterval => "engine.poll_interval_ms must be greater than zero"
  | .libraryWithVersion library => s!"scenario.library '{library}' must not contain '@'"
  | .keyWithoutPointer key => s!"allowed error '{key}' must have the form <path>#<pointer>"

/-- Why there is no configuration: a fault, possibly found in a file, or a file that cannot be
read. -/
inductive ConfigError where
  | invalid (fault : ConfigFault)
  | invalidFile (file : String) (fault : ConfigFault)
  | unreadable (file : String) (fault : DiskFault)
deriving DecidableEq, Repr

def ConfigError.message (detail : Detail) : ConfigError → String
  | .invalid fault => s!"invalid configuration: {fault.message detail}"
  | .invalidFile file fault =>
    s!"invalid configuration: could not parse '{file}': {fault.message detail}"
  | .unreadable file fault => s!"failed to access {file}: {fault.message}"

namespace Config

/-- The first setting that the engine cannot work with. -/
def fault? (config : Config) : Option ConfigFault :=
  if config.engine.pollIntervalMs = 0 then some .zeroPollInterval
  else
    match config.scenario.library.filter fun library => library.toList.contains '@' with
    | some library => some (.libraryWithVersion library)
    | none =>
      (config.allowedErrors.find? fun key => !key.toList.contains '#').map .keyWithoutPointer

/-- The configuration itself, unless the engine cannot work with it. -/
def checked (config : Config) : Except ConfigFault Config :=
  match config.fault? with
  | some fault => .error fault
  | none => .ok config

end Config
end TraceAudit
