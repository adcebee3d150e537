import TraceAudit.CommandLine.Arguments
import TraceAudit.Config.Reading
import TraceAudit.Scenario

/-!
# Invocations

An `Invocation` is a command to run and how to report on it. `Invocation.ofArguments` reads it from
the arguments of the command line; the options of all commands may stand in front of the command
and behind it.

`ConfigOptions.resolve` gives the configuration that results from a file and the options that
override it.
-/

namespace TraceAudit

/-- The form of the answer. -/
inductive OutputForm where
  | text
  | json
deriving DecidableEq, Repr

/-- How to report. -/
structure Reporting where
  form : OutputForm
  /-- Leave out what is not essential. -/
  quiet : Bool
deriving DecidableEq, Repr

/-- A configuration file and the options that override it. -/
structure ConfigOptions where
  file : Option String
  /-- The library under test, possibly with a version behind an at sign. -/
  library : Option String
  timeoutS : Option Nat
  pollIntervalMs : Option Nat
  allowErrors : List String
deriving DecidableEq, Repr

/-- A command to run. -/
inductive Command where
  /-- Evaluate the log folder of a finished run again. -/
  | replay (logFolder : String) (options : ConfigOptions)
  /-- Follow a log folder that a proxy is writing to. -/
  | watch (logFolder : String) (options : ConfigOptions)
  /-- Check every record of one log file against its schema. -/
  | validate (file : String) (source : Source) (allowErrors : List String)
  /-- Summarize what a log folder holds. -/
  | inspect (logFolder : String)
  /-- List the spans of a request id. -/
  | spans (logFolder requestId : String) (fullTrace : Bool) (source : Source)
deriving DecidableEq, Repr

/-- A command and how to report on it. -/
structure Invocation where
  reporting : Reporting
  command : Command
deriving DecidableEq, Repr

/-! ## Configuration -/

namespace ConfigOptions

/-- The settings of a scenario for the library `text`, possibly with a version. -/
def withLibrary (settings : ScenarioSettings) (text : String) : ScenarioSettings :=
  match Text.splitOnce '@' text.toList with
  | some (name, version) =>
    { settings with
      library := some (String.ofList name)
      libraryVersion := some (String.ofList version) }
  | none => { settings with library := some text, libraryVersion := none }

/-- A configuration with the options in the place of its own settings. -/
def override (options : ConfigOptions) (config : Config) : Config :=
  let scenario := match options.library with
    | some text => withLibrary config.scenario text
    | none => config.scenario
  { scenario
    engine :=
      { config.engine with
        timeoutS := options.timeoutS.getD config.engine.timeoutS
        pollIntervalMs := options.pollIntervalMs.getD config.engine.pollIntervalMs }
    allowedErrors := config.allowedErrors ++ options.allowErrors }

/-- The configuration of a file, or the default one, with the options in place. -/
def resolve (options : ConfigOptions) (disk : Disk) : Except ConfigError Config := do
  let config ← match options.file with
    | some file => Config.load disk file
    | none => .ok {}
  (options.override config).checked.mapError .invalid

end ConfigOptions

/-! ## Reading the arguments -/

namespace Invocation

def base : Level :=
  { commands := [], single := ["output"], repeated := [], switches := ["quiet"], operands := 0,
    hasVersion := false }

def top : Level :=
  { base with commands := ["replay", "watch", "validate", "inspect", "spans"], hasVersion := true }

def levelOf (command : String) : Level :=
  match command with
  | "replay" | "watch" =>
    { base with
      single := base.single ++ ["config", "library", "timeout", "poll-interval-ms"]
      repeated := ["allow-error"], operands := 1 }
  | "validate" =>
    { base with single := base.single ++ ["source"], repeated := ["allow-error"], operands := 1 }
  | "spans" =>
    { base with
      single := base.single ++ ["rid", "source"], switches := base.switches ++ ["full-trace"]
      operands := 1 }
  | _ => { base with operands := 1 }

/-- The options of a configuration that were given. -/
def configOptions (g : Given) : ConfigOptions :=
  let number (name : String) : Option Nat := (g.value? name).bind fun v => Decimal.u64? v.toList
  { file := g.value? "config"
    library := g.value? "library"
    timeoutS := number "timeout"
    pollIntervalMs := number "poll-interval-ms"
    allowErrors := g.allValues "allow-error" }

/-- The source that was given, the library by default. -/
def sourceOf (g : Given) : Source := ((g.value? "source").bind Source.ofName?).getD .library

/-- The command of a name and what was given behind it; nothing when something required lacks. -/
def commandOf? (name : String) (g : Given) : Option Command := do
  let path ← g.operands.head?
  match name with
  | "replay" => some (.replay path (configOptions g))
  | "watch" => some (.watch path (configOptions g))
  | "validate" => some (.validate path (sourceOf g) (g.allValues "allow-error"))
  | "spans" => do
    let requestId ← g.value? "rid"
    some (.spans path requestId (g.has "full-trace") (sourceOf g))
  | _ => some (.inspect path)

/-- How to report, as given behind the command or else in front of it. -/
def reportingOf (outer inner : Given) : Reporting :=
  let form := (inner.value? "output").orElse fun _ => outer.value? "output"
  { form := if form = some "json" then .json else .text
    quiet := outer.has "quiet" || inner.has "quiet" }

def ofArguments (args : List String) : Except Stop Invocation := do
  match ← top.scan Given.none args with
  | (_, none) => .error .misuse
  | (outer, some (name, rest)) =>
    let (inner, _) ← (levelOf name).scan Given.none rest
    match commandOf? name inner with
    | some command => .ok { reporting := reportingOf outer inner, command }
    | none => .error .misuse

end Invocation
end TraceAudit
