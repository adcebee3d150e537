import TraceAudit.CommandLine.Invocation
import TraceAudit.Session.Finish
import TraceAudit.Session.Tap

/-!
# Running commands

A `Response` is what a command prints and its exit status: 0 when all is well and 1 otherwise.

* `Command.run` runs a command against what the disk holds;
* `CommandLine.run` takes the arguments as they were given.
-/

namespace TraceAudit

/-- What is printed, and the exit status. -/
structure Response where
  status : Nat
  out : String
  err : String
deriving DecidableEq, Repr

namespace Response

def text (lines : List String) : String := String.join (lines.map (· ++ "\n"))

/-- A message to the error output, in the form of the answer; nothing if less is wanted. -/
def complaint (reporting : Reporting) (message : String) : String :=
  if reporting.quiet then ""
  else
    match reporting.form with
    | .text => message ++ "\n"
    | .json => (Json.obj [("error", .str message)]).compact ++ "\n"

def failure (reporting : Reporting) (message : String) : Response :=
  ⟨1, "", complaint reporting message⟩

def statusOf (success : Bool) : Nat := if success then 0 else 1

end Response

namespace Command

/-- The test under which the checks of a whole run are listed. -/
def sessionTest : String := "session"

/-- The checks that every run gets, whatever its tests were. -/
def sessionChecks (scenario : Scenario) (allowed : List String) : List (Source × Assertion) :=
  let telemetry : List (Source × Assertion) :=
    if scenario.hasFeature "telemetry" then
      [(.library, Assertion.successfulTelemetry .library), (.library, .gaplessTelemetry)]
    else []
  scenario.sources.map (·, .schemas allowed) ++ (.library, .uniqueTraceIds) :: telemetry

def registerChecks (session : Session) (allowed : List String) : Except SessionError Session :=
  (sessionChecks session.scenario allowed).foldlM
    (fun s (source, assertion) => (s.register source sessionTest assertion).map (·.1)) session

/-- The configuration and the scenario that the options ask for, or a message. -/
def prepare (disk : Disk) (options : ConfigOptions) : Except String (Config × Scenario) := do
  let config ← (options.resolve disk).mapError (ConfigError.message .full)
  let scenario ← (Scenario.ofSettings config.scenario).mapError VersionError.refusal
  .ok (config, scenario)

/-- What is printed on a report, and whether all went well. In place of a report that cannot be
written there is `null`. -/
def reportOn (reporting : Reporting) (report : SessionReport) : Response :=
  let status := Response.statusOf report.isSuccess
  match reporting.form with
  | .text =>
    ⟨status, (TapReport.ofReport report).render, if reporting.quiet then "" else report.render⟩
  | .json =>
    let members := match report.toJson with
      | .obj members => members ++ [("digest", .str report.digest)]
      | _ => []
    let answer := if report.isWritable then Json.obj members else .null
    ⟨status, answer.sorted.pretty ++ "\n", ""⟩

/-- Run the checks of a session to its end. -/
def conclude (disk : Disk) (reporting : Reporting) (session : Session) (allowed : List String) :
    Except String Response := do
  let session ← (registerChecks session allowed).mapError (SessionError.message .full)
  .ok (reportOn reporting (session.finish disk))

/-- A response, or the failure that a message stands for. -/
def orFailure (reporting : Reporting) : Except String Response → Response
  | .ok response => response
  | .error message => Response.failure reporting s!"error: {message}"

def requireFolder (disk : Disk) (folder : String) : Except String Unit :=
  if disk.isFolder folder then .ok () else .error s!"log folder not found: {folder}"

/-- Evaluate the log folder of a finished run again. -/
def replayFolder (disk : Disk) (reporting : Reporting) (logFolder : String)
    (options : ConfigOptions) : Except String Response := do
  requireFolder disk logFolder
  let (config, scenario) ← prepare disk options
  let session ←
    (Session.replay disk scenario config.engine logFolder).mapError (SessionError.message .full)
  conclude disk reporting session config.allowedErrors

def watchFolder (disk : Disk) (reporting : Reporting) (logFolder : String)
    (options : ConfigOptions) : Except String Response := do
  let (config, scenario) ← prepare disk options
  let session := Session.live scenario config.engine logFolder
  let response ← conclude disk reporting session config.allowedErrors
  let seconds := config.engine.timeoutS
  let greeting := s!"Watching {logFolder} (timeout {seconds}s, Ctrl-C to stop)...\n"
  .ok { response with err := if reporting.quiet then response.err else greeting ++ response.err }

/-! ## Single files -/

def violationLines (v : Violation) : List String :=
  [ s!"  FAIL [#{v.seq} {v.path}]: {v.schema} at '{v.pointer}': {v.message}",
    s!"    key: {v.key}" ]

def corruptLine (e : CorruptEntry) : String := s!"  CORRUPT: {e.render .full}"

def readSingle (disk : Disk) (file : String) (source : Source) :
    Except StoreError (List Record × List CorruptEntry) :=
  match (Store.fresh source (Path.parent file)).ingest disk file with
  | (_, .error e) => .error e
  | (store, .ok _) =>
    match store.flush disk with
    | (_, .error e) => .error e
    | (store, .ok _) => .ok (store.staged, store.errors)

/-- What is said of a log file with so many records. The paths on a disk are texts, so that
violations and corrupt log entries can all be written as JSON. With a path that is no text the JSON
form would have no value, and the program would stop without an answer. -/
def validationResponse (reporting : Reporting) (file : String) (source : Source) (count : Nat)
    (report : SchemaReport) (errors : List CorruptEntry) : Response :=
  let clean := report.violations.isEmpty && errors.isEmpty
  let out := match reporting.form with
    | .text =>
      let amounts := s!"{count} record(s), {report.checked} checked"
      let found := s!"{report.violations.length} violation(s), {report.tolerated.length} tolerated"
      let noun := if errors.length = 1 then "entry" else "entries"
      let headline := s!"{file}: {amounts}, {found}, {errors.length} corrupt {noun}"
      Response.text <|
        (if reporting.quiet && clean then [] else [headline]) ++
        report.violations.flatMap violationLines ++ errors.map corruptLine
    | .json =>
      let answer := Json.obj
        [ ("file", .str file),
          ("source", .str source.name),
          ("records", Json.nat count),
          ("schemas", report.toJson),
          ("deserialization_errors", .arr (errors.map (CorruptEntry.toJson .full))),
          ("valid", .bool clean) ]
      answer.sorted.pretty ++ "\n"
  ⟨Response.statusOf clean, out, ""⟩

/-- Check every record of one log file against its schema. -/
def validateFile (disk : Disk) (reporting : Reporting) (file : String) (source : Source)
    (allowErrors : List String) : Except String Response := do
  let (records, errors) ← (readSingle disk file source).mapError StoreError.message
  let report := SchemaReport.check records allowErrors
  .ok (validationResponse reporting file source records.length report errors)

/-! ## Summaries -/

/-- What an interface folder holds. -/
structure Summary where
  source : Source
  requests : Nat
  responses : Nat
  /-- The number of requests for each endpoint, in the order of the endpoints. -/
  endpoints : List (String × Nat)
  /-- The number of different request ids. -/
  requestIds : Nat
  errors : List CorruptEntry

/-- The texts that occur, in order, each with the number of its occurrences. -/
def tally (texts : List String) : List (String × Nat) :=
  (Text.distinct texts).map fun t => (t, texts.count t)

/-- All records of an interface folder of a finished run, and what gives no records. -/
def readInterface (disk : Disk) (logFolder : String) (source : Source) :
    Except StoreError (List Record × List CorruptEntry) :=
  match (Store.forLogFolder logFolder source).load disk with
  | (_, .error e) => .error e
  | (store, .ok _) => .ok (store.staged, store.errors)

/-- A summary of the records of a source, and of what gives none. -/
def Summary.ofRecords (source : Source) (records : List Record) (errors : List CorruptEntry) :
    Summary :=
  let requests := records.filter Record.isRequest
  { source
    requests := requests.length
    responses := records.length - requests.length
    endpoints := tally (requests.map (·.path))
    requestIds := (Text.distinct (records.filterMap (·.requestId))).length
    errors }

def summarize (disk : Disk) (logFolder : String) (source : Source) :
    Except StoreError Summary := do
  let (records, errors) ← readInterface disk logFolder source
  .ok (Summary.ofRecords source records errors)

def Summary.lines (s : Summary) : List String :=
  let exchanged := s!"{s.requests} request(s), {s.responses} response(s)"
  let noted := s!"{s.requestIds} request id(s), {s.errors.length} error(s)"
  s!"{s.source.name}: {exchanged}, {noted}" ::
    (s.endpoints.map fun (path, count) => s!"  {Text.padStart 6 (toString count)}  {path}") ++
    s.errors.map corruptLine

def Summary.toJson (s : Summary) : Json :=
  .obj
    [ ("source", .str s.source.name),
      ("requests", Json.nat s.requests),
      ("responses", Json.nat s.responses),
      ("endpoints", .obj (s.endpoints.map fun (path, count) => (path, Json.nat count))),
      ("request_ids", Json.nat s.requestIds),
      ("errors", .arr (s.errors.map (CorruptEntry.toJson .full))) ]

/-- The sources that have a folder in a log folder, in the order of listings. -/
def sourcesIn (disk : Disk) (logFolder : String) : List Source :=
  match disk.folderNames (Path.join logFolder "interfaces") with
  | .error _ => []
  | .ok names => (names.filterMap Source.ofName?).mergeSort Source.before

/-- What is said of a log folder. As the paths on a disk are texts, all summaries can be written as
JSON; the answer to a corrupt log entry with any other path would be that it cannot be written. -/
def inspectionResponse (reporting : Reporting) (logFolder : String) (summaries : List Summary) :
    Response :=
  let out := match reporting.form with
    | .text =>
      let interfaces := Path.join logFolder "interfaces"
      Response.text <|
        (if summaries.isEmpty then [s!"No interfaces under {interfaces}"] else []) ++
        summaries.flatMap Summary.lines
    | .json => (Json.arr (summaries.map Summary.toJson)).pretty ++ "\n"
  ⟨0, out, ""⟩

def inspectFolder (disk : Disk) (reporting : Reporting) (logFolder : String) :
    Except String Response := do
  requireFolder disk logFolder
  let summaries ←
    ((sourcesIn disk logFolder).mapM (summarize disk logFolder)).mapError StoreError.message
  .ok (inspectionResponse reporting logFolder summaries)

/-! ## Spans -/

def spanRow (trace span parent name resource : String) : String :=
  let ids := [trace, span, parent].map (Text.padStart 20)
  Text.join "  " (ids ++ [Text.padEnd 24 name, resource])

def spanLine (s : LocatedSpan) : String :=
  let parent := match s.span.parentId with
    | some id => toString id
    | none => "-"
  spanRow (toString s.span.traceId) (toString s.span.spanId) parent s.span.name
    s!"{s.span.resource} (record #{s.recordSeq})"

/-- A call of which nothing but the id is known. -/
def callWithId (requestId : String) : TestCall :=
  { id := requestId, method := "GET", path := "/", issuedAt := Timestamp.ofEpoch 0,
    completedAt := none, reply := none }

/-- The listing of the spans that were found for a request id. -/
def spansResponse (reporting : Reporting) (requestId : String) (source : Source)
    (spans : List LocatedSpan) : Response :=
  let status := Response.statusOf !spans.isEmpty
  match reporting.form with
  | .text =>
    if spans.isEmpty then
      let note := s!"No spans for request id {requestId} on {source.name}\n"
      ⟨status, "", if reporting.quiet then "" else note⟩
    else
      let headline := spanRow "TRACE" "SPAN" "PARENT" "NAME" "RESOURCE"
      ⟨status, Response.text (headline :: spans.map spanLine), ""⟩
  | .json => ⟨status, (Json.arr (spans.map LocatedSpan.toJson)).pretty ++ "\n", ""⟩

def listSpans (disk : Disk) (reporting : Reporting) (logFolder requestId : String)
    (fullTrace : Bool) (source : Source) : Except String Response := do
  requireFolder disk logFolder
  let (records, _) ← (readInterface disk logFolder source).mapError StoreError.message
  let spans := Correlation.spansOf records (callWithId requestId) ⟨fullTrace, false⟩
  .ok (spansResponse reporting requestId source spans)

/-! ## All commands -/

/-- Run a command against what the disk holds. -/
def run (disk : Disk) (reporting : Reporting) : Command → Response
  | .replay logFolder options =>
    orFailure reporting (replayFolder disk reporting logFolder options)
  | .watch logFolder options => orFailure reporting (watchFolder disk reporting logFolder options)
  | .validate file source allowErrors =>
    if disk.isFile file then
      orFailure reporting (validateFile disk reporting file source allowErrors)
    else Response.failure reporting s!"error reading file '{file}': not a file"
  | .inspect logFolder => orFailure reporting (inspectFolder disk reporting logFolder)
  | .spans logFolder requestId fullTrace source =>
    orFailure reporting (listSpans disk reporting logFolder requestId fullTrace source)

end Command

namespace CommandLine

/-- The answer to a question for the version. -/
def versionText : String := "tracecheck 0.1.0\n"

def usageText : String :=
  Response.text
    [ "Usage: tracecheck [--output text|json] [--quiet] [-v] COMMAND",
      "",
      "Commands:",
      "  replay LOG_FOLDER    evaluate a finished run again",
      "  watch LOG_FOLDER     follow a log folder until it goes quiet",
      "  validate FILE        check every record of one log file",
      "  inspect LOG_FOLDER   summarize what a log folder holds",
      "  spans LOG_FOLDER     list the spans of a request id" ]

/-- The response to arguments that name no command to run. -/
def stopped : Stop → Response
  | .misuse => ⟨2, "", usageText⟩
  | .help => ⟨0, usageText, ""⟩
  | .version => ⟨0, versionText, ""⟩

/-- Run what the arguments ask for against what the disk holds. -/
def run (disk : Disk) (args : List String) : Response :=
  match Invocation.ofArguments args with
  | .error stop => stopped stop
  | .ok invocation => invocation.command.run disk invocation.reporting

end CommandLine
end TraceAudit
