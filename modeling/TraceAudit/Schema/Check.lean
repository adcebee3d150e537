import TraceAudit.Schema.Selection
import TraceAudit.Record.Basic

/-!
# Checking records against schemas

* `Violation` is one finding about a captured record, with a key that stays the same from run to
  run;
* `Violation.ofRecord?` checks one record, and gives nothing when no schema governs it;
* `SchemaReport.check` checks all requests and sets aside the violations whose keys are allowed.
-/

namespace TraceAudit

/-- The key of a violation: the endpoint and the place, with a star for every part of the place that
is written in digits. So positions in arrays are left out, and so are names of members in digits. -/
def errorKey (path pointer : String) : String :=
  let generalize (segment : List Char) : String :=
    if !segment.isEmpty && segment.all Text.isDigit then "*" else String.ofList segment
  path ++ "#" ++ Text.join "/" ((Text.splitOn '/' pointer.toList).map generalize)

/-- One way in which a record does not match the schema that governs it. -/
structure Violation where
  source : Source
  path : String
  seq : Nat
  /-- The name of the schema, `unsupported` when none applies. -/
  schema : String
  /-- The place in the payload. -/
  pointer : String
  message : String
  /-- What an allow-list names. -/
  key : String
  logFile : Option OsPath
deriving DecidableEq, Repr

namespace Violation

def make (record : Record) (schema pointer message : String) : Violation :=
  { source := record.source
    path := record.path
    seq := record.seq
    schema
    pointer
    message
    key := errorKey record.path pointer
    logFile := record.logFile }

/-- The violations of a record, nothing when no schema governs it. -/
def ofRecord? (record : Record) : Option (List Violation) :=
  match Selection.select record.source record.path record.json? with
  | .skip => none
  | .unsupported reason => some [make record "unsupported" "" reason.message]
  | .schema name =>
    match record.payload.content with
    | .empty => some [make record name.text "" "payload is empty"]
    | .raw => some [make record name.text "" "payload could not be decoded"]
    | .json value =>
      some <| (name.schema.findings [] value).map fun f =>
        make record name.text (Pointer.render f.place) f.message

/-- The path of the log file, if it has one, is a text. -/
def isWritable (v : Violation) : Bool := v.logFile.all fun path => path.text?.isSome

/-- The written form of a violation that can be written. -/
def toJson (v : Violation) : Json :=
  .obj <|
    [ ("source", .str v.source.name),
      ("path", .str v.path),
      ("seq", Json.nat v.seq),
      ("schema", .str v.schema),
      ("pointer", .str v.pointer),
      ("message", .str v.message),
      ("key", .str v.key) ] ++
    Record.logFileMember v.logFile

def toJson? (v : Violation) : Option Json := if v.isWritable then some v.toJson else none

end Violation

/-- The outcome of checking records: how many were governed by a schema, and their violations, set
apart by whether they are allowed. -/
structure SchemaReport where
  checked : Nat
  violations : List Violation
  tolerated : List Violation
deriving DecidableEq, Repr

namespace SchemaReport

/-- The violations of each request that a schema governs. -/
def governed (records : List Record) : List (List Violation) :=
  (records.filter Record.isRequest).filterMap Violation.ofRecord?

/-- Check all requests; violations whose key is in `allowed` are tolerated. -/
def check (records : List Record) (allowed : List String) : SchemaReport :=
  let found := governed records
  let isAllowed (v : Violation) : Bool := allowed.contains v.key
  { checked := found.length
    violations := found.flatten.filter (!isAllowed ·)
    tolerated := found.flatten.filter isAllowed }

def toJson (r : SchemaReport) : Json :=
  .obj
    [ ("checked", Json.nat r.checked),
      ("violations", .arr (r.violations.map Violation.toJson)),
      ("tolerated", .arr (r.tolerated.map Violation.toJson)) ]

end SchemaReport
end TraceAudit
