import TraceAudit.Trace.Span
import TraceAudit.Json.Printer
import TraceAudit.Text.Decimal

/-!
# Decoding trace payloads

* `DecodeError` lists the reasons for which a payload does not decode, `DecodeError.message` words
  them;
* `Json.lenientU64?`, `Json.lenientI64?`, `Json.spanId?` read numbers that some libraries send as
  text or as negative numbers;
* `decodeV04`, `decodeV05`, `decodeAgentV02` read the three formats, and `decodeSpans` chooses
  among them.

All decoders give the spans in the order of the payload and stop at the first fault.
-/

namespace TraceAudit

/-! ## Faults -/

/-- A part of a payload that has to be an array. -/
inductive ArrayPart where
  | traces
  | trace
  | tablePayload
  | stringTable
  | tracerPayloads
deriving DecidableEq, Repr

def ArrayPart.name : ArrayPart → String
  | .traces => "traces"
  | .trace => "trace"
  | .tablePayload => "v0.5 payload"
  | .stringTable => "string table"
  | .tracerPayloads => "tracerPayloads"

/-- What is wrong with one span. -/
inductive SpanFault where
  | notAnObject
  | fieldCount
  | badField (field : String)
deriving DecidableEq, Repr

/-- Why a payload does not decode. -/
inductive DecodeError where
  | notAnArray (part : ArrayPart)
  | missingField (context field : String)
  | invalidSpan (index : Nat) (fault : SpanFault)
  | stringIndex (index tableSize : Nat)
deriving DecidableEq, Repr

/-- The wording of a fault of one span. -/
def SpanFault.message : SpanFault → String
  | .notAnObject => "span should be an object"
  | .fieldCount => "v0.5 span must be an array of 12 fields"
  | .badField field => s!"missing or invalid '{field}'"

def DecodeError.message : DecodeError → String
  | .notAnArray part => s!"{part.name} should be an array"
  | .missingField context field => s!"{context}: missing or invalid '{field}'"
  | .invalidSpan index fault => s!"span #{index}: {fault.message}"
  | .stringIndex index tableSize =>
    s!"string index {index} out of range for table of {tableSize} entries"

/-! ## Lenient numbers -/

/-- A signed id read as the unsigned number of the same 64 bits. -/
def unsignedId (value : Int) : Nat := (value % (Word.count64 : Int)).toNat

namespace Json

/-- An id: an unsigned number, a negative one read by its bits, or a text of either. -/
def spanId? : Json → Option Nat
  | .num n => n.asU64?.or (n.asI64?.map unsignedId)
  | .str s => (Decimal.u64? s.toList).or ((Decimal.i64? s.toList).map unsignedId)
  | _ => none

/-- An unsigned number, or a text of one. -/
def lenientU64? : Json → Option Nat
  | .num n => n.asU64?
  | .str s => Decimal.u64? s.toList
  | _ => none

/-- A signed number, or a text of one. -/
def lenientI64? : Json → Option Int
  | .num n => n.asI64?
  | .str s => Decimal.i64? s.toList
  | _ => none

/-- A value as the text of a tag: a string as it is, anything else in its written form. -/
def tagText : Json → String
  | .str s => s
  | other => compact other

end Json

/-! ## Traversal -/

/-- Decode values in order, the first one as span number `index`. -/
def decodeEach (decodeOne : Nat → Json → Except DecodeError Span) (index : Nat) :
    List Json → Except DecodeError (List Span)
  | [] => .ok []
  | item :: rest => do
    let span ← decodeOne index item
    let spans ← decodeEach decodeOne (index + 1) rest
    .ok (span :: spans)

/-- Decode an array of traces, each an array of spans; spans are numbered across traces. -/
def decodeTraces (decodeOne : Nat → Json → Except DecodeError Span) (index : Nat) :
    List Json → Except DecodeError (List Span)
  | [] => .ok []
  | trace :: rest =>
    match trace with
    | .arr items => do
      let spans ← decodeEach decodeOne index items
      let more ← decodeTraces decodeOne (index + items.length) rest
      .ok (spans ++ more)
    | _ => .error (.notAnArray .trace)

/-! ## Spans as objects -/

/-- The keys under which a format keeps the ids of a span. -/
structure IdKeys where
  traceId : String
  spanId : String
  parentId : String

def IdKeys.library : IdKeys := ⟨"trace_id", "span_id", "parent_id"⟩

def IdKeys.agent : IdKeys := ⟨"traceID", "spanID", "parentID"⟩

def requiredId (obj : Json) (index : Nat) (key : String) : Except DecodeError Nat :=
  match (obj.get? key).bind Json.spanId? with
  | some id => .ok id
  | none => .error (.invalidSpan index (.badField key))

/-- A text member, empty when it is absent or no text. -/
def textMember (obj : Json) (key : String) : String :=
  ((obj.get? key).bind Json.asString?).getD ""

/-- A number member, zero when it is absent or no number. -/
def numberMember (obj : Json) (key : String) : Int :=
  ((obj.get? key).bind Json.lenientI64?).getD 0

/-- The members of an object member, none when it is absent or no object. -/
def tableMember (obj : Json) (key : String) : List (String × Json) :=
  ((obj.get? key).bind Json.asObject?).getD []

/-- A parent id of zero stands for no parent. -/
def parentOf (id : Option Nat) : Option Nat := id.filter (· ≠ 0)

/-- An empty type stands for no type. -/
def kindOf (text : String) : Option String := if text = "" then none else some text

def decodeObject (keys : IdKeys) (index : Nat) (obj : Json) : Except DecodeError Span := do
  if ¬obj.isObject then
    .error (.invalidSpan index .notAnObject)
  let traceId ← requiredId obj index keys.traceId
  let spanId ← requiredId obj index keys.spanId
  .ok
    { traceId
      spanId
      parentId := parentOf ((obj.get? keys.parentId).bind Json.spanId?)
      service := textMember obj "service"
      name := textMember obj "name"
      resource := textMember obj "resource"
      kind := kindOf (textMember obj "type")
      start := numberMember obj "start"
      duration := numberMember obj "duration"
      error := numberMember obj "error"
      tags := (tableMember obj "meta").map fun (k, v) => (k, v.tagText)
      metrics := (tableMember obj "metrics").filterMap fun (k, v) => v.asDouble?.map (k, ·)
      raw := obj }

/-- Read a payload of traces of span objects. -/
def decodeV04 (payload : Json) : Except DecodeError (List Span) :=
  match payload with
  | .arr traces => decodeTraces (decodeObject .library) 0 traces
  | _ => .error (.notAnArray .traces)

/-! ## Spans as rows over a string table -/

/-- The entry of the table that a value names. -/
def tableEntry (table : List String) (index : Json) : Except DecodeError String :=
  match index.lenientU64? with
  | none => .error (.missingField "v0.5 span" "string index")
  | some i =>
    match table[i]? with
    | some text => .ok text
    | none => .error (.stringIndex i table.length)

/-- The entry of the table that the key of an object names; a key that is no number names an entry
beyond every table. -/
def keyEntry (table : List String) (key : String) : Except DecodeError String :=
  tableEntry table (Json.nat ((Decimal.u64? key.toList).getD Decimal.maxU64))

/-- The tags of a row: keys and values both name entries, and a later key of the same text wins. -/
def rowTags (table : List String) (acc : List (String × String)) :
    List (String × Json) → Except DecodeError (List (String × String))
  | [] => .ok acc
  | (key, value) :: rest => do
    let k ← keyEntry table key
    let v ← tableEntry table value
    rowTags table (Members.insert k v acc) rest

/-- The metrics of a row: keys name entries, and a value that is no number counts as zero. -/
def rowMetrics (table : List String) (acc : List (String × Double)) :
    List (String × Json) → Except DecodeError (List (String × Double))
  | [] => .ok acc
  | (key, value) :: rest => do
    let k ← keyEntry table key
    rowMetrics table (Members.insert k (value.asDouble?.getD Double.zero) acc) rest

def rowId (index : Nat) (field : String) (value : Json) : Except DecodeError Nat :=
  match value.spanId? with
  | some id => .ok id
  | none => .error (.invalidSpan index (.badField field))

def decodeRow (table : List String) (index : Nat) (row : Json) : Except DecodeError Span :=
  match row with
  | .arr [service, name, resource, traceId, spanId, parentId, start, duration, error, tags,
      metrics, kind] => do
    let tags ← rowTags table [] (tags.asObject?.getD [])
    let metrics ← rowMetrics table [] (metrics.asObject?.getD [])
    let kind ← tableEntry table kind
    let service ← tableEntry table service
    let name ← tableEntry table name
    let resource ← tableEntry table resource
    let traceId ← rowId index "trace_id" traceId
    let spanId ← rowId index "span_id" spanId
    .ok
      { traceId
        spanId
        parentId := parentOf parentId.spanId?
        service
        name
        resource
        kind := kindOf kind
        start := start.lenientI64?.getD 0
        duration := duration.lenientI64?.getD 0
        error := error.lenientI64?.getD 0
        tags
        metrics
        raw := row }
  | _ => .error (.invalidSpan index .fieldCount)

/-- Read a payload of a string table and traces of rows. -/
def decodeV05 (payload : Json) : Except DecodeError (List Span) :=
  match payload with
  | .arr [strings, traces] =>
    match strings with
    | .arr entries =>
      let table := entries.map fun entry => entry.asString?.getD ""
      match traces with
      | .arr traces => decodeTraces (decodeRow table) 0 traces
      | _ => .error (.notAnArray .traces)
    | _ => .error (.notAnArray .stringTable)
  | .arr _ => .error (.missingField "v0.5 payload" "[strings, traces]")
  | _ => .error (.notAnArray .tablePayload)

/-! ## Spans grouped by tracer -/

/-- The items of an array member, none when it is absent or no array. -/
def arrayMember (obj : Json) (key : String) : List Json :=
  ((obj.get? key).bind Json.asArray?).getD []

/-- The span values of one tracer's payload, chunk after chunk. -/
def chunkSpans (tracerPayload : Json) : List Json :=
  (arrayMember tracerPayload "chunks").flatMap (arrayMember · "spans")

/-- Read a payload of trace chunks grouped by tracer; one without groups holds no spans. -/
def decodeAgentV02 (payload : Json) : Except DecodeError (List Span) :=
  match payload.get? "tracerPayloads" with
  | none | some .null => .ok []
  | some (.arr tracerPayloads) =>
    decodeEach (decodeObject .agent) 0 (tracerPayloads.flatMap chunkSpans)
  | some _ => .error (.notAnArray .tracerPayloads)

def decodeSpans : TraceFormat → Json → Except DecodeError (List Span)
  | .libraryV04 => decodeV04
  | .libraryV05 => decodeV05
  | .agentV02 => decodeAgentV02

end TraceAudit
