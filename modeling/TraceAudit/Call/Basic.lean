import TraceAudit.Json.Fields
import TraceAudit.Json.Printer
import TraceAudit.Time.Timestamp

/-!
# Calls made by tests

A `TestCall` is a call that a test made to the instrumented application. Its id is all that ties it
to the records it caused downstream. A `Reply` is what the application answered.

* `TestCall.ofText?` reads a call from JSON text, `TestCall.text?` writes it;
* `TestCall.window?` is the time from issue to completion.
-/

namespace TraceAudit

/-- The answer to a call; when no answer came back at all, what went wrong. -/
structure Reply where
  statusCode : Option Nat
  headers : List (String × String)
  body : String
  error : Option String
deriving DecidableEq, Repr, Inhabited

namespace Reply

def ofTree? (tree : JsonTree) : Option Reply := do
  let fields ← Fields.ofTree? 4 tree
  let status := JsonTree.optional? (JsonTree.natural? 65535)
  let statusCode ← fields.keyedDefault? "status_code" 0 status none
  let headers ← fields.default? "headers" 1 (JsonTree.list? JsonTree.pair?) []
  let body ← fields.default? "body" 2 JsonTree.text? ""
  let error ← fields.keyedDefault? "error" 3 (JsonTree.optional? JsonTree.text?) none
  some { statusCode, headers, body, error }

def ofText? (text : List Char) : Option Reply := do
  let tree ← JsonTree.read text
  ofTree? tree

def toJson (r : Reply) : Json :=
  .obj <|
    (r.statusCode.map fun n => ("status_code", Json.nat n)).toList ++
    [ ("headers", .arr (r.headers.map fun (name, value) => .arr [.str name, .str value])),
      ("body", .str r.body) ] ++
    (r.error.map fun e => ("error", Json.str e)).toList

end Reply

/-- A call made by a test. -/
structure TestCall where
  id : String
  method : String
  path : String
  issuedAt : Timestamp
  completedAt : Option Timestamp
  reply : Option Reply
deriving DecidableEq, Repr, Inhabited

namespace TestCall

def time? (tree : JsonTree) : Option Timestamp := do
  let text ← tree.text?
  Timestamp.ofText? text.toList

def ofTree? (tree : JsonTree) : Option TestCall := do
  let fields ← Fields.ofTree? 6 tree
  let id ← fields.required? "id" 0 JsonTree.text?
  let method ← fields.required? "method" 1 JsonTree.text?
  let path ← fields.required? "path" 2 JsonTree.text?
  let issuedAt ← fields.required? "issued_at" 3 time?
  let completedAt ← fields.default? "completed_at" 4 (JsonTree.optional? time?) none
  let reply ← fields.default? "response" 5 (JsonTree.optional? Reply.ofTree?) none
  some { id, method, path, issuedAt, completedAt, reply }

def ofText? (text : List Char) : Option TestCall := do
  let tree ← JsonTree.read text
  ofTree? tree

def toJson (c : TestCall) : Json :=
  .obj <|
    [ ("id", .str c.id),
      ("method", .str c.method),
      ("path", .str c.path),
      ("issued_at", .str c.issuedAt.render),
      ("completed_at", Json.ofOption (fun t => .str t.render) c.completedAt) ] ++
    (c.reply.map fun r => ("response", r.toJson)).toList

def times (c : TestCall) : List Timestamp := c.issuedAt :: c.completedAt.toList

/-- The JSON text of a call; nothing when one of its times cannot be written. -/
def text? (c : TestCall) : Option (List Char) :=
  if c.times.all Timestamp.isWritable then some c.toJson.compactText else none

def statusCode? (c : TestCall) : Option Nat := c.reply.bind (·.statusCode)

/-- The time from issue to completion, in nanoseconds since 1970, once the call is complete. -/
def window? (c : TestCall) : Option (Int × Int) :=
  c.completedAt.map fun completed => (c.issuedAt.epochNanos, completed.epochNanos)

end TestCall
end TraceAudit
