import TraceAudit.Trace.Span
import TraceAudit.Text.Split

/-!
# Request ids

A call made by a test carries a request id in a header of its own and, behind the marker `rid/`, in
its user agent. This file finds the id again:

* `RequestId.ofUserAgent?` in a user agent: the marker starts a token, and the id is a run of
  upper-case letters and digits that ends with the token;
* `RequestId.ofHeaders?` in the headers of a message;
* `Span.requestId?` in the tags of a span.
-/

namespace TraceAudit

namespace RequestId

def header : String := "x-test-request-id"

/-- What stands in front of a request id in a user agent. -/
def marker : List Char := ['r', 'i', 'd', '/']

/-- The tags of a span that may hold a user agent, in the order in which they are looked up. -/
def userAgentTags : List String :=
  ["http.request.headers.user-agent", "http.useragent", "grpc.metadata.user-agent"]

def isIdChar (c : Char) : Bool := Text.isUpper c || Text.isDigit c

/-- The id that stands right after a marker, where the token holds nothing else. -/
def idAt? (after : List Char) : Option (List Char) :=
  let token := after.takeWhile Text.isAlphanumeric
  if token ≠ [] ∧ token.all isIdChar then some token else none

/-- The first id behind a marker, in a text that follows the character `previous`. -/
def scan (previous : Option Char) : List Char → Option (List Char)
  | [] => none
  | c :: rest =>
    let here : Option (List Char) :=
      if previous.any Text.isAlphanumeric then none
      else (marker.isPrefixOf? (c :: rest)).bind idAt?
    here.or (scan (some c) rest)

def ofUserAgent? (userAgent : String) : Option String :=
  (scan none userAgent.toList).map String.ofList

/-- The request id of a message: its own header when that is not blank, else the first id in a
user agent. -/
def ofHeaders? (headers : List (String × String)) : Option String :=
  let explicit : Option String := do
    let (_, value) ← headers.find? fun (name, _) => Text.sameIgnoringCase name header
    let id := Text.trim value.toList
    if id = [] then none else some (String.ofList id)
  let agents := headers.filter fun (name, _) => Text.sameIgnoringCase name "user-agent"
  explicit.or (agents.findSome? fun (_, value) => ofUserAgent? value)

end RequestId

/-- The request id that a span carries: the tag of the header itself when not empty, else the first
id in a tag that holds a user agent. -/
def Span.requestId? (s : Span) : Option String :=
  let explicit := (s.tag? ("http.request.headers." ++ RequestId.header)).filter (· ≠ "")
  explicit.or (RequestId.userAgentTags.findSome? fun key =>
    (s.tag? key).bind RequestId.ofUserAgent?)

end TraceAudit
