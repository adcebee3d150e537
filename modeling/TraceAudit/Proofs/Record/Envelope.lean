import TraceAudit.Record.Envelope

/-!
# What an envelope gives at any time

An envelope without a time of its own takes the time of the file that holds it. The time is all that
it takes:

* `Envelope.records_eq` says that an envelope is refused at every time or at none, and what its
  records are;
* `Envelope.records_cases` says that they come without the numbers and the file name that a store
  adds;
* `Envelope.records_of_declared` says that an envelope with a time of its own takes no other;
* `Envelope.records_isExchange` says that they are one exchange, `IsExchange`.
-/

namespace TraceAudit

/-- The record without what a store adds to it: its numbers and its file. -/
def Record.asCaptured (r : Record) : Record := { r with seq := 0, exchange := 0, logFile := none }

/-- The record without its time. -/
def Record.untimed (r : Record) : Record := { r with timestamp := default }

/-- A request, or a request and then its response, which share all but their messages. -/
inductive IsExchange : List Record → Prop
  | request {request : Record} : request.kind = .request → IsExchange [request]
  | answered {request response : Record} :
      request.kind = .request → response.kind = .response → response.path = request.path →
      response.host = request.host → response.timestamp = request.timestamp →
      response.requestId = request.requestId → response.logFile = request.logFile →
      IsExchange [request, response]

namespace Envelope

/-- The request record of an envelope, at a time and with a payload. -/
def requestAt (e : Envelope) (found : Source) (time : Timestamp) (payload : Payload) : Record :=
  { seq := 0
    exchange := 0
    source := found
    timestamp := time
    kind := .request
    method := e.request.method
    path := e.path
    host := e.host
    statusCode := none
    headers := e.request.headers
    payload
    requestId := RequestId.ofHeaders? e.request.headers
    logFile := none }

/-- The response record of an envelope, which takes over all but the message of the request. -/
def responseAt (e : Envelope) (found : Source) (time : Timestamp) (response : Message)
    (status : Nat) (payload : Payload) : Record :=
  { e.requestAt found time payload with
    kind := .response
    method := none
    statusCode := some status
    headers := response.headers }

/-- The records of an exchange: the request, and the response with its status and payload if there
is one. -/
def exchangeAt (e : Envelope) (found : Source) (time : Timestamp) (payload : Payload)
    (answer : Option (Message × Nat × Payload)) : List Record :=
  e.requestAt found time payload ::
    answer.toList.map fun (response, status, body) => e.responseAt found time response status body

theorem records_eq (e : Envelope) (found : Source) :
    (∃ fault, ∀ time, e.records found time = .error fault) ∨
      ∃ (stamp : Timestamp → Timestamp) (payload : Payload)
        (answer : Option (Message × Nat × Payload)), ∀ time,
          e.records found time = .ok (e.exchangeAt found (stamp time) payload answer) := by
  unfold Envelope.records
  cases hsource : e.checkSource found with
  | error fault =>
    exact Or.inl ⟨fault, fun time => by simp [bind, Except.bind]⟩
  | ok _ =>
    -- The time is fixed by the envelope, or it is the one that is offered.
    have htime : (∃ fault, ∀ time, e.time time = .error fault) ∨
        ∃ stamp : Timestamp → Timestamp, ∀ time, e.time time = .ok (stamp time) := by
      unfold Envelope.time
      cases e.timestamp with
      | none => exact Or.inr ⟨id, fun time => rfl⟩
      | some text =>
        cases hread : (Timestamp.read text.toList).mapError (EnvelopeFault.badTimestamp text) with
        | error fault => exact Or.inl ⟨fault, fun time => hread⟩
        | ok stamp => exact Or.inr ⟨fun _ => stamp, fun time => hread⟩
    -- Beyond this point nothing depends on the time but the time of the records.
    rcases htime with ⟨fault, htime⟩ | ⟨stamp, htime⟩
    · exact Or.inl ⟨fault, fun time => by simp [htime, bind, Except.bind]⟩
    · cases hpayload : e.request.payload with
      | error fault =>
        exact Or.inl ⟨fault, fun time => by simp [htime, bind, Except.bind]⟩
      | ok payload =>
        cases hresponse : e.response with
        | none =>
          refine Or.inr ⟨stamp, payload, none, fun time => ?_⟩
          simp [htime, exchangeAt, requestAt, bind, Except.bind]
        | some response =>
          cases hstatus : response.statusCode with
          | none =>
            exact Or.inl ⟨.missingStatus, fun time => by simp [htime, hstatus, bind, Except.bind]⟩
          | some status =>
            cases hbody : response.payload with
            | error fault =>
              exact Or.inl
                ⟨fault, fun time => by simp [htime, hstatus, hbody, bind, Except.bind]⟩
            | ok body =>
              refine Or.inr ⟨stamp, payload, some (response, status, body), fun time => ?_⟩
              simp [htime, hstatus, hbody, exchangeAt, requestAt, responseAt, bind, Except.bind]

theorem records_cases (e : Envelope) (found : Source) :
    (∃ fault, ∀ time, e.records found time = .error fault) ∨
      ∃ make : Timestamp → List Record, ∀ time,
        e.records found time = .ok (make time) ∧
          (make time).map Record.asCaptured = make time ∧
          (make time).map Record.untimed = (make default).map Record.untimed := by
  rcases e.records_eq found with ⟨fault, h⟩ | ⟨stamp, payload, answer, h⟩
  · exact Or.inl ⟨fault, h⟩
  · refine Or.inr ⟨fun time => e.exchangeAt found (stamp time) payload answer, fun time => ?_⟩
    cases answer with
    | none => exact ⟨h time, rfl, rfl⟩
    | some answer => exact ⟨h time, rfl, rfl⟩

/-- An envelope that declares its time gives the same at every other time. -/
theorem records_of_declared {e : Envelope} (h : e.timestamp.isSome = true) (found : Source)
    (time time' : Timestamp) : e.records found time = e.records found time' := by
  rcases Option.isSome_iff_exists.1 h with ⟨text, htext⟩
  have htime : e.time time = e.time time' := by
    rw [Envelope.time, Envelope.time, htext]
  rw [Envelope.records, Envelope.records, htime]

/-! ## Exchanges -/

theorem records_isExchange {e : Envelope} {found : Source} {time : Timestamp}
    {records : List Record} (h : e.records found time = .ok records) :
    IsExchange records ∧ ∀ r ∈ records, r.source = found := by
  rcases e.records_eq found with ⟨fault, hfault⟩ | ⟨stamp, payload, answer, hrecords⟩
  · rw [hfault time] at h
    cases h
  · rw [hrecords time] at h
    cases h
    cases answer with
    | none =>
      refine ⟨.request rfl, ?_⟩
      intro r hr
      cases List.mem_singleton.1 hr
      rfl
    | some answer =>
      refine ⟨.answered rfl rfl rfl rfl rfl rfl rfl, ?_⟩
      intro r hr
      rcases List.mem_cons.1 hr with rfl | hr
      · rfl
      · cases List.mem_singleton.1 hr
        rfl

end Envelope
end TraceAudit
