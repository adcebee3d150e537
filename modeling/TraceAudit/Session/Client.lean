import TraceAudit.Session.Basic

/-!
# The client that tests call with

A test reads a path of the instrumented application or posts a value to it. In a replay no request
goes out: the journal of the run answers, by the test and the number of the call alone.

* `CallReplay.load` makes the client of a log folder;
* `CallReplay.send` and `Session.send` make a call, `sendAll` several calls in order.
-/

namespace TraceAudit

/-- A call as a test makes it. -/
inductive Outgoing where
  | get (testId path : String)
  | post (testId path : String) (body : Json)

/-- The test that makes a call. -/
def Outgoing.testId : Outgoing → String
  | .get testId _ => testId
  | .post testId _ _ => testId

namespace CallReplay

/-- The client that answers from the journal of a log folder. -/
def load (disk : Disk) (logFolder : String) : Except JournalError CallReplay :=
  (Journal.load disk logFolder).map start

/-- Make a call. The path and the value are not compared with those that were journaled. -/
def send (client : CallReplay) (call : Outgoing) : CallReplay × Except SessionError TestCall :=
  let (client, answer) := client.answer call.testId
  (client, answer.mapError (.notJournaled call.testId))

/-- Make calls in order, and give the answer of each one. -/
def sendAll (client : CallReplay) :
    List Outgoing → CallReplay × List (Except SessionError TestCall)
  | [] => (client, [])
  | call :: rest =>
    let (client, answer) := client.send call
    let (client, answers) := client.sendAll rest
    (client, answer :: answers)

end CallReplay

namespace Session

/-- Make a call with the client of a session. -/
def send (s : Session) (call : Outgoing) : Session × Except SessionError TestCall :=
  s.call call.testId

/-- Make calls in order, and give the answer of each one. -/
def sendAll (s : Session) : List Outgoing → Session × List (Except SessionError TestCall)
  | [] => (s, [])
  | call :: rest =>
    let (s, answer) := s.send call
    let (s, answers) := s.sendAll rest
    (s, answer :: answers)

end Session
end TraceAudit
