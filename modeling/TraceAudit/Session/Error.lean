import TraceAudit.Call.Journal
import TraceAudit.Store.Basic

/-!
# Errors of a session

A `SessionError` is a failure of the engine itself. An assertion that does not hold is no error but
a failed outcome.
-/

namespace TraceAudit

/-- Why a session refuses an operation. -/
inductive SessionError where
  | store (error : StoreError)
  /-- A record was offered to an interface of another source. -/
  | sourceMismatch (expected found : Source)
  /-- The validators of the interface were already evaluated. -/
  | interfaceClosed (source : Source)
  | unknownInterface (source : Source)
  /-- Pieces of the log files give no records. -/
  | corruptEntries (source : Source) (entries : List CorruptEntry)
  | journal (error : JournalError)
  /-- A test made a call, but nothing answers calls. -/
  | noAnswers (testId : String)
  /-- A test made a call that was not journaled. -/
  | notJournaled (testId : String) (index : Nat)

def SessionError.message (detail : Detail) : SessionError → String
  | .store error => error.message
  | .sourceMismatch expected found =>
    s!"record from '{found.name}' offered to the '{expected.name}' interface"
  | .interfaceClosed source =>
    s!"interface '{source.name}' is closed: its validators were already evaluated"
  | .unknownInterface source => s!"no '{source.name}' interface in this session"
  | .corruptEntries source entries =>
    s!"{entries.length} deserialization error(s) on the '{source.name}' interface"
  | .journal error => error.message detail
  | .noAnswers testId =>
    s!"test '{testId}' issued a weblog call but the session has no weblog client"
  | .notJournaled testId index => s!"no recorded weblog call #{index} for test '{testId}'"

end TraceAudit
