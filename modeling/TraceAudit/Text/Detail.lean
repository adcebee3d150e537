/-!
# Detail of messages

Some faults are found in texts of a general-purpose format: JSON, base 64, times, TOML. A message
about such a fault ends in the wording of the reader of that format. `Detail` is the choice between
giving that wording and leaving it out, for readers of messages to which only the fact matters.
-/

namespace TraceAudit

/-- How much a message tells about a fault in a text of a general-purpose format. -/
inductive Detail where
  /-- The wording of the fault is given. -/
  | full
  /-- A placeholder stands for the wording. -/
  | elided
deriving DecidableEq, Repr, Inhabited

/-- The end of a message about a fault. -/
def Detail.tell : Detail → String → String
  | .full, wording => wording
  | .elided, _ => "<detail>"

end TraceAudit
