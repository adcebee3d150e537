import TraceAudit.Text.Decimal

/-!
# Traffic sources

A `Source` is the logical producer of captured traffic. It has a name, which is also the name of
the folder that holds its log files:

* `Source.name` writes the name, `Source.ofName?` reads it;
* `Source.before` is the order in which sources are listed.
-/

namespace TraceAudit

/-- The logical producer of a captured exchange. -/
inductive Source where
  /-- From the instrumented application to the agent. -/
  | library
  /-- From the agent to the backend. -/
  | agent
  /-- Queries made against the backend. -/
  | backend
  /-- Sent directly by an OpenTelemetry client. -/
  | openTelemetry
  /-- From the auxiliary application of this number. -/
  | buddy (number : UInt8)
deriving DecidableEq, Repr, Inhabited

namespace Source

/-- The name of a source, which is also the name of its folder. -/
def name : Source → String
  | .library => "library"
  | .agent => "agent"
  | .backend => "backend"
  | .openTelemetry => "open_telemetry"
  | .buddy n => "buddy" ++ toString n.toNat

/-- The source of a name. The number of an auxiliary application may have a sign or leading
zeros. -/
def ofName? (text : String) : Option Source :=
  if text = "library" then some .library
  else if text = "agent" then some .agent
  else if text = "backend" then some .backend
  else if text = "open_telemetry" then some .openTelemetry
  else do
    let digits ← "buddy".toList.isPrefixOf? text.toList
    let n ← Decimal.u8? digits
    some (.buddy (UInt8.ofNat n))

/-- What is said of a name that no source has. -/
def unknownMessage (text : String) : String := s!"unknown source '{text}'"

def rank : Source → Nat
  | .library => 0
  | .agent => 1
  | .backend => 2
  | .openTelemetry => 3
  | .buddy n => 4 + n.toNat

/-- `a` is listed no later than `b`. -/
def before (a b : Source) : Bool := a.rank ≤ b.rank

end Source
end TraceAudit
