import TraceAudit.Session.Interface

/-!
# Sessions

A `Session` has one scenario and one interface per source. Tests only append data, register
assertions and make calls; nothing is evaluated until the session is finished.

* `Session.inMemory`, `Session.live` and `Session.replay` start a session;
* `Session.on` applies an operation to the interface of a source;
* `Session.call` answers a call of a test from the journal.
-/

namespace TraceAudit

/-- A scenario with one interface per source. -/
structure Session where
  scenario : Scenario
  engine : EngineSettings
  mode : SessionMode
  logFolder : Option String
  /-- One interface per source, in the order of the sources. -/
  interfaces : List Interface
  cancelled : Bool
  /-- What answers the calls of tests. -/
  calls : Option CallReplay

def Scenario.buddySources (scenario : Scenario) : List Source :=
  (List.range scenario.buddies.toNat).map fun n => .buddy (UInt8.ofNat n)

/-- The sources of a session, in the order of listings. -/
def Scenario.sources (scenario : Scenario) : List Source :=
  [.library, .agent, .backend, .openTelemetry] ++ scenario.buddySources

/-- The order in which teardown waits: the agent and the auxiliary applications go quiet only after
the library has flushed. -/
def Scenario.teardownOrder (scenario : Scenario) : List Source :=
  .library :: scenario.buddySources ++ [.agent, .backend, .openTelemetry]

namespace Session

/-- A session that is fed record by record. -/
def inMemory (scenario : Scenario) (engine : EngineSettings) : Session :=
  { scenario, engine, mode := .inMemory, logFolder := none
    interfaces := scenario.sources.map Interface.inMemory
    cancelled := false, calls := none }

/-- A session over a folder that a proxy is writing to. -/
def live (scenario : Scenario) (engine : EngineSettings) (logFolder : String) : Session :=
  { scenario, engine, mode := .live, logFolder := some logFolder
    interfaces := scenario.sources.map (Interface.live · logFolder)
    cancelled := false, calls := none }

/-- A session over the folder of a finished run. Everything is read at once, and the journal of the
run answers calls. -/
def replay (disk : Disk) (scenario : Scenario) (engine : EngineSettings) (logFolder : String) :
    Except SessionError Session :=
  if disk.isFolder logFolder then do
    let interfaces ←
      (scenario.sources.mapM (Interface.replay disk · logFolder)).mapError .store
    let journal ← (Journal.load disk logFolder).mapError .journal
    .ok
      { scenario, engine, mode := .replay, logFolder := some logFolder, interfaces
        cancelled := false, calls := some (CallReplay.start journal) }
  else .error (.store (.folderNotFound logFolder))

def interface? (s : Session) (source : Source) : Option Interface :=
  s.interfaces.find? (·.source = source)

/-- Put an interface in the place of the one with the same source. -/
def setInterface (s : Session) (i : Interface) : Session :=
  { s with interfaces := s.interfaces.map fun old => if old.source = i.source then i else old }

/-- Apply an operation to the interface of a source. -/
def on {α : Type} (s : Session) (source : Source)
    (operation : Interface → Except SessionError (Interface × α)) :
    Except SessionError (Session × α) :=
  match s.interface? source with
  | none => .error (.unknownInterface source)
  | some i => do
    let (i, result) ← operation i
    .ok (s.setInterface i, result)

/-- Register an assertion of a test, and give the id of its validator. -/
def register (s : Session) (source : Source) (testId : String) (assertion : Assertion) :
    Except SessionError (Session × Nat) :=
  s.on source (·.register testId assertion)

def append (s : Session) (source : Source) (record : Record) :
    Except SessionError (Session × Unit) :=
  s.on source fun i => (i.append record).map (·, ())

/-- Stop all further waits; validators that are still queued will not be run. -/
def cancel (s : Session) : Session := { s with cancelled := true }

def call (s : Session) (testId : String) : Session × Except SessionError TestCall :=
  match s.calls with
  | none => (s, .error (.noAnswers testId))
  | some replay =>
    let (replay, answer) := replay.answer testId
    ({ s with calls := some replay }, answer.mapError (.notJournaled testId))

end Session
end TraceAudit
