import TraceAudit.Session.Error
import TraceAudit.Validator.Evaluation

/-!
# Interfaces

An `Interface` holds what one source sent and the validators that are registered for it.
Registration and evaluation are apart: `Interface.register` only queues, and `Interface.evaluate`
runs the queue once against the records that are visible by then.

* Records become visible through `Interface.append`, `Interface.wait` and `Interface.settle`, and
  are numbered in that order;
* `Interface.evaluate` and `Interface.abandon` empty the queue and close the interface.

A wait looks at a disk that does not change while it lasts. So it needs to look only once: data that
is there stays quiet from then on.
-/

namespace TraceAudit

/-- Where the data of a session comes from. -/
inductive SessionMode where
  /-- A proxy is still writing the log files. -/
  | live
  /-- The log files of a finished run. -/
  | replay
  /-- Records are handed in one by one. -/
  | inMemory
deriving DecidableEq, Repr, Inhabited

def SessionMode.name : SessionMode → String
  | .live => "live"
  | .replay => "replay"
  | .inMemory => "in_memory"

/-- The records of one source and the validators registered for it. -/
structure Interface where
  source : Source
  mode : SessionMode
  /-- The visible records in arrival order. -/
  records : List Record
  /-- The validators that were not run yet, in the order of registration. -/
  queue : List Validator
  /-- The reader of the log files, unless the data is in memory only. -/
  store : Option Store
  /-- A record was seen. -/
  ready : Bool
  /-- The queue was run or abandoned. -/
  closed : Bool
  /-- The id of the next validator. -/
  nextId : Nat
  lastWait : Option WaitOutcome
  /-- The trace ids that several traces may share. -/
  exceptions : List Nat

namespace Interface

def fresh (source : Source) (mode : SessionMode) (store : Option Store) : Interface :=
  { source, mode, records := [], queue := [], store, ready := false, closed := false, nextId := 0,
    lastWait := none, exceptions := [] }

/-! ## Records -/

def push (i : Interface) (record : Record) : Interface :=
  { i with records := i.records ++ [{ record with seq := i.records.length }], ready := true }

def pushAll (i : Interface) (records : List Record) : Interface := records.foldl push i

/-- Make a record visible, which has to be of the interface's source. -/
def append (i : Interface) (record : Record) : Except SessionError Interface :=
  if record.source = i.source then .ok (i.push record)
  else .error (.sourceMismatch i.source record.source)

/-- An interface that is fed record by record. -/
def inMemory (source : Source) : Interface := fresh source .inMemory none

/-- An interface over the log files that a proxy is writing. -/
def live (source : Source) (logFolder : String) : Interface :=
  fresh source .live (some (Store.forLogFolder logFolder source))

def takeStaged (i : Interface) (store : Store) : Interface :=
  let (store, records) := store.drain
  pushAll { i with store := some store } records

/-- An interface over the log files of a finished run, all of which are read at once. -/
def replay (disk : Disk) (source : Source) (logFolder : String) : Except StoreError Interface :=
  match (Store.forLogFolder logFolder source).load disk with
  | (_, .error e) => .error e
  | (store, .ok _) => .ok (takeStaged (fresh source .replay none) store)

/-! ## Validators -/

/-- Queue an assertion of a test, and give the id of its validator. -/
def register (i : Interface) (testId : String) (assertion : Assertion) :
    Except SessionError (Interface × Nat) :=
  if i.closed then .error (.interfaceClosed i.source)
  else
    let validator : Validator := { id := i.nextId, testId, interface := i.source, assertion }
    .ok ({ i with queue := i.queue ++ [validator], nextId := i.nextId + 1 }, i.nextId)

/-- Let a trace id appear in several traces. -/
def except (i : Interface) (traceId : Nat) : Interface :=
  { i with exceptions := traceId :: i.exceptions }

/-- What the validators of the interface may look at. -/
def evidence (i : Interface) (scenario : Scenario) (timingFallback : Bool) : Evidence :=
  { scenario
    records := i.records
    wait := i.lastWait.getD .complete
    timingFallback
    exceptions := i.exceptions }

/-- The interface with its queue emptied and closed. -/
def close (i : Interface) : Interface := { i with queue := [], closed := true }

def evaluate (i : Interface) (scenario : Scenario) (timingFallback : Bool) :
    Interface × List Verdict :=
  (i.close, i.queue.map (·.evaluate (i.evidence scenario timingFallback)))

def abandon (i : Interface) (reason : String) : Interface × List Verdict :=
  (i.close, i.queue.map (·.notEvaluated reason))

/-! ## Waiting -/

/-- How a look at a disk that does not change any more ends a wait of `budgetMs` milliseconds:
data that is there stays quiet, so it is complete if the time allows for the quiet period. -/
def ending (engine : EngineSettings) (budgetMs : Nat) (store : Store) : WaitOutcome :=
  if 0 < store.recordCount ∧ engine.quiescenceMs ≤ budgetMs then .quiescent else .timedOut

/-- Wait for at most `budgetMs` milliseconds until the data is complete. An unfinished line stays
pending; only `settle` turns it into an error. -/
def wait (i : Interface) (disk : Disk) (engine : EngineSettings) (budgetMs : Nat)
    (cancelled : Bool) : Interface × Except StoreError WaitOutcome :=
  match i.mode, i.store with
  | .live, some store =>
    if cancelled then ({ i with lastWait := some .interrupted }, .ok .interrupted)
    else
      match store.poll disk with
      | (store, .error e) => (i.takeStaged store, .error e)
      | (store, .ok _) =>
        let outcome := ending engine budgetMs store
        ({ i.takeStaged store with lastWait := some outcome }, .ok outcome)
  | _, _ => ({ i with lastWait := some .complete }, .ok .complete)

/-- The time in milliseconds that a wait of `budgetMs` milliseconds takes when it ends in an
outcome. The quiet period is noticed at the next look at the folder. -/
def spentMs (engine : EngineSettings) (budgetMs : Nat) : WaitOutcome → Nat
  | .timedOut => budgetMs
  | .quiescent =>
    let looks := (engine.quiescenceMs + engine.pollIntervalMs - 1) / engine.pollIntervalMs
    min budgetMs (looks * engine.pollIntervalMs)
  | .complete | .interrupted => 0

/-- Take what arrived late and settle what is unfinished, now that nothing more will be written.
Gives the number of records that became visible. -/
def settle (i : Interface) (disk : Disk) : Interface × Except StoreError Nat :=
  match i.mode, i.store with
  | .live, some store =>
    let (store, result) := store.pollThenFlush disk
    (i.takeStaged store, result.map fun _ => store.staged.length)
  | _, _ => (i, .ok 0)

/-- The pieces of the log files that give no records. -/
def corruptEntries (i : Interface) : List CorruptEntry :=
  match i.store with
  | some store => store.errors
  | none => []

def checkEntries (i : Interface) : Except SessionError Unit :=
  match i.corruptEntries with
  | [] => .ok ()
  | entries => .error (.corruptEntries i.source entries)

end Interface
end TraceAudit
