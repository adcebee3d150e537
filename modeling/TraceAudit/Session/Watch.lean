import TraceAudit.Session.Interface

/-!
# Waiting while files change

`Interface.wait` and `Interface.settle` look at a disk that stays as it is while they last. Here the
files may change between any two looks at the disk.

* `Look` is what the file system answers while a folder is polled, and `Look.still` what it answers
  where nothing changes;
* `Store.pollDuring` and `Store.settleDuring` read by such answers, `Store.watch` polls until the
  data stays quiet, the time is up or the wait is cancelled;
* `Interface.watch` and `Interface.settleDuring` take the store of an interface out for this, and put
  it back before they tell of a failure.
-/

namespace TraceAudit

/-- What the file system answers while a folder is polled. The answers are given at different times,
so they need not fit together. -/
structure Look where
  /-- The files of the folder, in the order of their names; a folder that does not exist has none. -/
  folder : Except DiskFault (List String)
  /-- The length that a file has when it is measured. -/
  length : String → Except DiskFault Nat
  /-- The disk when a file is read. -/
  reading : String → Disk

/-- The answers about a folder of a disk that does not change. -/
def Look.still (disk : Disk) (folder : String) : Look :=
  { folder := if disk.has folder then disk.filePaths folder else .ok []
    length := fun path => (disk.read path).map (·.bytes.length)
    reading := fun _ => disk }

/-- One turn of a wait. -/
structure Glance where
  /-- The wait was cancelled before the turn. -/
  cancelled : Bool
  look : Look
  /-- The time since the wait began, in milliseconds, when the poll is over. -/
  atMs : Nat

/-- When the data changed last, if it did so at some time before a poll that gave `n` records. -/
def Glance.lastChange (glance : Glance) (n changedMs : Nat) : Nat :=
  if 0 < n then glance.atMs else changedMs

namespace Store

/-- Read a file unless it is found to have the length that was seen last. -/
def ingestMeasured (look : Look) (s : Store) (path : String) : Store × Except StoreError Nat :=
  match look.length path with
  | .error fault => (s, .error (.unreadable path fault))
  | .ok length =>
    if (Cursors.find? path s.files).any (·.seen = length) then (s, .ok 0)
    else s.ingest (look.reading path) path

/-- Read new and grown files while files change. -/
def pollDuring (s : Store) (look : Look) : Store × Except StoreError Nat :=
  match look.folder with
  | .error fault => (s, .error (.unreadable s.folder fault))
  | .ok paths => eachFile (ingestMeasured look) s paths

/-- Settle what is deferred, file by file, each on the disk of the moment. -/
def flushDuring (s : Store) (reading : String → Disk) : Store × Except StoreError Nat :=
  eachFile (fun s path => s.readFile (reading path) path true) s s.deferredFiles

/-- Read new and grown files, then settle what is deferred, while files change. -/
def settleDuring (s : Store) (look : Look) (reading : String → Disk) :
    Store × Except StoreError Nat :=
  match s.pollDuring look with
  | (s, .error e) => (s, .error e)
  | (s, .ok polled) =>
    match s.flushDuring reading with
    | (s, .error e) => (s, .error e)
    | (s, .ok flushed) => (s, .ok (polled + flushed))

/-- Poll turn by turn: until the store has records and the last of them came the quiet period ago,
until the time is up, or until the wait is cancelled. The turns end when the time is up. -/
def watch (engine : EngineSettings) (budgetMs : Nat) (s : Store) (changedMs : Nat) :
    List Glance → Store × Except StoreError WaitOutcome
  | [] => (s, .ok .timedOut)
  | glance :: rest =>
    if glance.cancelled then (s, .ok .interrupted)
    else
      match s.pollDuring glance.look with
      | (s, .error e) => (s, .error e)
      | (s, .ok n) =>
        if 0 < s.recordCount ∧
            engine.quiescenceMs ≤ glance.atMs - glance.lastChange n changedMs then
          (s, .ok .quiescent)
        else if budgetMs ≤ glance.atMs then (s, .ok .timedOut)
        else s.watch engine budgetMs (glance.lastChange n changedMs) rest

end Store

namespace Interface

/-- Wait for at most `budgetMs` milliseconds until the data is complete, while files change. -/
def watch (i : Interface) (engine : EngineSettings) (budgetMs : Nat) (glances : List Glance) :
    Interface × Except StoreError WaitOutcome :=
  match i.mode, i.store with
  | .live, some store =>
    match store.watch engine budgetMs 0 glances with
    | (store, .error e) => (i.takeStaged store, .error e)
    | (store, .ok outcome) => ({ i.takeStaged store with lastWait := some outcome }, .ok outcome)
  | _, _ => ({ i with lastWait := some .complete }, .ok .complete)

/-- Take what arrived late and settle what is unfinished, while files change. Gives the number of
records that became visible. -/
def settleDuring (i : Interface) (look : Look) (reading : String → Disk) :
    Interface × Except StoreError Nat :=
  match i.mode, i.store with
  | .live, some store =>
    let (store, result) := store.settleDuring look reading
    (i.takeStaged store, result.map fun _ => store.staged.length)
  | _, _ => (i, .ok 0)

end Interface
end TraceAudit
