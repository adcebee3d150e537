import TraceAudit.Store.Scan
import TraceAudit.Record.Envelope
import TraceAudit.Disk.Basic

/-!
# The record store

A `Store` reads the log files of one source, which the proxy keeps appending to. Records are staged
by reading and handed out by `Store.drain`.

* `Store.poll` reads new and grown files, `Store.ingest` reads one file, `Store.flush` settles what
  is deferred, `Store.load` reads a finished folder;
* a piece of a file that gives no records becomes a `CorruptEntry`, and reading goes on;
* a folder or file that cannot be read at all is a `StoreError`.

Every operation takes the disk as it is at that moment, and gives the new store together with the
number of records that it staged or the error that stopped it.
-/

namespace TraceAudit

/-- Why a piece of a log file gives no records. -/
inductive Corruption where
  | brokenLine (fault : JsonFault)
  | brokenDocument (fault : JsonFault)
  | wrongShape (error : ShapeError)
  | refused (fault : EnvelopeFault)
deriving Inhabited

def Corruption.message (detail : Detail) : Corruption → String
  | .brokenLine fault => s!"invalid JSON line: {detail.tell fault.message}"
  | .brokenDocument fault => s!"invalid JSON document: {detail.tell fault.message}"
  | .wrongShape error => s!"not a record envelope: {error.message}"
  | .refused fault => fault.message detail

/-- A piece of a log file that gives no records; a whole document has no line. -/
structure CorruptEntry where
  file : String
  line : Option Nat
  cause : Corruption
deriving Inhabited

namespace CorruptEntry

def message (detail : Detail) (e : CorruptEntry) : String := e.cause.message detail

def render (detail : Detail) (e : CorruptEntry) : String :=
  match e.line with
  | some line => s!"{e.file}:{line}: {e.message detail}"
  | none => s!"{e.file}: {e.message detail}"

def toJson (detail : Detail) (e : CorruptEntry) : Json :=
  .obj
    [ ("file", .str e.file),
      ("line", Json.ofOption Json.nat e.line),
      ("message", .str (e.message detail)) ]

end CorruptEntry

/-- Why a log folder cannot be read. -/
inductive StoreError where
  | folderNotFound (path : String)
  | unreadable (path : String) (fault : DiskFault)
deriving DecidableEq, Repr

def StoreError.message : StoreError → String
  | .folderNotFound path => s!"log folder not found: {path}"
  | .unreadable path fault => s!"failed to read {path}: {fault.message}"

/-! ## Cursors by path -/

namespace Cursors

def find? (path : String) (files : List (String × Cursor)) : Option Cursor :=
  (files.find? fun (p, _) => Path.orderKey p = Path.orderKey path).map (·.2)

/-- Set the cursor of a file; the list stays in the order of the paths. -/
def set (path : String) (cursor : Cursor) : List (String × Cursor) → List (String × Cursor)
  | [] => [(path, cursor)]
  | (p, c) :: rest =>
    if Path.orderKey path = Path.orderKey p then (path, cursor) :: rest
    else if Path.orderKey path < Path.orderKey p then (path, cursor) :: (p, c) :: rest
    else (p, c) :: set path cursor rest

end Cursors

/-- The state of reading one source's log files. -/
structure Store where
  source : Source
  folder : String
  files : List (String × Cursor)
  staged : List Record
  errors : List CorruptEntry
  /-- The number of records ingested so far, handed out ones included. -/
  nextSeq : Nat
  nextExchange : Nat
deriving Inhabited

namespace Store

def fresh (source : Source) (folder : String) : Store :=
  { source, folder, files := [], staged := [], errors := [], nextSeq := 0, nextExchange := 0 }

/-- The folder of a source's log files in a log folder. -/
def folderOf (logFolder : String) (source : Source) : String :=
  Path.join (Path.join logFolder "interfaces") source.name

/-- A store for one source of a log folder. -/
def forLogFolder (logFolder : String) (source : Source) : Store :=
  fresh source (folderOf logFolder source)

/-- The number of records ingested so far, handed out ones included. -/
def recordCount (s : Store) : Nat := s.nextSeq

/-! ## Taking entries -/

def reject (s : Store) (file : String) (line : Option Nat) (cause : Corruption) : Store :=
  { s with errors := s.errors ++ [{ file, line, cause }] }

/-- Number records from `seq` on, as parts of one exchange found in `file`. -/
def number (file : String) (exchange : Nat) (seq : Nat) : List Record → List Record
  | [] => []
  | r :: rest =>
    { r with seq, exchange, logFile := some (.text file) } :: number file exchange (seq + 1) rest

def stage (s : Store) (file : String) (records : List Record) : Store :=
  { s with
    staged := s.staged ++ number file s.nextExchange s.nextSeq records
    nextSeq := s.nextSeq + records.length
    nextExchange := s.nextExchange + 1 }

def recordsOf (source : Source) (fallback : Timestamp) (json : Json) :
    Except Corruption (List Record) :=
  match Envelope.ofJson json with
  | .error error => .error (.wrongShape error)
  | .ok envelope =>
    match envelope.records source fallback with
    | .error fault => .error (.refused fault)
    | .ok records => .ok records

/-- Take an entry, and give the number of records that it stages. -/
def accept (s : Store) (file : String) (fallback : Timestamp) : Entry → Store × Nat
  | .value line json =>
    match recordsOf s.source fallback json with
    | .ok records => (s.stage file records, records.length)
    | .error cause => (s.reject file line cause, 0)
  | .broken (some line) fault => (s.reject file (some line) (.brokenLine fault), 0)
  | .broken none fault => (s.reject file none (.brokenDocument fault), 0)

/-- Take entries one after the other, and give the number of records that they stage. -/
def acceptAll (s : Store) (file : String) (fallback : Timestamp) : List Entry → Store × Nat
  | [] => (s, 0)
  | entry :: rest =>
    let (s, n) := s.accept file fallback entry
    let (s, m) := s.acceptAll file fallback rest
    (s, n + m)

/-! ## Reading files -/

/-- Read what a file holds beyond its cursor. -/
def readFile (s : Store) (disk : Disk) (path : String) (final : Bool) :
    Store × Except StoreError Nat :=
  let cursor := (Cursors.find? path s.files).getD Cursor.start
  match disk.read path with
  | .error fault =>
    ({ s with files := Cursors.set path cursor s.files }, .error (.unreadable path fault))
  | .ok file =>
    let (cursor, entries) := cursor.scan (file.bytes.drop cursor.offset) final
    let (taken, count) := s.acceptAll path file.time entries
    ({ taken with files := Cursors.set path cursor taken.files }, .ok count)

/-- Read what a file holds beyond its cursor, leaving alone what may still be growing. -/
def ingest (s : Store) (disk : Disk) (path : String) : Store × Except StoreError Nat :=
  s.readFile disk path false

/-- Apply a step to each path in turn until one fails; gives the number of records staged. -/
def eachFile (step : Store → String → Store × Except StoreError Nat) (s : Store) :
    List String → Store × Except StoreError Nat
  | [] => (s, .ok 0)
  | path :: rest =>
    match step s path with
    | (s, .error e) => (s, .error e)
    | (s, .ok n) =>
      match eachFile step s rest with
      | (s, .error e) => (s, .error e)
      | (s, .ok m) => (s, .ok (n + m))

/-- Read a file unless its length is the one seen last. -/
def ingestGrown (disk : Disk) (s : Store) (path : String) : Store × Except StoreError Nat :=
  match disk.read path with
  | .error fault => (s, .error (.unreadable path fault))
  | .ok file =>
    if (Cursors.find? path s.files).any (·.seen = file.bytes.length) then (s, .ok 0)
    else s.ingest disk path

/-- Read new and grown files of the folder in the order of their names. A folder that does not
exist holds nothing yet. -/
def poll (s : Store) (disk : Disk) : Store × Except StoreError Nat :=
  if disk.has s.folder then
    match disk.filePaths s.folder with
    | .error fault => (s, .error (.unreadable s.folder fault))
    | .ok paths => eachFile (ingestGrown disk) s paths
  else (s, .ok 0)

/-- The files with deferred octets. -/
def deferredFiles (s : Store) : List String :=
  (s.files.filter fun (_, c) => c.deferred).map (·.1)

/-- Settle what is deferred: nothing more will be written. -/
def flush (s : Store) (disk : Disk) : Store × Except StoreError Nat :=
  eachFile (fun s path => s.readFile disk path true) s s.deferredFiles

/-- Read new and grown files, then settle what is deferred. -/
def pollThenFlush (s : Store) (disk : Disk) : Store × Except StoreError Nat :=
  match s.poll disk with
  | (s, .error e) => (s, .error e)
  | (s, .ok polled) =>
    match s.flush disk with
    | (s, .error e) => (s, .error e)
    | (s, .ok flushed) => (s, .ok (polled + flushed))

def load (s : Store) (disk : Disk) : Store × Except StoreError Nat :=
  if disk.has s.folder then s.pollThenFlush disk else (s, .ok 0)

def drain (s : Store) : Store × List Record := ({ s with staged := [] }, s.staged)

end Store
end TraceAudit
