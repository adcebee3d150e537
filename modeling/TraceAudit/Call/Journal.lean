import TraceAudit.Call.Basic
import TraceAudit.Disk.Basic
import TraceAudit.Text.Blank
import TraceAudit.Json.Fault
import TraceAudit.Text.Detail

/-!
# The journal of calls

A run writes every call that its tests make into a journal, one JSON object per line. When the run
is replayed, the journal answers the calls: the calls of a test are numbered from 0, and a call is
answered by the entry with the same test and number.

* `Journal.load` reads the journal of a log folder, `Journal.text?` writes one;
* `Journal.find?` looks up an entry, of which the last one counts;
* `CallReplay.answer` answers the next call of a test.
-/

namespace TraceAudit

/-- A call as it was journaled. -/
structure JournalEntry where
  testId : String
  index : Nat
  call : TestCall
deriving DecidableEq, Repr, Inhabited

namespace JournalEntry

def ofText? (text : List Char) : Option JournalEntry := do
  let tree ← JsonTree.read text
  let fields ← Fields.ofTree? 3 tree
  let testId ← fields.required? "test_id" 0 JsonTree.text?
  let index ← fields.required? "index" 1 (JsonTree.natural? Decimal.maxU64)
  let call ← fields.required? "request" 2 TestCall.ofTree?
  some { testId, index, call }

def toJson (e : JournalEntry) : Json :=
  .obj [("test_id", .str e.testId), ("index", Json.nat e.index), ("request", e.call.toJson)]

/-- The JSON text of an entry; nothing when a time of the call cannot be written. -/
def text? (e : JournalEntry) : Option (List Char) :=
  if e.call.times.all Timestamp.isWritable then some e.toJson.compactText else none

end JournalEntry

/-- Why a line of a journal is no entry. -/
inductive EntryFault where
  | notJson (fault : JsonFault)
  /-- The value of the line is not that of an entry. -/
  | wrongForm
deriving DecidableEq, Repr

def EntryFault.message : EntryFault → String
  | .notJson fault => fault.message
  | .wrongForm => "not a journaled call"

/-- The fault of a line that is no entry. -/
def EntryFault.find (line : List Char) : EntryFault :=
  match JsonTree.read line with
  | none => .notJson (JsonFault.find (Utf8.encode line))
  | some _ => .wrongForm

/-- Why a journal cannot be read. -/
inductive JournalError where
  | unreadable (path : String) (fault : DiskFault)
  | badEntry (path : String) (line : Nat) (fault : EntryFault)
deriving DecidableEq, Repr

def JournalError.message (detail : Detail) : JournalError → String
  | .unreadable path fault => s!"failed to access {path}: {fault.message}"
  | .badEntry path line fault =>
    s!"{path}:{line}: invalid journal entry: {detail.tell fault.message}"

/-- The calls of a run in the order of the journal. -/
abbrev Journal := List JournalEntry

namespace Journal

/-- The path of the journal of a log folder. -/
def pathIn (logFolder : String) : String := Path.join logFolder "weblog/requests.jsonl"

/-- The entries of lines that are numbered from `number` on; blank lines hold none. Gives the number
and the fault of the first line that is no entry. -/
def ofLines (number : Nat) : List (List Char) → Except (Nat × EntryFault) Journal
  | [] => .ok []
  | line :: rest =>
    if (Text.trim line).isEmpty then ofLines (number + 1) rest
    else
      match JournalEntry.ofText? line with
      | none => .error (number, EntryFault.find line)
      | some entry => do
        let entries ← ofLines (number + 1) rest
        .ok (entry :: entries)

def ofText (text : List Char) : Except (Nat × EntryFault) Journal := ofLines 1 (Text.lines text)

/-- The text of a journal, each entry on a line; nothing when an entry cannot be written. -/
def text? (journal : Journal) : Option (List Char) := do
  let lines ← journal.mapM JournalEntry.text?
  some (lines.flatMap (· ++ ['\n']))

/-- The journal of a log folder; without a file no calls were made. -/
def load (disk : Disk) (logFolder : String) : Except JournalError Journal :=
  let path := pathIn logFolder
  if disk.has path then
    match disk.readText path with
    | .error fault => .error (.unreadable path fault)
    | .ok text => (ofText text.toList).mapError fun (line, fault) => .badEntry path line fault
  else .ok []

/-- The call of the last entry with a test and a number. -/
def find? (journal : Journal) (testId : String) (index : Nat) : Option TestCall :=
  (journal.reverse.find? fun e => e.testId == testId && e.index == index).map (·.call)

end Journal

/-- A journal that answers calls, and how many calls each test made so far. -/
structure CallReplay where
  journal : Journal
  made : List (String × Nat)
deriving Inhabited

namespace CallReplay

def start (journal : Journal) : CallReplay := ⟨journal, []⟩

/-- The number of calls that a test made so far. -/
def count (replay : CallReplay) (testId : String) : Nat :=
  (Members.find? testId replay.made).getD 0

/-- Answer the next call of a test. The answer is the call that was journaled, or else the number
for which there is none. -/
def answer (replay : CallReplay) (testId : String) : CallReplay × Except Nat TestCall :=
  let index := replay.count testId
  let next := { replay with made := Members.insert testId (index + 1) replay.made }
  match replay.journal.find? testId index with
  | some call => (next, .ok call)
  | none => (next, .error index)

end CallReplay
end TraceAudit
