import TraceAudit.Proofs.Disk.Retimed
import TraceAudit.Proofs.Store.History

/-!
# What a store makes of file times

A file time gets into the records that have no time of their own, and nowhere else.

* `Store.untimed` forgets the times of the staged records;
* `Store.take_untimed` says that taking an entry at another time stages the same records but for
  their times, `Store.readFile_untimed` says it of a look at a file;
* `Store.load_untimed`: loads of a folder that differs in file times only agree.
-/

namespace TraceAudit

@[simp] theorem Record.untimed_untimed (r : Record) : r.untimed.untimed = r.untimed := rfl

namespace Store

/-- The store without the times of the staged records. -/
def untimed (s : Store) : Store := { s with staged := s.staged.map Record.untimed }

@[simp] theorem untimed_source (s : Store) : s.untimed.source = s.source := rfl

@[simp] theorem untimed_folder (s : Store) : s.untimed.folder = s.folder := rfl

@[simp] theorem untimed_files (s : Store) : s.untimed.files = s.files := rfl

@[simp] theorem untimed_errors (s : Store) : s.untimed.errors = s.errors := rfl

@[simp] theorem untimed_nextSeq (s : Store) : s.untimed.nextSeq = s.nextSeq := rfl

@[simp] theorem untimed_nextExchange (s : Store) : s.untimed.nextExchange = s.nextExchange := rfl

@[simp] theorem untimed_staged (s : Store) :
    s.untimed.staged = s.staged.map Record.untimed := rfl

/-! ## Taking entries -/

theorem number_untimed (file : String) (exchange seq : Nat) (records : List Record) :
    (number file exchange seq records).map Record.untimed =
      number file exchange seq (records.map Record.untimed) := by
  induction records generalizing seq with
  | nil => rfl
  | cons r rest ih =>
    rw [number, List.map_cons, ih]
    rfl

theorem take_untimed (s : Store) (file : String) (time time' : Timestamp) (entry : Entry) :
    (s.take file time entry).untimed = (s.untimed.take file time' entry).untimed := by
  have hcaptured := captured_time s.source entry time time'
  have hlength := congrArg List.length hcaptured
  rw [List.length_map, List.length_map] at hlength
  rw [take_eq, take_eq]
  simp only [untimed, corruptEntry, corruption_time s.source entry time time', hlength,
    List.map_append, List.map_map, number_untimed, hcaptured]
  rfl

section Alike

variable {s s' : Store} (h : s.untimed = s'.untimed)

include h

/-- Stores that agree but for times stay so when they take an entry, each at a time of its own. -/
theorem take_alike (file : String) (time time' : Timestamp) (entry : Entry) :
    (s.take file time entry).untimed = (s'.take file time' entry).untimed := by
  calc
    (s.take file time entry).untimed
      = (s.untimed.take file time' entry).untimed := take_untimed s file time time' entry
    _ = (s'.untimed.take file time' entry).untimed := by rw [h]
    _ = (s'.take file time' entry).untimed := (take_untimed s' file time' time' entry).symm

theorem takeAll_alike (file : String) (time time' : Timestamp) (entries : List Entry) :
    (s.takeAll file time entries).untimed = (s'.takeAll file time' entries).untimed := by
  induction entries generalizing s s' with
  | nil => exact h
  | cons entry rest ih => exact ih (take_alike h file time time' entry)

end Alike

/-! ## Reading files -/

/-- What an operation returns, without the times of the staged records. -/
def untimedOutcome (outcome : Store × Except StoreError Nat) : Store × Except StoreError Nat :=
  (outcome.1.untimed, outcome.2)

theorem outcome_cases {outcome outcome' : Store × Except StoreError Nat}
    (h : untimedOutcome outcome = untimedOutcome outcome') :
    ∃ next next' result, outcome = (next, result) ∧ outcome' = (next', result) ∧
      next.untimed = next'.untimed := by
  rcases outcome with ⟨next, result⟩
  rcases outcome' with ⟨next', result'⟩
  rcases Prod.mk.inj h with ⟨hnext, hresult⟩
  have hsame : result = result' := hresult
  exact ⟨next, next', result, rfl, by rw [hsame], hnext⟩

section Reading

variable {s s' : Store} {d d' : Disk} {paths : List String}

theorem files_eq (h : s.untimed = s'.untimed) : s.files = s'.files :=
  (congrArg Store.files h :)

theorem folder_eq (h : s.untimed = s'.untimed) : s.folder = s'.folder :=
  (congrArg Store.folder h :)

theorem nextSeq_eq (h : s.untimed = s'.untimed) : s.nextSeq = s'.nextSeq :=
  (congrArg Store.nextSeq h :)

/-- Cursors that are put into both stores. -/
theorem withFiles_alike (h : s.untimed = s'.untimed) (files : List (String × Cursor)) :
    { s with files }.untimed = { s' with files }.untimed :=
  (congrArg (fun t : Store => { t with files }) h :)

/-- A look at a file that differs in its time only. -/
theorem readFile_untimed (h : s.untimed = s'.untimed) {path : String}
    (hread : (d.read path).map File.bytes = (d'.read path).map File.bytes) (final : Bool) :
    untimedOutcome (s.readFile d path final) = untimedOutcome (s'.readFile d' path final) := by
  have hfiles := files_eq h
  rcases results_of_map_eq hread with
    ⟨fault, hleft, hright⟩ | ⟨file, file', hleft, hright, hbytes⟩
  · have hkept := withFiles_alike h
      (Cursors.set path ((Cursors.find? path s'.files).getD Cursor.start) s'.files)
    simp only [readFile, hleft, hright, untimedOutcome, hfiles, hkept]
  · rcases hscan : ((Cursors.find? path s'.files).getD Cursor.start).scan
      (file'.bytes.drop ((Cursors.find? path s'.files).getD Cursor.start).offset) final with
      ⟨next, entries⟩
    have htaken := takeAll_alike h path (file.time)
      (file'.time) entries
    have hread' := readFile_eq hright rfl hscan
    rw [← hbytes, ← hfiles] at hscan
    have hread := readFile_eq hleft rfl hscan
    have hset := withFiles_alike htaken (Cursors.set path next s'.files)
    rw [hread, hread', untimedOutcome, untimedOutcome, nextSeq_eq htaken, nextSeq_eq h, hfiles,
      hset]

/-- Steps that agree but for times, one file after the other. -/
theorem eachFile_untimed {each each' : Store → String → Store × Except StoreError Nat}
    (heach : ∀ s s' : Store, ∀ path ∈ paths, s.untimed = s'.untimed →
      untimedOutcome (each s path) = untimedOutcome (each' s' path))
    (h : s.untimed = s'.untimed) :
    untimedOutcome (eachFile each s paths) = untimedOutcome (eachFile each' s' paths) := by
  induction paths generalizing s s' with
  | nil => exact congrArg (·, _) h
  | cons path rest ih =>
    have hpath := heach s s' path List.mem_cons_self h
    rcases outcome_cases hpath with ⟨next, next', result, hleft, hright, hnext⟩
    rw [eachFile, eachFile, hleft, hright]
    cases result with
    | error fault => exact congrArg (·, _) hnext
    | ok n =>
      have hrest := ih (fun s s' q hq => heach s s' q (List.mem_cons_of_mem path hq)) hnext
      rcases outcome_cases hrest with ⟨last, last', result, hleft, hright, hlast⟩
      simp only [hleft, hright]
      cases result <;> exact congrArg (·, _) hlast

theorem ingestGrown_untimed (h : s.untimed = s'.untimed) {path : String}
    (hread : (d.read path).map File.bytes = (d'.read path).map File.bytes) :
    untimedOutcome (ingestGrown d s path) = untimedOutcome (ingestGrown d' s' path) := by
  have hboth := readFile_untimed h hread false
  rcases results_of_map_eq hread with
    ⟨fault, hleft, hright⟩ | ⟨file, file', hleft, hright, hbytes⟩
  · simp only [ingestGrown, hleft, hright]
    exact congrArg (·, _) h
  · rw [ingestGrown_of_read hleft, ingestGrown_of_read hright, files_eq h, hbytes]
    split
    · exact congrArg (·, _) h
    · exact hboth

end Reading

/-! ## The folder -/

section Folder

variable {s s' : Store} {d d' : Disk} {logFolder : String} (hdisks : d.SameBelow logFolder d')

include hdisks

theorem poll_untimed (h : s.untimed = s'.untimed) (hfolder : Path.Below logFolder s.folder) :
    untimedOutcome (s.poll d) = untimedOutcome (s'.poll d') := by
  have hpaths := hdisks.filePaths hfolder
  rw [poll, poll, ← folder_eq h, ← hdisks.has hfolder, ← hpaths]
  split
  · cases hlisted : d.filePaths s.folder with
    | error fault => exact congrArg (·, _) h
    | ok paths =>
      refine eachFile_untimed (fun s s' path hpath hs => ?_) h
      rw [← Disk.filesIn_of_filePaths hlisted] at hpath
      exact ingestGrown_untimed hs (hdisks.read (Disk.below_of_mem_filesIn hfolder hpath))
  · exact congrArg (·, _) h

/-- A flush of files that lie in the folder. -/
theorem flush_untimed (h : s.untimed = s'.untimed)
    (hwaiting : ∀ path ∈ s.deferredFiles, Path.Below logFolder path) :
    untimedOutcome (s.flush d) = untimedOutcome (s'.flush d') := by
  have hsame : s.deferredFiles = s'.deferredFiles := by
    rw [deferredFiles, deferredFiles, files_eq h]
  rw [flush, flush, ← hsame]
  refine eachFile_untimed (fun s s' path hpath hs => ?_) h
  exact readFile_untimed hs (hdisks.read (hwaiting path hpath)) true

/-- Loads of a folder that differs in file times only agree, and fail alike. -/
theorem load_untimed (source : Source) {folder : String} (hfolder : Path.Below logFolder folder) :
    untimedOutcome ((fresh source folder).load d) =
      untimedOutcome ((fresh source folder).load d') := by
  have hfresh : (fresh source folder).untimed = (fresh source folder).untimed := rfl
  have hpolled := poll_untimed hdisks hfresh hfolder
  have hwatch := (watches_fresh source folder d).poll
  have hhas : d.has (fresh source folder).folder = d'.has (fresh source folder).folder :=
    hdisks.has hfolder
  rw [load, load, hhas]
  split
  · rcases outcome_cases hpolled with ⟨polled, polled', result, hleft, hright, hstores⟩
    rw [pollThenFlush, pollThenFlush, hleft, hright]
    rw [hleft] at hwatch
    cases result with
    | error fault => exact congrArg (·, _) hstores
    | ok n =>
      have hflushed := flush_untimed hdisks hstores fun path hpath =>
        Disk.below_of_mem_filesIn hfolder (hwatch.deferredFiles_listed path hpath)
      rcases outcome_cases hflushed with ⟨flushed, flushed', result, hleft, hright, hstores⟩
      simp only [hleft, hright]
      cases result <;> exact congrArg (·, _) hstores
  · rfl

end Folder

end Store
end TraceAudit
