import TraceAudit.Proofs.Record.Envelope
import TraceAudit.Proofs.Store.Cursors
import TraceAudit.Proofs.Store.Growth

/-!
# What a store holds of one file

A store mixes the records and errors of all files. `Store.Holds` singles out one file: its records
and its errors are those of a list of readings, entries with the file time at which they were read.

* `Store.captured` and `Store.corruptEntry` are what one reading gives;
* `Store.readFile_eq` is a look at a file in terms of readings;
* `Store.Holds.readFile` follows a file through a look at any file.
-/

namespace TraceAudit

/-- An entry, and the file time at which it was read. -/
abbrev Reading := Entry × Timestamp

/-- The entry is an envelope that declares the time of its exchange. -/
def Entry.declaresTime : Entry → Bool
  | .value _ json => (Envelope.ofJson json).toOption.any (·.timestamp.isSome)
  | .broken _ _ => false

namespace Store

/-- The records that a reading gives. -/
def captured (source : Source) (reading : Reading) : List Record :=
  match reading.1 with
  | .value _ json => (recordsOf source reading.2 json).toOption.getD []
  | .broken _ _ => []

/-- The line and the cause with which a reading is refused. -/
def corruption (source : Source) (reading : Reading) : Option (Option Nat × Corruption) :=
  match reading.1 with
  | .value line json =>
    match recordsOf source reading.2 json with
    | .ok _ => none
    | .error cause => some (line, cause)
  | .broken (some line) fault => some (some line, .brokenLine fault)
  | .broken none fault => some (none, .brokenDocument fault)

/-- The error that a reading of a file gives. -/
def corruptEntry (source : Source) (file : String) (reading : Reading) : Option CorruptEntry :=
  (corruption source reading).map fun (line, cause) => { file, line, cause }

theorem recordsOf_cases (source : Source) (json : Json) :
    (∃ cause, ∀ time, recordsOf source time json = .error cause) ∨
      ∃ make : Timestamp → List Record, ∀ time,
        recordsOf source time json = .ok (make time) ∧
          (make time).map Record.asCaptured = make time ∧
          (make time).map Record.untimed = (make default).map Record.untimed := by
  unfold recordsOf
  cases henvelope : Envelope.ofJson json with
  | error error => exact Or.inl ⟨.wrongShape error, fun time => rfl⟩
  | ok envelope =>
    rcases envelope.records_cases source with ⟨fault, h⟩ | ⟨make, h⟩
    · exact Or.inl ⟨.refused fault, fun time => by simp [h]⟩
    · exact Or.inr ⟨make, fun time => ⟨by simp [(h time).1], (h time).2⟩⟩

theorem captured_asCaptured (source : Source) (reading : Reading) :
    (captured source reading).map Record.asCaptured = captured source reading := by
  rcases reading with ⟨entry, time⟩
  cases entry with
  | broken line fault => rfl
  | value line json =>
    rcases recordsOf_cases source json with ⟨cause, h⟩ | ⟨make, h⟩
    · simp [captured, h, Except.toOption]
    · simpa [captured, (h time).1, Except.toOption] using (h time).2.1

/-- Whether an entry is refused, and why, does not hang on the file time. -/
theorem corruption_time (source : Source) (entry : Entry) (time time' : Timestamp) :
    corruption source (entry, time) = corruption source (entry, time') := by
  cases entry with
  | broken line fault => cases line <;> rfl
  | value line json =>
    rcases recordsOf_cases source json with ⟨cause, h⟩ | ⟨make, h⟩
    · simp [corruption, h]
    · simp [corruption, (h time).1, (h time').1]

theorem captured_time (source : Source) (entry : Entry) (time time' : Timestamp) :
    (captured source (entry, time)).map Record.untimed =
      (captured source (entry, time')).map Record.untimed := by
  cases entry with
  | broken line fault => rfl
  | value line json =>
    rcases recordsOf_cases source json with ⟨cause, h⟩ | ⟨make, h⟩
    · simp [captured, h]
    · simp [captured, (h time).1, (h time').1, Except.toOption, (h time).2.2, (h time').2.2]

theorem captured_of_declaresTime (source : Source) {entry : Entry}
    (h : entry.declaresTime = true) (time time' : Timestamp) :
    captured source (entry, time) = captured source (entry, time') := by
  cases entry with
  | broken line fault => cases h
  | value line json =>
    have hsame : recordsOf source time json = recordsOf source time' json := by
      unfold recordsOf
      cases henvelope : Envelope.ofJson json with
      | error error => rfl
      | ok envelope =>
        have hdeclared : envelope.timestamp.isSome = true := by
          simpa [Entry.declaresTime, henvelope, Except.toOption] using h
        simp only [Envelope.records_of_declared hdeclared source time time']
    simp only [captured, hsame]

/-! ## Taking entries -/

/-- The store after an entry was taken. -/
def take (s : Store) (file : String) (time : Timestamp) (entry : Entry) : Store :=
  (s.accept file time entry).1

/-- The store after entries were taken one after the other. -/
def takeAll (s : Store) (file : String) (time : Timestamp) (entries : List Entry) : Store :=
  entries.foldl (fun s e => s.take file time e) s

/-- The record with its file, and without its numbers. -/
def located (r : Record) : Option OsPath × Record := (r.logFile, r.asCaptured)

theorem number_located (file : String) (exchange seq : Nat) (records : List Record) :
    (number file exchange seq records).map located =
      records.map fun r => (some (.text file), r.asCaptured) := by
  induction records generalizing seq with
  | nil => rfl
  | cons first rest ih => simp [number, ih, located, Record.asCaptured]

/-- What taking an entry changes: it numbers the records of the entry as one exchange, if they are
any, or notes an error. -/
theorem take_eq (s : Store) (file : String) (time : Timestamp) (entry : Entry) :
    s.take file time entry =
      { s with
        staged := s.staged ++ number file s.nextExchange s.nextSeq (captured s.source (entry, time))
        errors := s.errors ++ (corruptEntry s.source file (entry, time)).toList
        nextSeq := s.nextSeq + (captured s.source (entry, time)).length
        nextExchange := s.nextExchange +
          if (corruption s.source (entry, time)).isNone then 1 else 0 } := by
  cases entry with
  | broken line fault =>
    cases line <;> simp [take, accept, reject, captured, corruptEntry, corruption, number]
  | value line json =>
    cases hrecords : recordsOf s.source time json with
    | error cause =>
      simp [take, accept, hrecords, reject, captured, corruptEntry, corruption, number,
        Except.toOption]
    | ok records =>
      simp [take, accept, hrecords, stage, captured, corruptEntry, corruption, Except.toOption]

/-- The number that taking an entry gives is that of its records. -/
theorem accept_eq (s : Store) (file : String) (time : Timestamp) (entry : Entry) :
    s.accept file time entry =
      (s.take file time entry, (captured s.source (entry, time)).length) := by
  refine Prod.ext rfl ?_
  cases entry with
  | broken line fault => cases line <;> rfl
  | value line json =>
    cases hrecords : recordsOf s.source time json <;>
      simp [accept, hrecords, captured, Except.toOption]

/-- What taking entries leaves alone. -/
theorem takeAll_frame (s : Store) (file : String) (time : Timestamp) (entries : List Entry) :
    (s.takeAll file time entries).source = s.source ∧
      (s.takeAll file time entries).folder = s.folder ∧
      (s.takeAll file time entries).files = s.files := by
  induction entries generalizing s with
  | nil => exact ⟨rfl, rfl, rfl⟩
  | cons entry rest ih =>
    have hrest := ih (s.take file time entry)
    have htake := take_eq s file time entry
    rw [htake] at hrest
    rw [takeAll, List.foldl_cons, htake]
    exact hrest

theorem takeAll_staged (s : Store) (file : String) (time : Timestamp) (entries : List Entry) :
    (s.takeAll file time entries).staged.map located =
      s.staged.map located ++
        (entries.flatMap fun e => captured s.source (e, time)).map (some (.text file), ·) := by
  induction entries generalizing s with
  | nil => simp [takeAll]
  | cons entry rest ih =>
    have hrest := ih (s.take file time entry)
    -- Located records do not show the numbers that were given to them.
    have hnumber := number_located file s.nextExchange s.nextSeq (captured s.source (entry, time))
    have hplain : (captured s.source (entry, time)).map
          (fun r => (some (OsPath.text file), r.asCaptured)) =
        (captured s.source (entry, time)).map (some (.text file), ·) := by
      conv => rhs; rw [← captured_asCaptured]
      simp
    rw [take_eq] at hrest
    rw [takeAll, List.foldl_cons, take_eq]
    apply hrest.trans
    simp [hnumber, hplain]

theorem takeAll_errors (s : Store) (file : String) (time : Timestamp) (entries : List Entry) :
    (s.takeAll file time entries).errors =
      s.errors ++ entries.filterMap fun e => corruptEntry s.source file (e, time) := by
  induction entries generalizing s with
  | nil => simp [takeAll]
  | cons entry rest ih =>
    have hrest := ih (s.take file time entry)
    rw [take_eq] at hrest
    rw [takeAll, List.foldl_cons, take_eq]
    apply hrest.trans
    cases hentry : corruptEntry s.source file (entry, time) <;> simp [hentry]

/-- The number that taking entries gives is what the counter of records goes up by. -/
theorem acceptAll_eq (s : Store) (file : String) (time : Timestamp) (entries : List Entry) :
    s.acceptAll file time entries =
        (s.takeAll file time entries, (s.takeAll file time entries).nextSeq - s.nextSeq) ∧
      s.nextSeq ≤ (s.takeAll file time entries).nextSeq := by
  induction entries generalizing s with
  | nil => exact ⟨by simp [acceptAll, takeAll], le_refl _⟩
  | cons entry rest ih =>
    rcases ih (s.take file time entry) with ⟨hrest, hle⟩
    have hfirst := congrArg nextSeq (take_eq s file time entry)
    have htaken : s.takeAll file time (entry :: rest) =
        (s.take file time entry).takeAll file time rest := rfl
    simp only at hfirst
    rw [htaken]
    refine ⟨?_, by omega⟩
    simp only [acceptAll, accept_eq, hrest, Prod.mk.injEq, true_and]
    omega

/-- A look at a file that can be read takes the entries beyond its cursor. -/
theorem readFile_eq {s : Store} {disk : Disk} {path : String} {file : File} {c next : Cursor}
    {entries : List Entry} {final : Bool} (hread : disk.read path = .ok file)
    (hcursor : (Cursors.find? path s.files).getD Cursor.start = c)
    (hscan : c.scan (file.bytes.drop c.offset) final = (next, entries)) :
    s.readFile disk path final =
      ({ s.takeAll path (file.time) entries with
          files := Cursors.set path next s.files },
        .ok ((s.takeAll path (file.time) entries).nextSeq - s.nextSeq)) := by
  have hfiles := (takeAll_frame s path (file.time) entries).2.2
  have hcount := (acceptAll_eq s path file.time entries).1
  simp only [readFile, hread, hcursor, hscan, hcount, hfiles]

/-! ## One file -/

/-- The records found in a file. -/
def recordsFrom (path : String) (records : List Record) : List Record :=
  records.filter (·.logFile = some (.text path))

/-- The errors found in a file. -/
def errorsIn (path : String) (errors : List CorruptEntry) : List CorruptEntry :=
  errors.filter (·.file = path)

/-- The records of a file, handed out ones included, and its errors are those of the readings. -/
structure Holds (s : Store) (handed : List Record) (path : String) (readings : List Reading) :
    Prop where
  records : (recordsFrom path (handed ++ s.staged)).map Record.asCaptured =
    readings.flatMap (captured s.source)
  errors : errorsIn path s.errors = readings.filterMap (corruptEntry s.source path)

theorem recordsFrom_asCaptured (path : String) (records : List Record) :
    (recordsFrom path records).map Record.asCaptured =
      ((records.map located).filter (·.1 = some (.text path))).map (·.2) := by
  rw [recordsFrom, List.filter_map, List.map_map]
  rfl

theorem holds_fresh (source : Source) (folder path : String) :
    (fresh source folder).Holds [] path [] :=
  ⟨rfl, rfl⟩

theorem Holds.drain {s : Store} {handed : List Record} {path : String} {readings : List Reading}
    (h : s.Holds handed path readings) :
    s.drain.1.Holds (handed ++ s.drain.2) path readings := by
  refine ⟨?_, h.errors⟩
  simpa [Store.drain] using h.records

/-- Entries of a file are readings of that file, and of no other. -/
theorem Holds.takeAll {s : Store} {handed : List Record} {path : String} {readings : List Reading}
    (h : s.Holds handed path readings) (file : String) (time : Timestamp) (entries : List Entry) :
    (s.takeAll file time entries).Holds handed path
      (readings ++ if file = path then entries.map (·, time) else []) := by
  have hsource := (takeAll_frame s file time entries).1
  constructor
  · have hrecords := h.records
    rw [recordsFrom_asCaptured] at hrecords ⊢
    rw [List.map_append, takeAll_staged, hsource, ← List.append_assoc, ← List.map_append,
      List.filter_append, List.map_append, hrecords, List.flatMap_append]
    -- The new records are all in the file, or none of them is.
    congr 1
    by_cases hfile : file = path
    · simp [hfile, List.filter_map, List.flatMap_map, Function.comp_def]
    · simp [hfile, List.filter_map, Function.comp_def]
  · have herrors := h.errors
    rw [errorsIn] at herrors ⊢
    rw [takeAll_errors, hsource, List.filter_append, herrors, List.filterMap_append]
    congr 1
    by_cases hfile : file = path
    · rw [if_pos hfile, List.filterMap_map, hfile]
      apply List.filter_eq_self.2
      intro e he
      rcases List.mem_filterMap.1 he with ⟨entry, -, hentry⟩
      rcases Option.map_eq_some_iff.1 hentry with ⟨found, -, rfl⟩
      simp
    · rw [if_neg hfile]
      apply List.filter_eq_nil_iff.2
      intro e he
      rcases List.mem_filterMap.1 he with ⟨entry, -, hentry⟩
      rcases Option.map_eq_some_iff.1 hentry with ⟨found, -, rfl⟩
      simpa using hfile

/-- The cursors play no part in what a store holds. -/
theorem Holds.withFiles {s : Store} {handed : List Record} {path : String}
    {readings : List Reading} (h : s.Holds handed path readings)
    (files : List (String × Cursor)) : { s with files }.Holds handed path readings :=
  ⟨h.records, h.errors⟩

end Store
end TraceAudit
