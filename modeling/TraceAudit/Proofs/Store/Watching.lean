import TraceAudit.Proofs.Store.Account
import TraceAudit.Proofs.Store.Resumption
import TraceAudit.Session.Watch

/-!
# Reading while files change

However files change while a store reads, and wherever it fails:

* `Store.Reader` is the contract of all operations that read: they only move cursors and take
  entries, and they do not look at what is staged already;
* `Store.pollDuring_reader`, `Store.settleDuring_reader` and `Store.watch_reader` say so of the
  operations, turn by turn and file by file;
* `Store.pollDuring_still` and `Store.settleDuring_still`: where nothing changes, these operations
  are `Store.poll` and `Store.pollThenFlush`;
* `Store.watch_still`: where nothing changes, only the first turn of a wait reads anything.
-/

namespace TraceAudit.Store

/-! ## Readers -/

/-- An operation that reads: it moves cursors and takes entries, and what it does and gives does not
hang on the records that are staged before. -/
structure Reader {α : Type} (operation : Store → Store × α) : Prop where
  reads : ∀ s : Store, s.Reads (operation s).1
  behind : ∀ (s : Store) records,
    operation (s.behind records) = ((operation s).1.behind records, (operation s).2)

/-- What a reader does is the same whether the staged records were handed out before or not. -/
theorem Reader.drained {α : Type} {operation : Store → Store × α} (h : Reader operation)
    (s : Store) :
    (operation s).1 = (operation s.drain.1).1.behind s.staged := by
  have hbehind := h.behind s.drain.1 s.staged
  rw [drain_behind] at hbehind
  exact congrArg Prod.fst hbehind

theorem readFile_reader (disk : Disk) (path : String) (final : Bool) :
    Reader fun s => s.readFile disk path final where
  reads s := s.readFile_reads disk path final
  behind s records := s.readFile_behind records disk path final

theorem ingestMeasured_reader (look : Look) (path : String) :
    Reader fun s => ingestMeasured look s path := by
  have hread := readFile_reader (look.reading path) path false
  constructor
  · intro s
    rw [ingestMeasured]
    split
    · exact .refl
    · split
      · exact .refl
      · exact hread.reads s
  · intro s records
    have hfiles : (s.behind records).files = s.files := rfl
    simp only [ingestMeasured, hfiles]
    split
    · rfl
    · split
      · rfl
      · exact hread.behind s records

/-- File by file, also when one of them fails. -/
theorem eachFile_reader {each : Store → String → Store × Except StoreError Nat}
    (heach : ∀ path, Reader fun s => each s path) (paths : List String) :
    Reader fun s => eachFile each s paths where
  reads s := eachFile_reads (fun t path => (heach path).reads t) s paths
  behind s _ := eachFile_commutes (fun t path => (heach path).behind t _) s paths

theorem pollDuring_reader (look : Look) : Reader fun s => s.pollDuring look := by
  have heach := eachFile_reader (ingestMeasured_reader look)
  constructor
  · intro s
    rw [pollDuring]
    split
    · exact .refl
    · exact (heach _).reads s
  · intro s records
    simp only [pollDuring]
    split
    · rfl
    · exact (heach _).behind s records

theorem flushDuring_reader (reading : String → Disk) :
    Reader fun s => s.flushDuring reading where
  reads s := (eachFile_reader (fun path => readFile_reader (reading path) path true) _).reads s
  behind s records :=
    (eachFile_reader (fun path => readFile_reader (reading path) path true) _).behind s records

/-- Also when the flush fails, the poll before it counts. -/
theorem settleDuring_reader (look : Look) (reading : String → Disk) :
    Reader fun s => s.settleDuring look reading := by
  have hpoll := pollDuring_reader look
  have hflush := flushDuring_reader reading
  constructor
  · intro s
    have hpolled := hpoll.reads s
    rw [settleDuring]
    rcases hresult : s.pollDuring look with ⟨polled, _ | n⟩
    · rw [hresult] at hpolled
      exact hpolled
    · rw [hresult] at hpolled
      have hflushed := hflush.reads polled
      rcases hlast : polled.flushDuring reading with ⟨last, _ | m⟩ <;> rw [hlast] at hflushed
      · simpa [hlast] using hpolled.trans hflushed
      · simpa [hlast] using hpolled.trans hflushed
  · intro s records
    have hpolled := hpoll.behind s records
    simp only [settleDuring]
    rw [hpolled]
    rcases s.pollDuring look with ⟨polled, _ | n⟩
    · rfl
    · have hflushed := hflush.behind polled records
      simp only at hflushed ⊢
      rw [hflushed]
      rcases polled.flushDuring reading with ⟨last, _ | m⟩ <;> rfl

/-- Turn by turn. Whether a turn is the last one hangs on what was read, and not on what of it was
handed out. -/
theorem watch_reader (engine : EngineSettings) (budgetMs changedMs : Nat)
    (glances : List Glance) : Reader fun s => s.watch engine budgetMs changedMs glances := by
  induction glances generalizing changedMs with
  | nil => exact ⟨fun s => .refl, fun s records => rfl⟩
  | cons glance rest ih =>
    have hpoll := pollDuring_reader glance.look
    constructor
    · intro s
      have hpolled := hpoll.reads s
      simp only [watch]
      split
      · exact .refl
      · rcases hresult : s.pollDuring glance.look with ⟨polled, _ | n⟩ <;> rw [hresult] at hpolled
        · exact hpolled
        · simp only
          split_ifs
          · exact hpolled
          · exact hpolled
          · exact hpolled.trans ((ih (glance.lastChange n changedMs)).reads polled)
    · intro s records
      have hpolled : (s.behind records).pollDuring glance.look =
          ((s.pollDuring glance.look).1.behind records, (s.pollDuring glance.look).2) :=
        hpoll.behind s records
      simp only [watch]
      rw [hpolled]
      split
      · rfl
      · rcases s.pollDuring glance.look with ⟨polled, _ | n⟩
        · rfl
        · have hcount : (polled.behind records).recordCount = polled.recordCount := rfl
          simp only [hcount]
          split_ifs
          · rfl
          · rfl
          · exact (ih (glance.lastChange n changedMs)).behind polled records

/-! ## A disk that does not change -/

section Still

variable {s polled : Store} {disk : Disk} {n : Nat}

theorem ingestMeasured_still (disk : Disk) (folder : String) (s : Store) (path : String) :
    ingestMeasured (Look.still disk folder) s path = ingestGrown disk s path := by
  cases hread : disk.read path with
  | error fault => simp only [ingestMeasured, ingestGrown, Look.still, hread, Except.map]
  | ok file => simp only [ingestMeasured, ingestGrown, Look.still, hread, Except.map]

theorem pollDuring_still (s : Store) (disk : Disk) :
    s.pollDuring (Look.still disk s.folder) = s.poll disk := by
  have heach : ingestMeasured (Look.still disk s.folder) = ingestGrown disk := by
    funext t path
    exact ingestMeasured_still disk s.folder t path
  rw [pollDuring, poll, heach, Look.still]
  by_cases hhas : disk.has s.folder = true
  · cases disk.filePaths s.folder with
    | error fault => simp [hhas]
    | ok paths => simp [hhas]
  · simp [hhas, eachFile]

theorem settleDuring_still (s : Store) (disk : Disk) :
    s.settleDuring (Look.still disk s.folder) (fun _ => disk) = s.pollThenFlush disk := by
  rw [settleDuring, pollDuring_still]
  rfl

theorem poll_reader (disk : Disk) : Reader fun s => s.poll disk where
  reads s := s.poll_reads disk
  behind s records := by
    have hbehind := (pollDuring_reader (Look.still disk s.folder)).behind s records
    simp only [pollDuring_still] at hbehind
    rw [← pollDuring_still]
    exact hbehind

theorem pollThenFlush_reader (disk : Disk) : Reader fun s => s.pollThenFlush disk where
  reads s := by
    have hreads := (settleDuring_reader (Look.still disk s.folder) fun _ => disk).reads s
    simpa only [settleDuring_still] using hreads
  behind s records := by
    have hbehind :=
      (settleDuring_reader (Look.still disk s.folder) fun _ => disk).behind s records
    simp only [settleDuring_still] at hbehind
    rw [← settleDuring_still]
    exact hbehind

/-- The log files hold at least what was read of them. -/
def CaughtUp (s : Store) (disk : Disk) : Prop :=
  ∀ path ∈ disk.filesIn s.folder,
    ((Cursors.find? path s.files).getD Cursor.start).offset ≤ (disk.content path).length

/-- A file was read to its end. -/
def HasSeen (s : Store) (disk : Disk) (path : String) : Prop :=
  (Cursors.find? path s.files).any (·.seen = (disk.content path).length) = true

/-- A look at a file sees it to its end, and reads no more than it holds. -/
theorem cursor_readFile {path : String} {file : File} (hread : disk.read path = .ok file)
    (hwithin : ((Cursors.find? path s.files).getD Cursor.start).offset ≤ file.bytes.length)
    (final : Bool) :
    ∃ c, Cursors.find? path (s.readFile disk path final).1.files = some c ∧
      c.offset ≤ file.bytes.length ∧ c.seen = file.bytes.length := by
  rcases hscan : ((Cursors.find? path s.files).getD Cursor.start).scan
    (file.bytes.drop ((Cursors.find? path s.files).getD Cursor.start).offset) final with ⟨c, found⟩
  have heats := Cursor.scan_eats ((Cursors.find? path s.files).getD Cursor.start)
    (file.bytes.drop ((Cursors.find? path s.files).getD Cursor.start).offset) final
  have hseen := Cursor.scan_seen ((Cursors.find? path s.files).getD Cursor.start)
    (file.bytes.drop ((Cursors.find? path s.files).getD Cursor.start).offset) final
  rw [hscan, List.length_drop, Nat.add_sub_cancel' hwithin] at heats hseen
  refine ⟨c, ?_, ?_, hseen⟩
  · rw [readFile_eq hread rfl hscan, Cursors.find?_set, if_pos rfl]
  · rcases heats with heaten | ⟨-, hle, -⟩
    · exact heaten.1.le
    · exact hle

/-- After a poll every file was read to its end. -/
theorem hasSeen_poll (h : s.CaughtUp disk) {path : String} (hpath : path ∈ disk.filesIn s.folder) :
    (s.poll disk).1.HasSeen disk path := by
  rcases Disk.read_of_mem_filesIn hpath with ⟨file, hread⟩
  have hcontent := Disk.content_of_read hread
  -- The cursor of the file is moved when it is the turn of the file, and by no other file.
  have hother : ∀ P : Option Cursor → Prop, ∀ t : Store, ∀ q ∈ disk.filesIn s.folder, q ≠ path →
      P (Cursors.find? path t.files) →
        (∃ n, (ingestGrown disk t q).2 = .ok n) ∧
          P (Cursors.find? path (ingestGrown disk t q).1.files) := by
    intro P t q hq hne hP
    have hkey : Path.orderKey q ≠ Path.orderKey path := fun heq =>
      hne (Disk.eq_of_orderKey_eq hq hpath heq)
    rcases Disk.read_of_mem_filesIn hq with ⟨other, hotherRead⟩
    refine ⟨ingestGrown_ok hotherRead t, ?_⟩
    rcases ingestGrown_cases disk t q with heq | heq
    · rw [heq]
      exact hP
    · rw [heq, find?_readFile_other t disk hkey false]
      exact hP
  have hturn : ∀ t : Store, Cursors.find? path t.files = Cursors.find? path s.files →
      (∃ n, (ingestGrown disk t path).2 = .ok n) ∧
        (ingestGrown disk t path).1.HasSeen disk path := by
    intro t hsame
    refine ⟨ingestGrown_ok hread t, ?_⟩
    rw [ingestGrown_of_read hread]
    split_ifs with hseen
    · rw [HasSeen, hcontent]
      exact hseen
    · have hoffset := h path hpath
      rw [← hsame, hcontent] at hoffset
      rcases cursor_readFile hread hoffset false with ⟨c, hc, -, hlength⟩
      simpa [HasSeen, hcontent, hc] using hlength
  rw [(poll_eq s disk).1]
  exact (eachFile_once (fun t => Cursors.find? path t.files = Cursors.find? path s.files)
    (fun t => t.HasSeen disk path) (Disk.filesIn_nodup disk s.folder) hpath
    (hother (· = Cursors.find? path s.files)) hturn
    (hother fun found => found.any (·.seen = (disk.content path).length) = true) rfl).2

theorem folder_poll (s : Store) (disk : Disk) : (s.poll disk).1.folder = s.folder :=
  poll_invariant (P := fun t => t.folder = s.folder)
    (fun t path ht _ => (readFile_frame t disk path false).2.1.trans ht) rfl

/-- A poll that succeeds has found no folder, or one that can be listed. -/
theorem listed_of_poll (h : (s.poll disk).2 = .ok n) (hhas : disk.has s.folder = true) :
    disk.filePaths s.folder = .ok (disk.filesIn s.folder) := by
  cases hpaths : disk.filePaths s.folder with
  | error fault => simp [poll, hhas, hpaths] at h
  | ok paths => rw [Disk.filesIn_of_filePaths hpaths]

/-- There is nothing new in a folder whose files were all read to their ends. -/
theorem poll_seen (hlisted : disk.has s.folder = true →
      disk.filePaths s.folder = .ok (disk.filesIn s.folder))
    (hseen : ∀ path ∈ disk.filesIn s.folder, s.HasSeen disk path) : s.poll disk = (s, .ok 0) := by
  rw [poll]
  by_cases hhas : disk.has s.folder = true
  · rw [if_pos hhas, hlisted hhas]
    apply eachFile_seen
    intro path hpath
    rcases Disk.read_of_mem_filesIn hpath with ⟨file, hread⟩
    have hlength := hseen path hpath
    rw [HasSeen, Disk.content_of_read hread] at hlength
    exact ⟨file, hread, hlength⟩
  · rw [if_neg hhas]

/-- There is nothing new in a folder that was polled, until it changes. -/
theorem poll_twice (h : s.CaughtUp disk) (hpoll : s.poll disk = (polled, .ok n)) :
    polled.poll disk = (polled, .ok 0) := by
  have hpolled : (s.poll disk).1 = polled := congrArg Prod.fst hpoll
  have hfolder : polled.folder = s.folder := by
    rw [← hpolled]
    exact folder_poll s disk
  apply poll_seen
  · rw [hfolder]
    exact listed_of_poll (congrArg Prod.snd hpoll)
  · intro path hpath
    rw [hfolder] at hpath
    rw [← hpolled]
    exact hasSeen_poll h hpath

/-- Turns in which there is nothing new, until the time is up. -/
theorem watch_quiet {look : Look} (hquiet : s.pollDuring look = (s, .ok 0))
    (engine : EngineSettings) (budgetMs changedMs : Nat) {times : List Nat}
    (hwithin : ∀ t ∈ times, t ≤ budgetMs) (hlast : times.getLast? = some budgetMs) :
    s.watch engine budgetMs changedMs (times.map (⟨false, look, ·⟩)) =
      (s, .ok (if 0 < s.recordCount ∧ engine.quiescenceMs ≤ budgetMs - changedMs then .quiescent
        else .timedOut)) := by
  induction times with
  | nil => cases hlast
  | cons t rest ih =>
    have ht := hwithin t List.mem_cons_self
    simp only [List.map_cons, watch, hquiet, Glance.lastChange, lt_irrefl, if_false,
      Bool.false_eq_true]
    by_cases hquietNow : 0 < s.recordCount ∧ engine.quiescenceMs ≤ t - changedMs
    · have hquietLater : 0 < s.recordCount ∧ engine.quiescenceMs ≤ budgetMs - changedMs :=
        ⟨hquietNow.1, by omega⟩
      rw [if_pos hquietNow, if_pos hquietLater]
    · rw [if_neg hquietNow]
      by_cases hover : budgetMs ≤ t
      · have hsame : t = budgetMs := Nat.le_antisymm ht hover
        rw [if_pos hover, ← hsame, if_neg hquietNow]
      · rw [if_neg hover]
        -- The time is not up, so this is not the last turn.
        refine ih (fun u hu => hwithin u (List.mem_cons_of_mem t hu)) ?_
        cases rest with
        | nil =>
          have hsame : t = budgetMs := by simpa using hlast
          exact absurd (le_of_eq hsame.symm) hover
        | cons u more => simpa using hlast

/-- A wait over a disk that does not change, with turns at any times from the start until the time
is up: the first turn reads what is there, and the others find nothing new. -/
theorem watch_still (h : s.CaughtUp disk) (engine : EngineSettings) (budgetMs : Nat)
    {times : List Nat} (hwithin : ∀ t ∈ times, t ≤ budgetMs)
    (hlast : (0 :: times).getLast? = some budgetMs) :
    s.watch engine budgetMs 0 ((0 :: times).map (⟨false, Look.still disk s.folder, ·⟩)) =
      ((s.poll disk).1, (s.poll disk).2.map fun _ =>
        if 0 < (s.poll disk).1.recordCount ∧ engine.quiescenceMs ≤ budgetMs then .quiescent
        else .timedOut) := by
  have hfirst := pollDuring_still s disk
  rcases hpoll : s.poll disk with ⟨polled, _ | n⟩ <;> rw [hpoll] at hfirst
  · simp only [List.map_cons, watch, hfirst, Bool.false_eq_true, if_false]
    rfl
  · -- However much the first turn read, it did so at the start.
    have hchange : ∀ glance : Glance, glance.atMs = 0 → glance.lastChange n 0 = 0 := by
      intro glance hstart
      simp [Glance.lastChange, hstart]
    have hfolder : polled.folder = s.folder := by
      have hkept := folder_poll s disk
      rw [hpoll] at hkept
      exact hkept
    have hquiet : polled.pollDuring (Look.still disk s.folder) = (polled, .ok 0) := by
      rw [← hfolder, pollDuring_still]
      exact poll_twice h hpoll
    simp only [List.map_cons, watch, hfirst, Bool.false_eq_true, if_false, Nat.zero_sub,
      hchange ⟨false, Look.still disk s.folder, 0⟩ rfl, Except.map]
    by_cases hnow : 0 < polled.recordCount ∧ engine.quiescenceMs ≤ 0
    · rw [if_pos hnow, if_pos ⟨hnow.1, by omega⟩]
    · rw [if_neg hnow]
      by_cases hover : budgetMs ≤ 0
      · have hzero : budgetMs = 0 := Nat.le_zero.1 hover
        rw [if_pos hover, hzero, if_neg hnow]
      · rw [if_neg hover]
        have hlater : times.getLast? = some budgetMs := by
          cases times with
          | nil =>
            have hzero : 0 = budgetMs := by simpa using hlast
            exact absurd (le_of_eq hzero.symm) hover
          | cons t more => simpa using hlast
        exact watch_quiet hquiet engine budgetMs 0 hwithin hlater

end Still

end TraceAudit.Store
