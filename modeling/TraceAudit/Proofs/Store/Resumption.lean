import TraceAudit.Proofs.Store.Arrival
import TraceAudit.Proofs.Store.Document

/-!
# A load in two steps

A folder that does not change can be read in one go, or by a poll, after which the records are
handed out, and then by a second poll and a flush. Both ways give the same.

* `Store.Aside` is a change of a store that reading does not look at;
* `Store.behind` puts records in front of the staged ones, which is such a change;
* `Store.poll_again`: a second poll of a folder that did not change does nothing;
* `Store.load_resumed` puts both together.
-/

namespace TraceAudit.Store

/-! ## What reading does not look at -/

/-- Reading neither looks at what `f` changes nor changes it back. -/
structure Aside (f : Store → Store) : Prop where
  files : ∀ s, (f s).files = s.files
  nextSeq : ∀ s, (f s).nextSeq = s.nextSeq
  withFiles : ∀ s files, { f s with files } = f { s with files }
  take : ∀ s file time entry, (f s).take file time entry = f (s.take file time entry)

theorem Aside.readFile {f : Store → Store} (h : Aside f) (s : Store) (disk : Disk) (path : String)
    (final : Bool) :
    (f s).readFile disk path final =
      (f (s.readFile disk path final).1, (s.readFile disk path final).2) := by
  cases hread : disk.read path with
  | error fault => simp only [Store.readFile, hread, h.files, h.withFiles]
  | ok file =>
    rcases hscan : ((Cursors.find? path s.files).getD Cursor.start).scan
      (file.bytes.drop ((Cursors.find? path s.files).getD Cursor.start).offset) final with
      ⟨next, found⟩
    have htaken : (f s).takeAll path (file.time) found =
        f (s.takeAll path (file.time) found) :=
      List.foldl_hom f fun t entry => h.take t path (file.time) entry
    have hown := readFile_eq hread rfl hscan
    rw [← h.files s] at hscan
    have hchanged := readFile_eq hread rfl hscan
    rw [hchanged, hown, htaken, h.files, h.nextSeq, h.nextSeq, h.withFiles]

theorem Aside.flush {f : Store → Store} (h : Aside f) (s : Store) (disk : Disk) :
    (f s).flush disk = (f (s.flush disk).1, (s.flush disk).2) := by
  have hdeferred : (f s).deferredFiles = s.deferredFiles := by
    rw [deferredFiles, deferredFiles, h.files]
  rw [Store.flush, Store.flush, hdeferred]
  exact eachFile_commutes (fun t path => h.readFile t disk path true) s s.deferredFiles

/-! ## Records that are staged already -/

/-- The store with other records staged in front of its own. -/
def behind (s : Store) (records : List Record) : Store :=
  { s with staged := records ++ s.staged }

theorem drain_behind (s : Store) : s.drain.1.behind s.staged = s := by
  simp [drain, behind]

theorem aside_behind (records : List Record) : Aside (·.behind records) where
  files _ := rfl
  nextSeq _ := rfl
  withFiles _ _ := rfl
  take s file time entry := by
    rw [take_eq, take_eq]
    simp [behind]

/-- An outcome with other records staged in front. -/
def outcomeBehind (records : List Record) (outcome : Store × Except StoreError Nat) :
    Store × Except StoreError Nat :=
  (outcome.1.behind records, outcome.2)

theorem readFile_behind (s : Store) (records : List Record) (disk : Disk) (path : String)
    (final : Bool) :
    (s.behind records).readFile disk path final =
      outcomeBehind records (s.readFile disk path final) :=
  (aside_behind records).readFile s disk path final

theorem flush_behind (s : Store) (records : List Record) (disk : Disk) :
    (s.behind records).flush disk = outcomeBehind records (s.flush disk) :=
  (aside_behind records).flush s disk

/-! ## The second poll -/

/-- A file of the length that was seen last is not read. -/
theorem eachFile_seen {disk : Disk} {s : Store} {paths : List String}
    (h : ∀ path ∈ paths, ∃ file, disk.read path = .ok file ∧
      (Cursors.find? path s.files).any (·.seen = file.bytes.length) = true) :
    eachFile (ingestGrown disk) s paths = (s, .ok 0) := by
  apply eachFile_still
  intro path hpath
  rcases h path hpath with ⟨file, hread, hseen⟩
  rw [ingestGrown_of_read hread, if_pos hseen]

/-- After a first look at every file, each of them has the length that was seen. -/
theorem Looked.seen {s : Store} {source : Source} {folder : String} {disk : Disk}
    (h : s.Looked source disk (disk.filesIn folder)) :
    ∀ path ∈ disk.filesIn folder, ∃ file, disk.read path = .ok file ∧
      (Cursors.find? path s.files).any (·.seen = file.bytes.length) = true := by
  intro path hpath
  rcases Disk.read_of_mem_filesIn hpath with ⟨file, hread⟩
  have hordered : Cursors.Ordered s.files := by
    rw [h.files, Cursors.Ordered, List.pairwise_map]
    exact Disk.filesIn_ordered disk folder
  have hcursor : (path, (Cursor.firstLook (disk.content path)).1) ∈ s.files := by
    rw [h.files]
    exact List.mem_map.2 ⟨path, hpath, rfl⟩
  refine ⟨file, hread, ?_⟩
  rw [Cursors.find?_of_mem hordered hcursor, Disk.content_of_read hread]
  simp [Cursor.firstLook, Cursor.scan_seen, Cursor.start]

/-- Once a folder was polled, and however much of it was handed out since, there is nothing new in
it until it changes. -/
theorem poll_again {source : Source} {folder : String} {disk : Disk} {n : Nat}
    (h : ((fresh source folder).poll disk).2 = .ok n) {s : Store}
    (hfolder : s.folder = folder) (hfiles : s.files = ((fresh source folder).poll disk).1.files) :
    s.poll disk = (s, .ok 0) := by
  rw [poll, hfolder]
  by_cases hhas : disk.has folder = true
  · rw [if_pos hhas]
    cases hpaths : disk.filePaths folder with
    | error fault =>
      -- The first poll could list the folder.
      simp [poll, fresh, hhas, hpaths] at h
    | ok paths =>
      have hseen := (looked_poll source folder disk).2.seen
      rw [← hfiles, Disk.filesIn_of_filePaths hpaths] at hseen
      exact eachFile_seen hseen
  · rw [if_neg hhas]

/-! ## Both steps -/

theorem poll_of_load {s : Store} {disk : Disk} {n : Nat} (h : (s.load disk).2 = .ok n) :
    ∃ m, (s.poll disk).2 = .ok m := by
  rw [load] at h
  split_ifs at h with hhas
  · rw [pollThenFlush] at h
    rcases hpoll : s.poll disk with ⟨polled, _ | m⟩
    · simp [hpoll] at h
    · exact ⟨m, rfl⟩
  · exact ⟨0, by simp [poll, hhas]⟩

theorem flush_of_load {s : Store} {disk : Disk} {n : Nat} (hhas : disk.has s.folder = true)
    (h : (s.load disk).2 = .ok n) : ∃ m, ((s.poll disk).1.flush disk).2 = .ok m := by
  rw [load, if_pos hhas, pollThenFlush] at h
  rcases hpoll : s.poll disk with ⟨polled, _ | k⟩
  · simp [hpoll] at h
  · rcases hflush : polled.flush disk with ⟨last, _ | m⟩
    · simp [hpoll, hflush] at h
    · exact ⟨m, rfl⟩

/-- What a load gives, a poll and a later settling give, also when the records of the poll are
handed out in between. -/
theorem load_resumed {source : Source} {folder : String} {disk : Disk} {n : Nat}
    (h : ((fresh source folder).load disk).2 = .ok n) :
    let polled := (fresh source folder).poll disk
    let settled := polled.1.drain.1.pollThenFlush disk
    (∃ m, polled.2 = .ok m) ∧ (∃ m, settled.2 = .ok m) ∧
      ((fresh source folder).load disk).1 = settled.1.behind polled.1.staged := by
  intro polled settled
  rcases poll_of_load h with ⟨m, hpoll⟩
  have hfolder : polled.1.drain.1.folder = folder :=
    (watches_fresh source folder disk).poll.sameFolder
  have hagain : polled.1.drain.1.poll disk = (polled.1.drain.1, .ok 0) :=
    poll_again hpoll hfolder rfl
  -- The flush of the load has the records of the poll in front, and does not look at them.
  have hflush : polled.1.flush disk =
      outcomeBehind polled.1.staged (polled.1.drain.1.flush disk) := by
    rw [← flush_behind, drain_behind]
  rcases (load_staged source folder disk).1 with ⟨k, hk⟩
  have hflushed : (polled.1.drain.1.flush disk).2 = .ok k := by
    have hsecond := congrArg Prod.snd hflush
    exact hsecond.symm.trans hk
  have hsettled : settled = ((polled.1.drain.1.flush disk).1, .ok (0 + k)) := by
    simp only [settled, pollThenFlush, hagain]
    rcases hlast : polled.1.drain.1.flush disk with ⟨last, result⟩
    rw [hlast] at hflushed
    cases hflushed
    rfl
  refine ⟨⟨m, hpoll⟩, ⟨0 + k, by rw [hsettled]⟩, ?_⟩
  calc
    ((fresh source folder).load disk).1
      = (polled.1.flush disk).1 := load_fresh source folder disk
    _ = settled.1.behind polled.1.staged := by rw [hflush, hsettled]; rfl

end TraceAudit.Store
