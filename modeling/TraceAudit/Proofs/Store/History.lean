import TraceAudit.Proofs.Disk.Growing
import TraceAudit.Proofs.Store.Log

/-!
# Histories of a store

A store is used while its files change. `Store.History.run` takes a store through any order of
operations and changes of the disk, and `Store.Growing` is the order in which files only grow.

* `Store.eachFile_invariant` and `Store.eachFile_induct` go through the files of one operation,
  `Store.poll_invariant` and `Store.flush_invariant` through those of a poll and of a flush;
* `Store.Watches` is what every poll of a folder keeps;
* `Store.Tracks` follows one file, `Store.Tracks.poll` through a poll and `Store.Tracks.flush`
  through the flush at the end.
-/

namespace TraceAudit.Store

/-- What happens around a store: the disk changes, or an operation is called. -/
inductive Event where
  | change (disk : Disk)
  | poll
  | ingest (path : String)
  | flush
  | load
  | drain

/-- A store in use, with the disk as it is and the records that were handed out. -/
structure History where
  disk : Disk
  store : Store
  handed : List Record

namespace History

/-- A store that has read nothing. -/
def start (disk : Disk) (source : Source) (folder : String) : History :=
  { disk, store := fresh source folder, handed := [] }

/-- One event. An operation that fails leaves what it has read until then. -/
def step (h : History) : Event → History
  | .change disk => { h with disk }
  | .poll => { h with store := (h.store.poll h.disk).1 }
  | .ingest path => { h with store := (h.store.ingest h.disk path).1 }
  | .flush => { h with store := (h.store.flush h.disk).1 }
  | .load => { h with store := (h.store.load h.disk).1 }
  | .drain => { h with store := h.store.drain.1, handed := h.handed ++ h.store.drain.2 }

/-- Events in order. -/
def run (h : History) (events : List Event) : History := events.foldl step h

end History

/-- Polls and drains, while the files of a folder are created and written at their ends. -/
def Growing (folder : String) : Disk → List Event → Prop
  | _, [] => True
  | disk, .change next :: rest => disk.GrowsIn folder next ∧ Growing folder next rest
  | disk, .poll :: rest => Growing folder disk rest
  | disk, .drain :: rest => Growing folder disk rest
  | _, _ :: _ => False

theorem Growing.growsIn {folder : String} {h : History} {events : List Event}
    (hgrowing : Growing folder h.disk events) :
    h.disk.GrowsIn folder (h.run events).disk := by
  induction events generalizing h with
  | nil =>
    exact Disk.growsIn_refl folder h.disk
  | cons event rest ih =>
    cases event with
    | change next =>
      rcases hgrowing with ⟨hnext, hrest⟩
      exact hnext.trans (ih (h := h.step (.change next)) hrest)
    | poll => exact ih (h := h.step .poll) hgrowing
    | drain => exact ih (h := h.step .drain) hgrowing
    | ingest path => cases hgrowing
    | flush => cases hgrowing
    | load => cases hgrowing

/-! ## Going through files -/

section EachFile

variable (each : Store → String → Store × Except StoreError Nat) (paths : List String) {s : Store}

/-- What every single file keeps, all files keep, also when one fails. -/
theorem eachFile_invariant {P : Store → Prop}
    (heach : ∀ s path, P s → path ∈ paths → P (each s path).1) (hs : P s) :
    P (eachFile each s paths).1 := by
  induction paths generalizing s with
  | nil => exact hs
  | cons path rest ih =>
    have hnext : P (each s path).1 := heach s path hs List.mem_cons_self
    have hrest := ih (fun s q hs hq => heach s q hs (List.mem_cons_of_mem path hq)) hnext
    -- A failure is the end, with the store as it is by then.
    rw [eachFile]
    rcases hpath : each s path with ⟨next, _ | n⟩
    · simpa [hpath] using hnext
    · rw [hpath] at hrest
      rcases htail : eachFile each next rest with ⟨last, _ | m⟩ <;> simpa [htail] using hrest

/-- When no file fails, going through all of them succeeds. The motive tells how far it has come:
it takes the files that are left. -/
theorem eachFile_induct {motive : List String → Store → Prop}
    (heach : ∀ s path rest, motive (path :: rest) s →
      (∃ n, (each s path).2 = .ok n) ∧ motive rest (each s path).1)
    (hs : motive paths s) :
    (∃ n, (eachFile each s paths).2 = .ok n) ∧ motive [] (eachFile each s paths).1 := by
  induction paths generalizing s with
  | nil => exact ⟨⟨0, rfl⟩, hs⟩
  | cons path rest ih =>
    rcases heach s path rest hs with ⟨⟨n, hn⟩, hnext⟩
    rcases ih hnext with ⟨⟨m, hm⟩, hlast⟩
    rw [eachFile]
    rcases hpath : each s path with ⟨next, result⟩
    rw [hpath] at hn hm hlast
    cases hn
    rcases htail : eachFile each next rest with ⟨last, result⟩
    rw [htail] at hm hlast
    cases hm
    exact ⟨⟨n + m, by simp [htail]⟩, by simpa [htail] using hlast⟩

variable {each paths} {t : Store} {n : Nat}

/-- Files that change nothing and give nothing, one by one, do so together. -/
theorem eachFile_still (h : ∀ path ∈ paths, each s path = (s, .ok 0)) :
    eachFile each s paths = (s, .ok 0) := by
  induction paths with
  | nil => rfl
  | cons path rest ih =>
    have hfirst := h path List.mem_cons_self
    have hrest := ih fun q hq => h q (List.mem_cons_of_mem path hq)
    simp [eachFile, hfirst, hrest]

/-- Where all files succeed, the first one and then the others do. -/
theorem eachFile_cons_ok {path : String} {rest : List String}
    (h : eachFile each s (path :: rest) = (t, .ok n)) :
    ∃ next k m, each s path = (next, .ok k) ∧ eachFile each next rest = (t, .ok m) ∧ n = k + m := by
  rw [eachFile] at h
  rcases hpath : each s path with ⟨next, fault | k⟩
  · simp [hpath] at h
  · rcases hrest : eachFile each next rest with ⟨last, fault | m⟩
    · simp [hpath, hrest] at h
    · simp only [hpath, hrest, Prod.mk.injEq, Except.ok.injEq] at h
      rcases h with ⟨rfl, rfl⟩
      exact ⟨next, k, m, rfl, hrest, rfl⟩

/-- After some files the others follow, and the numbers add up. -/
theorem eachFile_append {before : List String} (h : eachFile each s before = (t, .ok n))
    (after : List String) :
    eachFile each s (before ++ after) =
      ((eachFile each t after).1, (eachFile each t after).2.map (n + ·)) := by
  induction before generalizing s n with
  | nil =>
    cases h
    rw [List.nil_append]
    rcases eachFile each t after with ⟨last, _ | m⟩ <;> simp [Except.map]
  | cons path rest ih =>
    rcases eachFile_cons_ok h with ⟨next, k, m, hpath, htail, rfl⟩
    have hrest := ih htail
    rw [List.cons_append, eachFile]
    simp only [hpath, hrest]
    rcases eachFile each t after with ⟨last, _ | j⟩
    · rfl
    · simp [Except.map, Nat.add_assoc]

/-- A failure comes from one file, after others that did not fail. -/
theorem eachFile_of_error {e : StoreError} (h : (eachFile each s paths).2 = .error e) :
    ∃ before path after t n, paths = before ++ path :: after ∧
      eachFile each s before = (t, .ok n) ∧ (each t path).2 = .error e ∧
      (eachFile each s paths).1 = (each t path).1 := by
  induction paths generalizing s with
  | nil => cases h
  | cons path rest ih =>
    rw [eachFile] at h ⊢
    rcases hpath : each s path with ⟨next, fault | k⟩
    · rw [hpath] at h
      exact ⟨[], path, rest, s, 0, rfl, rfl, by rw [hpath]; exact h, by rw [hpath]⟩
    · rcases htail : eachFile each next rest with ⟨last, fault | m⟩
      · have hfailed : (eachFile each next rest).2 = .error e := by
          simpa [hpath, htail] using h
        rcases ih hfailed with ⟨before, failing, after, t, m, hrest, hbefore, hresult, hlast⟩
        refine ⟨path :: before, failing, after, t, k + m, by rw [hrest]; rfl, ?_, hresult, ?_⟩
        · simp [eachFile, hpath, hbefore]
        · simpa [htail] using hlast
      · simp [hpath, htail] at h

/-- Steps that do the same at each file do the same at all of them. -/
theorem eachFile_congr {each' : Store → String → Store × Except StoreError Nat}
    (h : ∀ path ∈ paths, ∀ s, each s path = each' s path) (s : Store) :
    eachFile each s paths = eachFile each' s paths := by
  induction paths generalizing s with
  | nil => rfl
  | cons path rest ih =>
    have hrest := ih fun q hq => h q (List.mem_cons_of_mem path hq)
    simp only [eachFile, h path List.mem_cons_self s, hrest]

/-- What no single file looks at, no list of files looks at. -/
theorem eachFile_commutes {f : Store → Store}
    (heach : ∀ s path, each (f s) path = (f (each s path).1, (each s path).2)) (s : Store)
    (paths : List String) :
    eachFile each (f s) paths = (f (eachFile each s paths).1, (eachFile each s paths).2) := by
  induction paths generalizing s with
  | nil => rfl
  | cons path rest ih =>
    rw [eachFile, eachFile, heach]
    rcases hpath : each s path with ⟨next, _ | n⟩
    · rfl
    · have hrest := ih next
      simp only at hrest ⊢
      rw [hrest]
      rcases eachFile each next rest with ⟨last, _ | m⟩ <;> rfl

end EachFile

/-- What reading a file leaves alone. -/
theorem readFile_frame (s : Store) (disk : Disk) (path : String) (final : Bool) :
    (s.readFile disk path final).1.source = s.source ∧
      (s.readFile disk path final).1.folder = s.folder ∧
      ∃ cursor, (s.readFile disk path final).1.files = Cursors.set path cursor s.files := by
  cases hread : disk.read path with
  | error fault =>
    have hkept : (s.readFile disk path final).1 =
        { s with
          files := Cursors.set path ((Cursors.find? path s.files).getD Cursor.start) s.files } := by
      simp [readFile, hread]
    rw [hkept]
    exact ⟨rfl, rfl, _, rfl⟩
  | ok file =>
    rw [readFile_eq hread rfl rfl]
    rcases takeAll_frame s path (file.time) _ with ⟨hsource, hfolder, -⟩
    exact ⟨hsource, hfolder, _, rfl⟩

/-- A file is read when its length is not the one that was seen last. -/
theorem ingestGrown_of_read {disk : Disk} {path : String} {file : File}
    (hread : disk.read path = .ok file) (s : Store) :
    ingestGrown disk s path =
      if (Cursors.find? path s.files).any (·.seen = file.bytes.length) then (s, .ok 0)
      else s.readFile disk path false := by
  simp only [ingestGrown, hread, ingest]

theorem ingestGrown_ok {disk : Disk} {path : String} {file : File}
    (hread : disk.read path = .ok file) (s : Store) :
    ∃ n, (ingestGrown disk s path).2 = .ok n := by
  rw [ingestGrown_of_read hread]
  split_ifs
  · exact ⟨0, rfl⟩
  · exact ⟨_, by rw [readFile_eq hread rfl rfl]⟩

/-- A file is read, or it is left alone. -/
theorem ingestGrown_cases (disk : Disk) (s : Store) (path : String) :
    (ingestGrown disk s path).1 = s ∨
      (ingestGrown disk s path).1 = (s.readFile disk path false).1 := by
  cases hread : disk.read path with
  | error fault => exact Or.inl (by simp [ingestGrown, hread])
  | ok file =>
    rw [ingestGrown_of_read hread]
    split_ifs
    · exact Or.inl rfl
    · exact Or.inr rfl

/-- A poll goes through the files of the folder. It fails only when the folder cannot be listed. -/
theorem poll_eq (s : Store) (disk : Disk) :
    (s.poll disk).1 = (eachFile (ingestGrown disk) s (disk.filesIn s.folder)).1 ∧
      (disk.filesIn s.folder ≠ [] →
        (s.poll disk).2 = (eachFile (ingestGrown disk) s (disk.filesIn s.folder)).2) := by
  rw [poll]
  by_cases hhas : disk.has s.folder = true
  · rw [if_pos hhas]
    cases hpaths : disk.filePaths s.folder with
    | error fault =>
      -- A folder that cannot be listed counts as empty.
      have hnone : disk.filesIn s.folder = [] := by simp [Disk.filesIn, hpaths, Except.toOption]
      rw [hnone]
      exact ⟨rfl, fun hne => absurd rfl hne⟩
    | ok paths =>
      rw [Disk.filesIn_of_filePaths hpaths]
      exact ⟨rfl, fun _ => rfl⟩
  · have hnone : disk.filesIn s.folder = [] :=
      List.eq_nil_iff_forall_not_mem.2 fun path hpath => hhas (Disk.has_of_mem_filesIn hpath)
    rw [if_neg hhas, hnone]
    exact ⟨rfl, fun hne => absurd rfl hne⟩

/-- What looks at the files of the folder keep, a poll keeps, also when it fails. -/
theorem poll_invariant {P : Store → Prop} {s : Store} {disk : Disk}
    (hread : ∀ t path, P t → path ∈ disk.filesIn s.folder → P (t.readFile disk path false).1)
    (hs : P s) : P (s.poll disk).1 := by
  rw [(poll_eq s disk).1]
  refine eachFile_invariant (ingestGrown disk) (disk.filesIn s.folder) (fun t path ht hpath => ?_) hs
  rcases ingestGrown_cases disk t path with heq | heq
  · rw [heq]
    exact ht
  · rw [heq]
    exact hread t path ht hpath

/-- What looks at the deferred files keep, a flush keeps, also when it fails. -/
theorem flush_invariant {P : Store → Prop} {s : Store} {disk : Disk}
    (hread : ∀ t path, P t → path ∈ s.deferredFiles → P (t.readFile disk path true).1)
    (hs : P s) : P (s.flush disk).1 :=
  eachFile_invariant (fun t path => t.readFile disk path true) s.deferredFiles hread hs

/-- A load of a folder is a poll and a flush. -/
theorem load_eq {s : Store} {disk : Disk} {n : Nat} (hhas : disk.has s.folder = true)
    (hpoll : (s.poll disk).2 = .ok n) :
    (s.load disk).1 = ((s.poll disk).1.flush disk).1 ∧
      ((∃ m, ((s.poll disk).1.flush disk).2 = .ok m) → ∃ m, (s.load disk).2 = .ok m) := by
  rw [load, if_pos hhas, pollThenFlush]
  rcases hpolled : s.poll disk with ⟨next, result⟩
  rw [hpolled] at hpoll
  cases hpoll
  rcases hflushed : next.flush disk with ⟨last, result⟩
  cases result with
  | error fault => simp [hflushed]
  | ok m => simp [hflushed]

/-- What polls and flushes keep, a load keeps, also when it fails. -/
theorem load_invariant {P : Store → Prop} {s : Store} {disk : Disk}
    (hpoll : ∀ s, P s → P (s.poll disk).1) (hflush : ∀ s, P s → P (s.flush disk).1) (hs : P s) :
    P (s.load disk).1 := by
  rw [load]
  split_ifs
  · have hpolled := hpoll s hs
    rw [pollThenFlush]
    rcases hresult : s.poll disk with ⟨polled, _ | n⟩ <;> rw [hresult] at hpolled
    · exact hpolled
    · have hflushed := hflush polled hpolled
      rcases hlast : polled.flush disk with ⟨last, _ | m⟩ <;> simpa [hlast] using hflushed
  · exact hs

/-! ## What polls keep -/

/-- The store reads one folder, and knows only files of it. -/
structure Watches (s : Store) (source : Source) (folder : String) (disk : Disk) : Prop where
  sameSource : s.source = source
  sameFolder : s.folder = folder
  ordered : Cursors.Ordered s.files
  listed : ∀ entry ∈ s.files, entry.1 ∈ disk.filesIn folder

section Watches

variable {s : Store} {source : Source} {folder path : String} {disk : Disk}

theorem watches_fresh (source : Source) (folder : String) (disk : Disk) :
    (fresh source folder).Watches source folder disk :=
  ⟨rfl, rfl, List.Pairwise.nil, by simp [fresh]⟩

theorem Watches.change {next : Disk} (h : s.Watches source folder disk)
    (hgrows : disk.GrowsIn folder next) : s.Watches source folder next :=
  ⟨h.sameSource, h.sameFolder, h.ordered, fun entry hentry => (hgrows _ (h.listed entry hentry)).1⟩

theorem Watches.drain (h : s.Watches source folder disk) :
    s.drain.1.Watches source folder disk :=
  ⟨h.sameSource, h.sameFolder, h.ordered, h.listed⟩

theorem Watches.readFile (h : s.Watches source folder disk) (hpath : path ∈ disk.filesIn folder)
    (final : Bool) : (s.readFile disk path final).1.Watches source folder disk := by
  rcases readFile_frame s disk path final with ⟨hsource, hfolder, cursor, hfiles⟩
  refine ⟨hsource.trans h.sameSource, hfolder.trans h.sameFolder, ?_, ?_⟩
  · rw [hfiles]
    exact Cursors.ordered_set h.ordered
  · intro entry hentry
    rw [hfiles] at hentry
    rcases Cursors.mem_set hentry with rfl | hentry
    · exact hpath
    · exact h.listed entry hentry

theorem Watches.poll (h : s.Watches source folder disk) :
    (s.poll disk).1.Watches source folder disk :=
  poll_invariant (P := fun t => t.Watches source folder disk)
    (fun _ _ ht hpath => ht.readFile (h.sameFolder ▸ hpath) false) h

theorem Watches.deferredFiles_listed (h : s.Watches source folder disk) :
    ∀ q ∈ s.deferredFiles, q ∈ disk.filesIn folder := by
  intro q hq
  rcases List.mem_map.1 hq with ⟨entry, hentry, rfl⟩
  exact h.listed entry (List.mem_of_mem_filter hentry)

theorem Watches.flush (h : s.Watches source folder disk) :
    (s.flush disk).1.Watches source folder disk :=
  flush_invariant (P := fun t => t.Watches source folder disk)
    (fun _ path ht hpath => ht.readFile (h.deferredFiles_listed path hpath) true) h

/-- A cursor is found under the path of its file only. -/
theorem Watches.find?_eq_some {c : Cursor} (h : s.Watches source folder disk)
    (hpath : path ∈ disk.filesIn folder) :
    Cursors.find? path s.files = some c ↔ (path, c) ∈ s.files := by
  constructor
  · intro hfind
    rcases Cursors.exists_of_find? hfind with ⟨p, hmem, hkey⟩
    rw [← Disk.eq_of_orderKey_eq (h.listed _ hmem) hpath hkey]
    exact hmem
  · exact Cursors.find?_of_mem h.ordered

end Watches

end TraceAudit.Store
