import TraceAudit.Proofs.Store.Account

/-!
# Reading that fails half-way

An operation that fails leaves the store as it was before the file that could not be read, and
nothing that was read gets lost or is read again.

* `Cursor.scan_settled`: to settle a file twice is to settle it once;
* `Store.Quiet` says so of a file in a store, `Store.flush_quiet` of a store as a whole;
* `Store.Flushed` is what settling some files leaves of a store, and `Store.flush_resumed` goes on
  from there;
* `Store.failure_resumable` puts these together, for any history.
-/

namespace TraceAudit

open Scan

/-- What waits after a last look waits for ever: another one gives nothing and moves nothing. -/
theorem Cursor.scan_settled {c next : Cursor} {bytes : Bytes} {found : List Entry}
    (hscan : c.scan (bytes.drop c.offset) true = (next, found)) (hdeferred : next.deferred = true) :
    next.scan (bytes.drop next.offset) true = (next, []) := by
  have heats := scan_eats c (bytes.drop c.offset) true
  rw [hscan] at heats
  rcases heats with heaten | ⟨-, -, hfinal⟩
  · have hnot : next.deferred = false := heaten.2
    rw [hnot] at hdeferred
    cases hdeferred
  · -- Only white space waits, and it has no layout this time either.
    rcases hfinal rfl with ⟨hunknown, hblank⟩
    have hdetect := detect_of_isBlank hblank true
    have hnext : next =
        { c with
          seen := c.offset + (bytes.drop c.offset).length
          deferred := !(bytes.drop c.offset).isEmpty } := by
      simpa [scan, hunknown, hdetect] using (congrArg Prod.fst hscan).symm
    subst hnext
    simp [scan, hunknown, hdetect]

namespace Store

variable {s t : Store} {disk bad good : Disk} {path q : String} {n : Nat}

/-! ## One file -/

/-- A look at a file depends on that file only. -/
theorem readFile_congr (h : good.read path = bad.read path) (s : Store) (final : Bool) :
    s.readFile good path final = s.readFile bad path final := by
  simp only [readFile, h]

/-- A look at a file that cannot be read changes nothing but that the file is known now. -/
theorem readFile_of_error {fault : DiskFault} (h : disk.read path = .error fault) (s : Store)
    (final : Bool) :
    s.readFile disk path final =
      ({ s with
          files := Cursors.set path ((Cursors.find? path s.files).getD Cursor.start) s.files },
        .error (.unreadable path fault)) := by
  simp only [readFile, h]

/-- Only a file that cannot be read makes a look fail. -/
theorem error_of_readFile {final : Bool} {e : StoreError}
    (h : (s.readFile disk path final).2 = .error e) :
    ∃ fault, disk.read path = .error fault ∧ e = .unreadable path fault := by
  cases hread : disk.read path with
  | error fault =>
    rw [readFile_of_error hread] at h
    cases h
    exact ⟨fault, rfl, rfl⟩
  | ok file =>
    rw [readFile_eq hread rfl rfl] at h
    cases h

/-- A known file that cannot be read leaves the store as it was. -/
theorem readFile_failed {fault : DiskFault} (hordered : Cursors.Ordered s.files)
    (hknown : path ∈ s.files.map (·.1)) (h : disk.read path = .error fault) (final : Bool) :
    s.readFile disk path final = (s, .error (.unreadable path fault)) := by
  rcases List.mem_map.1 hknown with ⟨⟨p, c⟩, hmem, rfl⟩
  have hfind : Cursors.find? p s.files = some c := Cursors.find?_of_mem hordered hmem
  have hset : Cursors.set p c s.files = s.files := Cursors.set_of_mem hordered hmem
  simp [readFile_of_error h, hfind, hset]

theorem readFile_ordered (h : Cursors.Ordered s.files) (disk : Disk) (path : String)
    (final : Bool) : Cursors.Ordered (s.readFile disk path final).1.files := by
  rcases readFile_frame s disk path final with ⟨-, -, cursor, hfiles⟩
  simpa [hfiles] using Cursors.ordered_set h

/-- The file can be read, and to settle it changes nothing. -/
def Quiet (s : Store) (disk : Disk) (path : String) : Prop :=
  ∃ file, disk.read path = .ok file ∧ ∀ c, Cursors.find? path s.files = some c →
    c.deferred = true → c.scan (file.bytes.drop c.offset) true = (c, [])

theorem Quiet.congr (h : s.Quiet bad path) (hread : good.read path = bad.read path) :
    s.Quiet good path := by
  rcases h with ⟨file, hfile, hquiet⟩
  exact ⟨file, hread.trans hfile, hquiet⟩

/-- Something of the file waits. -/
def waits (s : Store) (path : String) : Bool :=
  ((Cursors.find? path s.files).getD Cursor.start).deferred

theorem quiet_of_not_waits {file : File} (hread : disk.read path = .ok file)
    (h : s.waits path = false) : s.Quiet disk path := by
  refine ⟨file, hread, ?_⟩
  intro c hc hdeferred
  have hnot : c.deferred = false := by simpa [waits, hc] using h
  rw [hnot] at hdeferred
  cases hdeferred

/-- Settling a file makes it quiet. -/
theorem quiet_readFile (s : Store) {file : File} (hread : disk.read path = .ok file) :
    (s.readFile disk path true).1.Quiet disk path := by
  refine ⟨file, hread, ?_⟩
  intro c hc hdeferred
  rcases hscan : ((Cursors.find? path s.files).getD Cursor.start).scan
    (file.bytes.drop ((Cursors.find? path s.files).getD Cursor.start).offset) true with ⟨next, found⟩
  have hnext : next = c := by
    simpa [readFile_eq hread rfl hscan, Cursors.find?_set] using hc
  exact Cursor.scan_settled (hnext ▸ hscan) hdeferred

theorem Quiet.of_find? (h : s.Quiet disk path)
    (hsame : Cursors.find? path t.files = Cursors.find? path s.files) : t.Quiet disk path := by
  rcases h with ⟨file, hfile, hquiet⟩
  exact ⟨file, hfile, fun c hc => hquiet c (hsame ▸ hc)⟩

/-- A quiet file is settled in vain. -/
theorem Quiet.settle (h : s.Quiet disk path) (hordered : Cursors.Ordered s.files)
    (hwaits : path ∈ s.deferredFiles) : s.readFile disk path true = (s, .ok 0) := by
  rcases h with ⟨file, hread, hquiet⟩
  rcases List.mem_map.1 hwaits with ⟨⟨p, c⟩, hentry, rfl⟩
  rcases List.mem_filter.1 hentry with ⟨hmem, hdeferred⟩
  have hfind : Cursors.find? p s.files = some c := Cursors.find?_of_mem hordered hmem
  have hset : Cursors.set p c s.files = s.files := Cursors.set_of_mem hordered hmem
  have hscan : c.scan (file.bytes.drop c.offset) true = (c, []) := hquiet c hfind hdeferred
  have hcursor : (Cursors.find? p s.files).getD Cursor.start = c := by simp [hfind]
  simp [readFile_eq hread hcursor hscan, takeAll, hset]

/-- A flush of quiet files changes nothing. -/
theorem flush_quiet (hordered : Cursors.Ordered s.files)
    (h : ∀ path ∈ s.deferredFiles, s.Quiet disk path) : s.flush disk = (s, .ok 0) := by
  apply eachFile_still
  intro path hpath
  exact (h path hpath).settle hordered hpath

/-! ## The files of a flush -/

theorem mem_deferredFiles (hordered : Cursors.Ordered s.files) :
    path ∈ s.deferredFiles ↔ path ∈ s.files.map (·.1) ∧ s.waits path = true := by
  constructor
  · intro hwaits
    rcases List.mem_map.1 hwaits with ⟨⟨p, c⟩, hentry, rfl⟩
    rcases List.mem_filter.1 hentry with ⟨hmem, hdeferred⟩
    have hfind : Cursors.find? p s.files = some c := Cursors.find?_of_mem hordered hmem
    exact ⟨List.mem_map.2 ⟨(p, c), hmem, rfl⟩, by simpa [waits, hfind] using hdeferred⟩
  · rintro ⟨hknown, hdeferred⟩
    rcases List.mem_map.1 hknown with ⟨⟨p, c⟩, hmem, rfl⟩
    have hfind : Cursors.find? p s.files = some c := Cursors.find?_of_mem hordered hmem
    have hc : c.deferred = true := by simpa [waits, hfind] using hdeferred
    exact List.mem_map.2 ⟨(p, c), List.mem_filter.2 ⟨hmem, hc⟩, rfl⟩

theorem deferredFiles_ordered (hordered : Cursors.Ordered s.files) :
    s.deferredFiles.Pairwise fun a b => Path.orderKey a < Path.orderKey b := by
  apply List.pairwise_map.2
  exact hordered.sublist List.filter_sublist

/-- The deferred files are those known files whose cursors say so. -/
theorem deferredFiles_eq_filter (hordered : Cursors.Ordered s.files) :
    s.deferredFiles = (s.files.map (·.1)).filter s.waits := by
  have hsame : ∀ entry ∈ s.files, entry.2.deferred = s.waits entry.1 := by
    rintro ⟨p, c⟩ hmem
    have hfind : Cursors.find? p s.files = some c := Cursors.find?_of_mem hordered hmem
    simp [waits, hfind]
  rw [deferredFiles, List.filter_map]
  exact congrArg (List.map (·.1)) (List.filter_congr hsame)

/-- What settling files one after the other leaves: the same files are known, these are quiet, and
the cursors of the others are as they were. -/
structure Flushed (disk : Disk) (paths : List String) (s t : Store) : Prop where
  known : t.files.map (·.1) = s.files.map (·.1)
  ordered : Cursors.Ordered t.files
  others : ∀ q, (∀ p ∈ paths, Path.orderKey p ≠ Path.orderKey q) →
    Cursors.find? q t.files = Cursors.find? q s.files
  quiet : ∀ p ∈ paths, t.Quiet disk p

theorem flushed_eachFile {paths : List String} (hordered : Cursors.Ordered s.files)
    (hknown : ∀ p ∈ paths, p ∈ s.files.map (·.1))
    (hpaths : paths.Pairwise fun a b => Path.orderKey a < Path.orderKey b)
    (h : eachFile (fun s p => s.readFile disk p true) s paths = (t, .ok n)) :
    Flushed disk paths s t := by
  induction paths generalizing s n with
  | nil =>
    cases h
    exact ⟨rfl, hordered, fun q _ => rfl, by simp⟩
  | cons path rest ih =>
    rcases List.pairwise_cons.1 hpaths with ⟨hfirst, hrest⟩
    rcases eachFile_cons_ok h with ⟨next, k, m, hpath, htail, -⟩
    have hnext : (s.readFile disk path true).1 = next := congrArg Prod.fst hpath
    rcases readFile_frame s disk path true with ⟨-, -, cursor, hfiles⟩
    rw [hnext] at hfiles
    have hsame : next.files.map (·.1) = s.files.map (·.1) := by
      rw [hfiles]
      exact Cursors.map_fst_set hordered (hknown path List.mem_cons_self)
    have hrestKnown : ∀ p ∈ rest, p ∈ next.files.map (·.1) := by
      intro p hp
      rw [hsame]
      exact hknown p (List.mem_cons_of_mem path hp)
    have hnextOrdered : Cursors.Ordered next.files :=
      hnext ▸ readFile_ordered hordered disk path true
    have hsettled := ih hnextOrdered hrestKnown hrest htail
    refine ⟨hsettled.known.trans hsame, hsettled.ordered, ?_, ?_⟩
    · intro q hq
      have hlater := hsettled.others q fun p hp => hq p (List.mem_cons_of_mem path hp)
      have hother := find?_readFile_other s disk (hq path List.mem_cons_self) true
      rw [hnext] at hother
      exact hlater.trans hother
    · intro p hp
      rcases List.mem_cons.1 hp with rfl | hlater
      · -- The file was settled first, and no later one has touched it.
        have hquiet : next.Quiet disk p := by
          cases hread : disk.read p with
          | error fault =>
            rw [readFile_of_error hread] at hpath
            cases hpath
          | ok file => exact hnext ▸ quiet_readFile s hread
        exact hquiet.of_find? (hsettled.others p fun r hr => ne_of_gt (hfirst r hr))
      · exact hsettled.quiet p hlater

/-! ## A flush that fails -/

/-- A flush that fails has settled the files before the one that it fails at, and that is all that
it has done. -/
theorem flush_failed {e : StoreError} (hordered : Cursors.Ordered s.files)
    (h : (s.flush bad).2 = .error e) :
    ∃ path fault before after k, e = .unreadable path fault ∧
      s.deferredFiles = before ++ path :: after ∧
      before = s.deferredFiles.filter (fun q => Path.orderKey q < Path.orderKey path) ∧
      eachFile (fun s q => s.readFile bad q true) s before = ((s.flush bad).1, .ok k) := by
  rcases eachFile_of_error h with ⟨before, path, after, t, k, hfiles, hbefore, hfailed, hlast⟩
  rcases error_of_readFile hfailed with ⟨fault, hread, rfl⟩
  have hpaths := deferredFiles_ordered hordered
  have hwaits : ∀ p ∈ s.deferredFiles, p ∈ s.files.map (·.1) := fun p hp =>
    ((mem_deferredFiles hordered).1 hp).1
  rw [hfiles] at hpaths hwaits
  rcases List.pairwise_append.1 hpaths with ⟨hfirst, hsecond, hcross⟩
  refine ⟨path, fault, before, after, k, rfl, hfiles, ?_, ?_⟩
  · have hkept : before.filter (fun q => Path.orderKey q < Path.orderKey path) = before := by
      apply List.filter_eq_self.2
      intro q hq
      simpa using hcross q hq path List.mem_cons_self
    have hleft : (path :: after).filter (fun q => Path.orderKey q < Path.orderKey path) = [] := by
      apply List.filter_eq_nil_iff.2
      intro q hq
      rcases List.mem_cons.1 hq with rfl | hafter
      · simp
      · simpa using le_of_lt ((List.pairwise_cons.1 hsecond).1 q hafter)
    rw [hfiles, List.filter_append, hkept, hleft, List.append_nil]
  · -- The file itself is known, so its cursor is put back as it was.
    have hsettled := flushed_eachFile hordered
      (fun p hp => hwaits p (List.mem_append_left _ hp)) hfirst hbefore
    have hknown : path ∈ t.files.map (·.1) := by
      rw [hsettled.known]
      exact hwaits path (List.mem_append_right _ List.mem_cons_self)
    have hstore : (s.flush bad).1 = t := by
      rw [flush, hlast, readFile_failed hsettled.ordered hknown hread]
    rw [hstore]
    exact hbefore

/-- After a flush of some of the files the others are deferred as before, and of these only quiet
ones. -/
theorem Flushed.deferredFiles {before after : List String} (h : Flushed disk before s t)
    (hordered : Cursors.Ordered s.files) (hfiles : s.deferredFiles = before ++ after) :
    ∃ idle, t.deferredFiles = idle ++ after ∧ ∀ p ∈ idle, p ∈ before := by
  have hpaths := deferredFiles_ordered hordered
  have hwaits : ∀ p ∈ s.deferredFiles, p ∈ s.files.map (·.1) ∧ s.waits p = true :=
    fun p hp => (mem_deferredFiles hordered).1 hp
  have hrest : t.deferredFiles = s.deferredFiles.filter t.waits := by
    rw [deferredFiles_eq_filter h.ordered, deferredFiles_eq_filter hordered, h.known,
      List.filter_filter]
    apply List.filter_congr
    intro q hq
    by_cases hbefore : q ∈ before
    · have hwaited := (hwaits q (hfiles ▸ List.mem_append_left _ hbefore)).2
      rw [hwaited, Bool.and_true]
    · -- The cursor of a file that was not settled is as it was.
      have hsame := h.others q fun p hp hkey => hbefore (by
        have hknown := (hwaits p (hfiles ▸ List.mem_append_left _ hp)).1
        exact Cursors.eq_of_orderKey_eq hordered hknown hq hkey ▸ hp)
      simp [waits, hsame]
  refine ⟨before.filter t.waits, ?_, fun p hp => (List.mem_filter.1 hp).1⟩
  rw [hfiles] at hpaths hwaits hrest
  rcases List.pairwise_append.1 hpaths with ⟨-, -, hcross⟩
  have hafter : after.filter t.waits = after := by
    apply List.filter_eq_self.2
    intro q hq
    have hsame := h.others q fun p hp => ne_of_lt (hcross p hp q hq)
    have hwaited := (hwaits q (List.mem_append_right _ hq)).2
    simpa [waits, hsame] using hwaited
  rw [hrest, List.filter_append, hafter]

/-- A flush can be cut in two anywhere: after some of its files were settled, another flush does
the rest. -/
theorem flush_resumed {before after : List String} (hordered : Cursors.Ordered s.files)
    (hfiles : s.deferredFiles = before ++ after)
    (hbefore : eachFile (fun s q => s.readFile bad q true) s before = (t, .ok n))
    (hsame : ∀ q ∈ before, good.read q = bad.read q) :
    s.flush good = ((t.flush good).1, (t.flush good).2.map (n + ·)) := by
  have hpaths := deferredFiles_ordered hordered
  rw [hfiles] at hpaths
  have hknown : ∀ p ∈ before, p ∈ s.files.map (·.1) := by
    intro p hp
    have hwaits : p ∈ s.deferredFiles := hfiles ▸ List.mem_append_left _ hp
    exact ((mem_deferredFiles hordered).1 hwaits).1
  have hsettled := flushed_eachFile hordered hknown (List.pairwise_append.1 hpaths).1 hbefore
  rcases hsettled.deferredFiles hordered hfiles with ⟨idle, hdeferred, hidle⟩
  have hquiet : eachFile (fun s q => s.readFile good q true) t idle = (t, .ok 0) := by
    apply eachFile_still
    intro p hp
    have hp' : p ∈ t.deferredFiles := hdeferred ▸ List.mem_append_left _ hp
    exact ((hsettled.quiet p (hidle p hp)).congr (hsame p (hidle p hp))).settle hsettled.ordered hp'
  have hfirst : eachFile (fun s q => s.readFile good q true) s before = (t, .ok n) :=
    (eachFile_congr (fun q hq s => readFile_congr (hsame q hq) s true) s).trans hbefore
  calc
    s.flush good
      = eachFile (fun s q => s.readFile good q true) s (before ++ after) := by
        rw [flush, hfiles]
    _ = ((eachFile (fun s q => s.readFile good q true) t after).1,
          (eachFile (fun s q => s.readFile good q true) t after).2.map (n + ·)) :=
        eachFile_append hfirst after
    _ = ((t.flush good).1, (t.flush good).2.map (n + ·)) := by
        rw [flush, hdeferred, eachFile_append hquiet]
        rcases eachFile (fun s q => s.readFile good q true) t after with ⟨last, _ | m⟩ <;>
          simp [Except.map]

/-! ## Histories -/

/-- What single looks keep, all operations and events keep. -/
theorem History.step_invariant {P : Store → Prop} {h : History}
    (hread : ∀ s disk path final, P s → P (s.readFile disk path final).1)
    (hdrain : ∀ s, P s → P s.drain.1) (hs : P h.store) (event : Event) : P (h.step event).store := by
  have hpoll : ∀ s : Store, P s → P (s.poll h.disk).1 := fun s hs =>
    poll_invariant (fun t path ht _ => hread t h.disk path false ht) hs
  have hflush : ∀ s : Store, P s → P (s.flush h.disk).1 := fun s hs =>
    flush_invariant (fun t path ht _ => hread t h.disk path true ht) hs
  cases event with
  | change disk => exact hs
  | poll => exact hpoll h.store hs
  | ingest path => exact hread h.store h.disk path false hs
  | flush => exact hflush h.store hs
  | load => exact load_invariant hpoll hflush hs
  | drain => exact hdrain h.store hs

theorem History.run_ordered {h : History} (hordered : Cursors.Ordered h.store.files)
    (events : List Event) : Cursors.Ordered (h.run events).store.files := by
  induction events generalizing h with
  | nil => exact hordered
  | cons event rest ih =>
    apply ih (h := h.step event)
    exact h.step_invariant (P := fun s => Cursors.Ordered s.files)
      (fun s disk path final hs => readFile_ordered hs disk path final) (fun s hs => hs) hordered
      event

/-- Whatever was called and changed before: a look at a file that fails leaves everything as it was,
but that a file that was not known is known now. A flush that fails has settled the files before the
one that cannot be read, and nothing else; and when the files that it has settled do not change, a
later flush does the rest, and both together give what one flush at that later moment gives. -/
theorem failure_resumable (source : Source) (folder : String) (disk : Disk) (events : List Event)
    (bad : Disk) :
    let s := ((History.start disk source folder).run events).store
    (∀ path e, (s.ingest bad path).2 = .error e →
      let failed := (s.ingest bad path).1
      failed.staged = s.staged ∧ failed.errors = s.errors ∧ failed.recordCount = s.recordCount ∧
        failed.nextExchange = s.nextExchange ∧
        ∀ q, Cursors.find? q failed.files = Cursors.find? q s.files ∨
          (Path.orderKey q = Path.orderKey path ∧ Cursors.find? q s.files = none ∧
            Cursors.find? q failed.files = some Cursor.start)) ∧
      ∀ e, (s.flush bad).2 = .error e →
        ∃ path fault k, e = .unreadable path fault ∧ path ∈ s.deferredFiles ∧
          let failed := (s.flush bad).1
          let before := s.deferredFiles.filter fun q => Path.orderKey q < Path.orderKey path
          eachFile (fun s q => s.readFile bad q true) s before = (failed, .ok k) ∧
            ∀ good : Disk, (∀ q ∈ before, good.read q = bad.read q) →
              (failed.flush good).1 = (s.flush good).1 ∧
                (s.flush good).2 = (failed.flush good).2.map (k + ·) := by
  intro s
  have hordered : Cursors.Ordered s.files :=
    History.run_ordered (h := History.start disk source folder) List.Pairwise.nil events
  constructor
  · intro path e he failed
    rcases error_of_readFile he with ⟨fault, hread, -⟩
    have hfailed : failed = { s with
        files := Cursors.set path ((Cursors.find? path s.files).getD Cursor.start) s.files } :=
      congrArg Prod.fst (readFile_of_error hread s false)
    rw [hfailed]
    refine ⟨rfl, rfl, rfl, rfl, ?_⟩
    intro q
    rw [Cursors.find?_set]
    by_cases hkey : Path.orderKey path = Path.orderKey q
    · -- Both are spellings of one path, which was known or is known now.
      have hsame : Cursors.find? path s.files = Cursors.find? q s.files := by
        simp only [Cursors.find?, hkey]
      rw [if_pos hkey, hsame]
      cases hfind : Cursors.find? q s.files with
      | none => exact Or.inr ⟨hkey.symm, rfl, rfl⟩
      | some c => exact Or.inl rfl
    · rw [if_neg hkey]
      exact Or.inl rfl
  · intro e he
    rcases flush_failed hordered he with
      ⟨path, fault, before, after, k, rfl, hfiles, hbefore, hsettled⟩
    have hpath : path ∈ s.deferredFiles := by simp [hfiles]
    refine ⟨path, fault, k, rfl, hpath, ?_⟩
    intro failed before'
    have hbefore' : before' = before := hbefore.symm
    rw [hbefore']
    refine ⟨hsettled, ?_⟩
    intro good hsame
    have hresumed := flush_resumed hordered hfiles hsettled hsame
    exact ⟨(congrArg Prod.fst hresumed).symm, congrArg Prod.snd hresumed⟩

/-- Three files of which something waits: white space, a document that is cut off behind a line with
a request, and a line that is cut off behind another one with a request. -/
def waiting : Disk :=
  ((Disk.empty.append "logs/a.log" (Utf8.ofString " \n") 5).append "logs/b.log"
    (Utf8.ofString "\x7b\n\"path\":\"/b\",\n\x7b\"path\":\"/b\",\"request\":\x7b\x7d\x7d\n") 6).append
    "logs/c.log"
    (Utf8.ofString "\x7b\"path\":\"/c\",\"request\":\x7b\x7d\x7d\n\x7b\"path\":\"/d\"") 7

/-- The last of them is away during a flush, and comes back. -/
theorem failure_resumable_waiting :
    let s := ((History.start waiting .agent "logs").run
      [.ingest "logs/a.log", .ingest "logs/c.log", .drain, .ingest "logs/b.log"]).store
    let bad := waiting.remove "logs/c.log"
    let failed := (s.flush bad).1
    (s.ingest bad "logs/c.log").1.staged = s.staged ∧
      (s.flush bad).2 = .error (.unreadable "logs/c.log" .notFound) ∧
      s.deferredFiles = ["logs/a.log", "logs/b.log", "logs/c.log"] ∧
      failed.errors.map (·.file) = ["logs/b.log", "logs/b.log"] ∧
      (failed.flush waiting).1 = (s.flush waiting).1 ∧
      (s.flush waiting).2 = (failed.flush waiting).2.map (1 + ·) := by
  intro s bad failed
  rcases failure_resumable .agent "logs" waiting
    [.ingest "logs/a.log", .ingest "logs/c.log", .drain, .ingest "logs/b.log"] bad with
    ⟨hingest, hflush⟩
  have hmissing : (s.ingest bad "logs/c.log").2 =
      .error (.unreadable "logs/c.log" .notFound) := by decide +kernel
  have hstops : (s.flush bad).2 = .error (.unreadable "logs/c.log" .notFound) := by
    decide +kernel
  have hfiles : s.deferredFiles = ["logs/a.log", "logs/b.log", "logs/c.log"] := by decide +kernel
  rcases hingest "logs/c.log" _ hmissing with ⟨hstaged, -⟩
  rcases hflush _ hstops with ⟨path, fault, k, heq, -, hbefore, hlater⟩
  cases heq
  have hsettled : s.deferredFiles.filter
      (fun q => Path.orderKey q < Path.orderKey "logs/c.log") = ["logs/a.log", "logs/b.log"] := by
    decide +kernel
  have hsame : ∀ q ∈ ["logs/a.log", "logs/b.log"], waiting.read q = bad.read q := by
    decide +kernel
  rcases hlater waiting (fun q hq => hsame q (hsettled ▸ hq)) with ⟨hstore, hcount⟩
  have hk : k = 1 := by
    have hgiven : (eachFile (fun s q => s.readFile bad q true) s
        ["logs/a.log", "logs/b.log"]).2 = .ok 1 := by decide +kernel
    rw [hsettled] at hbefore
    rw [hbefore] at hgiven
    exact Except.ok.inj hgiven
  rw [hk] at hcount
  exact ⟨hstaged, hstops, hfiles, by decide +kernel, hstore, hcount⟩

end Store
end TraceAudit
