import TraceAudit.Proofs.Store.Pursuit

/-!
# When a store looks does not matter

A line-delimited file gives the same records and errors however it was cut into appends, and
whenever the store looked at it.

* `Store.Tracks` is what holds of one file between any two operations;
* `Store.byLines` follows such a file, `Store.History.Follows.run` through a history and
  `Store.Tracks.pollThenFlush` through the last poll and flush;
* `Store.SameButFileTime` lets two readings of the same entries differ in the times that entries do
  not declare: in nothing but times (`SameButFileTime.untimed`), and in nothing at all where every
  entry declares its own (`SameButFileTime.eq_of_declared`);
* `Store.poll_history_eq_load` compares a history with one load of the finished files.
-/

namespace TraceAudit.Store

open Scan

/-- The store has looked at the octets `seen` of a file at last, and holds what these looks gave. -/
def Tracks (s : Store) (handed : List Record) (path : String) (seen : Bytes) : Prop :=
  ∃ readings : List Reading, s.Holds handed path readings ∧
    ((Cursors.find? path s.files).getD Cursor.start).Follows seen (readings.map (·.1))

/-- The store holds what all lines of a file give. -/
def Settled (s : Store) (handed : List Record) (path : String) (whole : Bytes) : Prop :=
  ∃ readings : List Reading, s.Holds handed path readings ∧
    (readings.map (·.1)).map Entry.plain = (entries 1 whole).map Entry.plain

theorem tracks_fresh (source : Source) (folder path : String) :
    (fresh source folder).Tracks [] path [] :=
  ⟨[], holds_fresh source folder path, Cursor.follows_start⟩

/-- A line-delimited file is followed by its lines. Only the last look counts. -/
def byLines {whole : Bytes} (delimited : LineDelimited whole) : Pursuit whole where
  Stands c looks given := c.Follows (latest looks) given
  total _ := entries 1 whole
  start := Cursor.follows_start
  seen hfollows := hfollows.length
  again {c looks given} hfollows := by
    rw [latest_append]
    exact hfollows
  look {c looks given grown} hfollows _ hgrown hwhole := by
    rw [latest_append]
    exact hfollows.scan delimited hgrown hwhole
  settle {c looks given} hfollows hlast := by
    rw [hlast] at hfollows
    exact hfollows.settle delimited

/-! ## Histories -/

/-- Between any two events of a history, a file has been looked at up to some place, or it has not
been there yet. -/
structure History.Follows (h : History) (source : Source) (folder path : String) : Prop where
  watches : h.store.Watches source folder h.disk
  tracks : ∃ seen, h.store.Tracks h.handed path seen ∧
    (seen = [] ∨ path ∈ h.disk.filesIn folder ∧ seen <+: h.disk.content path)

theorem History.follows_start (disk : Disk) (source : Source) (folder path : String) :
    (History.start disk source folder).Follows source folder path :=
  ⟨watches_fresh source folder disk, [], tracks_fresh source folder path, Or.inl rfl⟩

theorem History.Follows.run {h : History} {source : Source} {folder path : String}
    {events : List Event} (hfollows : h.Follows source folder path)
    (hgrowing : Growing folder h.disk events) (hpath : path ∈ (h.run events).disk.filesIn folder)
    (delimited : LineDelimited ((h.run events).disk.content path)) :
    (h.run events).Follows source folder path := by
  rcases hfollows.tracks with ⟨seen, htracks, hseen⟩
  have hpursues : h.Pursues (byLines delimited) source folder path [seen] :=
    ⟨hfollows.watches, htracks, hseen⟩
  have hrun := hpursues.run hgrowing hpath rfl
  exact ⟨hrun.watches, _, hrun.pursues, hrun.grown⟩

/-! ## The same records and errors -/

/-- What two readings of the same entries give. Each entry was read at a file time of its own in
either of them, which only entries show that declare no time. -/
inductive SameButFileTime (source : Source) : List Entry → List Record → List Record → Prop
  | nil : SameButFileTime source [] [] []
  | cons {entry : Entry} {entries : List Entry} {time time' : Timestamp}
      {rest rest' : List Record} :
      (entry.declaresTime = true →
        captured source (entry, time) = captured source (entry, time')) →
      SameButFileTime source entries rest rest' →
      SameButFileTime source (entry :: entries) (captured source (entry, time) ++ rest)
        (captured source (entry, time') ++ rest')

/-- The cause without what is said about the fault of broken octets. -/
def plainCause : Corruption → Corruption
  | .brokenLine _ => .brokenLine default
  | .brokenDocument _ => .brokenDocument default
  | cause => cause

/-- The error without what is said about the fault of broken octets. -/
def plainError (e : CorruptEntry) : CorruptEntry := { e with cause := plainCause e.cause }

/-- The fault of broken octets gives no records, whatever it is. -/
theorem captured_of_plain (source : Source) {entry entry' : Entry} (h : entry.plain = entry'.plain)
    (time : Timestamp) : captured source (entry, time) = captured source (entry', time) := by
  cases entry with
  | value line json =>
    cases entry' with
    | value line' json' =>
      cases h
      rfl
    | broken line' fault' => cases h
  | broken line fault =>
    cases entry' with
    | value line' json' => cases h
    | broken line' fault' => rfl

/-- Two readings of the entries of a file. -/
theorem records_same (source : Source) {entries : List Entry} {readings readings' : List Reading}
    (h : (readings.map (·.1)).map Entry.plain = entries.map Entry.plain)
    (h' : (readings'.map (·.1)).map Entry.plain = entries.map Entry.plain) :
    SameButFileTime source entries (readings.flatMap (captured source))
      (readings'.flatMap (captured source)) := by
  induction entries generalizing readings readings' with
  | nil =>
    have hnil : readings = [] := by simpa using h
    have hnil' : readings' = [] := by simpa using h'
    rw [hnil, hnil']
    exact .nil
  | cons entry rest ih =>
    rcases List.map_eq_cons_iff.1 h with ⟨found, others, hfound, hplain, hothers⟩
    rcases List.map_eq_cons_iff.1 hfound with ⟨⟨found, time⟩, more, rfl, rfl, rfl⟩
    rcases List.map_eq_cons_iff.1 h' with ⟨found', others', hfound', hplain', hothers'⟩
    rcases List.map_eq_cons_iff.1 hfound' with ⟨⟨found', time'⟩, more', rfl, rfl, rfl⟩
    rw [List.flatMap_cons, List.flatMap_cons, captured_of_plain source hplain time,
      captured_of_plain source hplain' time']
    exact .cons (fun hdeclared => captured_of_declaresTime source hdeclared time time')
      (ih hothers hothers')

/-- Entries that agree but for the fault of broken octets are refused alike, at any time. -/
theorem error_same (source : Source) (path : String) {entry entry' : Entry}
    (h : entry.plain = entry'.plain) (time time' : Timestamp) :
    (corruptEntry source path (entry, time)).map plainError =
      (corruptEntry source path (entry', time')).map plainError := by
  have htime :
      corruptEntry source path (entry, time) = corruptEntry source path (entry, time') := by
    rw [corruptEntry, corruptEntry, corruption_time source entry time time']
  rw [htime]
  cases entry with
  | value line json =>
    cases entry' with
    | value line' json' =>
      cases h
      rfl
    | broken line' fault' => cases h
  | broken line fault =>
    cases entry' with
    | value line' json' => cases h
    | broken line' fault' =>
      cases h
      cases line <;> rfl

theorem errors_same (source : Source) (path : String) {readings readings' : List Reading}
    (h : (readings.map (·.1)).map Entry.plain = (readings'.map (·.1)).map Entry.plain) :
    (readings.filterMap (corruptEntry source path)).map plainError =
      (readings'.filterMap (corruptEntry source path)).map plainError := by
  induction readings generalizing readings' with
  | nil =>
    cases readings' with
    | nil => rfl
    | cons reading' rest' => cases h
  | cons reading rest ih =>
    cases readings' with
    | nil => cases h
    | cons reading' rest' =>
      simp only [List.map_cons, List.cons.injEq] at h
      have hrest := ih h.2
      have herror := error_same source path h.1 reading.2 reading'.2
      rw [List.filterMap_cons, List.filterMap_cons]
      cases hleft : corruptEntry source path reading <;>
        cases hright : corruptEntry source path reading' <;>
        simp_all

/-- Two readings of a file agree but for the time. -/
theorem SameButFileTime.untimed {source : Source} {entries : List Entry}
    {records records' : List Record} (h : SameButFileTime source entries records records') :
    records.map Record.untimed = records'.map Record.untimed := by
  induction h with
  | nil => rfl
  | @cons entry entries time time' rest rest' _ _ ih =>
    rw [List.map_append, List.map_append, captured_time source entry time time', ih]

/-- Two readings of a file in which all entries declare their times agree. -/
theorem SameButFileTime.eq_of_declared {source : Source} {entries : List Entry}
    {records records' : List Record} (h : SameButFileTime source entries records records')
    (hdeclared : ∀ entry ∈ entries, entry.declaresTime = true) : records = records' := by
  induction h with
  | nil => rfl
  | cons hsame _ ih =>
    rcases List.forall_mem_cons.1 hdeclared with ⟨hentry, hentries⟩
    rw [hsame hentry, ih hentries]

/-- A poll and a flush settle a file that was followed up to them. -/
theorem Tracks.pollThenFlush {s : Store} {handed : List Record} {source : Source}
    {folder path : String} {disk : Disk} {seen : Bytes} (htracks : s.Tracks handed path seen)
    (hwatch : s.Watches source folder disk) (hpath : path ∈ disk.filesIn folder)
    (delimited : LineDelimited (disk.content path)) (hseen : seen <+: disk.content path) :
    (∃ n, (s.poll disk).2 = .ok n) ∧ (∃ n, ((s.poll disk).1.flush disk).2 = .ok n) ∧
      ((s.poll disk).1.flush disk).1.Settled handed path (disk.content path) := by
  have hpursues : s.Pursues (byLines delimited) handed path [seen] := htracks
  exact hpursues.pollThenFlush hwatch hpath rfl hseen

/-- However a line-delimited file was cut into appends, and whenever the store looked at it in
between: after one more poll and a flush the records and the errors of the file are those of one
load of the finished folder. The records of both are those of the lines of the finished file, in
their order, and the errors agree in their lines and causes. -/
theorem poll_history_eq_load (source : Source) (folder path : String) (disk : Disk)
    (events : List Event) (hgrowing : Growing folder disk events)
    (hpath : path ∈ ((History.start disk source folder).run events).disk.filesIn folder)
    (delimited :
      LineDelimited (((History.start disk source folder).run events).disk.content path)) :
    let h := (History.start disk source folder).run events
    let polled := h.store.poll h.disk
    let flushed := polled.1.flush h.disk
    let loaded := (fresh source folder).load h.disk
    (∃ n, polled.2 = .ok n) ∧ (∃ n, flushed.2 = .ok n) ∧ (∃ n, loaded.2 = .ok n) ∧
      SameButFileTime source (entries 1 (h.disk.content path))
        ((recordsFrom path (h.handed ++ flushed.1.staged)).map Record.asCaptured)
        ((recordsFrom path loaded.1.staged).map Record.asCaptured) ∧
      (errorsIn path flushed.1.errors).map plainError =
        (errorsIn path loaded.1.errors).map plainError := by
  intro h polled flushed loaded
  have hfollows : h.Follows source folder path :=
    (History.follows_start disk source folder path).run hgrowing hpath delimited
  rcases hfollows.tracks with ⟨seen, htracks, hseen⟩
  have hprefix : seen <+: h.disk.content path := by
    rcases hseen with rfl | ⟨-, hprefix⟩
    · exact List.nil_prefix
    · exact hprefix
  rcases htracks.pollThenFlush hfollows.watches hpath delimited hprefix with
    ⟨hpoll, hflush, readings, hholds, hentries⟩
  -- A load is a history without events, and both histories end with the same entries of the file.
  have hfresh := watches_fresh source folder h.disk
  rcases (tracks_fresh source folder path).pollThenFlush hfresh hpath delimited List.nil_prefix with
    ⟨⟨n, hpollFresh⟩, hflushFresh, readings', hholds', hentries'⟩
  have hhas : h.disk.has folder = true := Disk.has_of_mem_filesIn hpath
  rcases load_eq (s := fresh source folder) hhas hpollFresh with ⟨hload, hloadOk⟩
  have hsource : flushed.1.source = source := hfollows.watches.poll.flush.sameSource
  have hsource' : loaded.1.source = source := hload ▸ hfresh.poll.flush.sameSource
  rw [← hload] at hholds'
  have hrecords := hholds.records
  have hrecords' := hholds'.records
  rw [hsource] at hrecords
  rw [hsource', List.nil_append] at hrecords'
  have herrors := hholds.errors
  have herrors' := hholds'.errors
  rw [hsource] at herrors
  rw [hsource'] at herrors'
  refine ⟨hpoll, hflush, hloadOk hflushFresh, ?_, ?_⟩
  · rw [hrecords, hrecords']
    exact records_same source hentries hentries'
  · rw [herrors, herrors']
    exact errors_same source path (hentries.trans hentries'.symm)

/-- The disk after a file was begun, in the middle of a value. -/
def begun : Disk :=
  Disk.empty.append "logs/a.log" (Utf8.ofString "\x7b\"path\":\"/\",\"requ") 5

/-- The disk after the file was finished, with a broken line at its end. -/
def finished : Disk :=
  begun.append "logs/a.log" (Utf8.ofString "est\":\x7b\x7d\x7d\nlost") 7

/-- The file is polled when it is begun and after it is finished, and handed out in between. -/
theorem poll_history_eq_load_begun :
    let h := (History.start Disk.empty .library "logs").run
      [.poll, .change begun, .poll, .drain, .change finished, .poll, .drain]
    let polled := h.store.poll h.disk
    let flushed := polled.1.flush h.disk
    let loaded := (fresh .library "logs").load h.disk
    (∃ n, polled.2 = .ok n) ∧ (∃ n, flushed.2 = .ok n) ∧ (∃ n, loaded.2 = .ok n) ∧
      SameButFileTime .library (entries 1 (h.disk.content "logs/a.log"))
        ((recordsFrom "logs/a.log" (h.handed ++ flushed.1.staged)).map Record.asCaptured)
        ((recordsFrom "logs/a.log" loaded.1.staged).map Record.asCaptured) ∧
      (errorsIn "logs/a.log" flushed.1.errors).map plainError =
        (errorsIn "logs/a.log" loaded.1.errors).map plainError :=
  poll_history_eq_load .library "logs" "logs/a.log" Disk.empty
    [.poll, .change begun, .poll, .drain, .change finished, .poll, .drain]
    ⟨by decide +kernel, by decide +kernel, trivial⟩ (by decide +kernel) (by decide +kernel)

end TraceAudit.Store
