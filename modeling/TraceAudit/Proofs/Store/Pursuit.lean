import TraceAudit.Proofs.Store.History
import TraceAudit.Proofs.Store.Lines

/-!
# Following one file through a history

A store looks at a file whenever a poll finds it grown, and once more when it is flushed. What is
known of the cursor in between depends on what the file holds; how the store gets from one look to
the next does not.

* `Pursuit` is what has to be known of the cursor of one file: what holds after any looks, that one
  more look keeps it, and what all looks give when the file is settled;
* `Store.Pursues` says it of the file in a store, `Store.Pursues.poll` and `Store.Pursues.flush`
  follow it through the operations;
* `Store.History.Pursues.run` follows it through a history in which files only grow.
-/

namespace TraceAudit

/-- The content that was looked at last, none before the first look. -/
def latest (looks : List Bytes) : Bytes := looks.getLastD []

theorem latest_append (looks : List Bytes) (content : Bytes) :
    latest (looks ++ [content]) = content := by
  simp [latest]

/-- What is known of the cursor of a file that grows until it holds `whole`. -/
structure Pursuit (whole : Bytes) where
  /-- What holds of a cursor after looks at these contents, which gave these entries. -/
  Stands : Cursor → List Bytes → List Entry → Prop
  /-- What the looks and the settling of the file give together. -/
  total : List Bytes → List Entry
  start : Stands Cursor.start [] []
  seen {c : Cursor} {looks : List Bytes} {given : List Entry} :
    Stands c looks given → c.seen = (latest looks).length
  /-- A file that is found unchanged need not be looked at. -/
  again {c : Cursor} {looks : List Bytes} {given : List Entry} :
    Stands c looks given → Stands c (looks ++ [latest looks]) given
  look {c : Cursor} {looks : List Bytes} {given : List Entry} {grown : Bytes} :
    Stands c looks given → c = Cursor.start ∨ latest looks ≠ grown → latest looks <+: grown →
      grown <+: whole → Stands (c.scan (grown.drop c.offset) false).1 (looks ++ [grown])
        (given ++ (c.scan (grown.drop c.offset) false).2)
  settle {c : Cursor} {looks : List Bytes} {given : List Entry} :
    Stands c looks given → latest looks = whole →
      (given ++ if c.deferred then (c.scan (whole.drop c.offset) true).2 else []).map Entry.plain =
        (total looks).map Entry.plain

namespace Store

variable {whole : Bytes}

/-- The store has looked at these contents of a file, and holds what these looks gave. -/
def Pursues (s : Store) (pursuit : Pursuit whole) (handed : List Record) (path : String)
    (looks : List Bytes) : Prop :=
  ∃ readings : List Reading, s.Holds handed path readings ∧
    pursuit.Stands ((Cursors.find? path s.files).getD Cursor.start) looks (readings.map (·.1))

/-- The store holds what all looks at a file give. -/
def Concludes (s : Store) (pursuit : Pursuit whole) (handed : List Record) (path : String)
    (looks : List Bytes) : Prop :=
  ∃ readings : List Reading, s.Holds handed path readings ∧
    (readings.map (·.1)).map Entry.plain = (pursuit.total looks).map Entry.plain

section Pursues

variable {pursuit : Pursuit whole} {s : Store} {handed : List Record} {source : Source}
  {folder path q : String} {disk : Disk} {file : File} {looks : List Bytes}

theorem pursues_fresh (pursuit : Pursuit whole) (source : Source) (folder path : String) :
    (fresh source folder).Pursues pursuit [] path [] :=
  ⟨[], holds_fresh source folder path, pursuit.start⟩

theorem Pursues.drain (h : s.Pursues pursuit handed path looks) :
    s.drain.1.Pursues pursuit (handed ++ s.drain.2) path looks := by
  rcases h with ⟨readings, hholds, hstands⟩
  exact ⟨readings, hholds.drain, hstands⟩

/-! ## One look -/

/-- One look at a file gives readings of this file. -/
theorem Holds.readFile {readings : List Reading} {c next : Cursor} {found : List Entry}
    {final : Bool} (h : s.Holds handed path readings) (hread : disk.read q = .ok file)
    (hcursor : (Cursors.find? q s.files).getD Cursor.start = c)
    (hscan : c.scan (file.bytes.drop c.offset) final = (next, found)) :
    (s.readFile disk q final).1.Holds handed path
      (readings ++
        if q = path then found.map (·, file.time) else []) := by
  rw [readFile_eq hread hcursor hscan]
  exact (h.takeAll q (file.time) found).withFiles _

theorem Holds.readFile_other {readings : List Reading} (h : s.Holds handed path readings)
    (hread : disk.read q = .ok file) (hkey : Path.orderKey q ≠ Path.orderKey path) (final : Bool) :
    (s.readFile disk q final).1.Holds handed path readings := by
  have hne : q ≠ path := fun heq => hkey (congrArg Path.orderKey heq)
  rcases hscan : ((Cursors.find? q s.files).getD Cursor.start).scan
    (file.bytes.drop ((Cursors.find? q s.files).getD Cursor.start).offset) final with ⟨next, found⟩
  have hholds := h.readFile hread rfl hscan
  rw [if_neg hne, List.append_nil] at hholds
  exact hholds

theorem find?_readFile_other (s : Store) (disk : Disk)
    (hkey : Path.orderKey q ≠ Path.orderKey path) (final : Bool) :
    Cursors.find? path (s.readFile disk q final).1.files = Cursors.find? path s.files := by
  rcases readFile_frame s disk q final with ⟨-, -, cursor, hfiles⟩
  rw [hfiles, Cursors.find?_set, if_neg hkey]

/-- A look at another file. -/
theorem Pursues.readFile_other (h : s.Pursues pursuit handed path looks)
    (hread : disk.read q = .ok file) (hkey : Path.orderKey q ≠ Path.orderKey path) (final : Bool) :
    (s.readFile disk q final).1.Pursues pursuit handed path looks := by
  rcases h with ⟨readings, hholds, hstands⟩
  refine ⟨readings, hholds.readFile_other hread hkey final, ?_⟩
  rw [find?_readFile_other s disk hkey final]
  exact hstands

/-- A file is looked at when it has grown, and is left alone when it has not. -/
theorem Pursues.ingestGrown (h : s.Pursues pursuit handed path looks)
    (hread : disk.read path = .ok file) (hgrown : latest looks <+: file.bytes)
    (hwhole : file.bytes <+: whole) :
    (Store.ingestGrown disk s path).1.Pursues pursuit handed path (looks ++ [file.bytes]) := by
  rcases h with ⟨readings, hholds, hstands⟩
  have hlength := pursuit.seen hstands
  rw [ingestGrown_of_read hread]
  by_cases hseen : (Cursors.find? path s.files).any (·.seen = file.bytes.length) = true
  · -- The file has the length of what was seen, and has only grown.
    have hsame : latest looks = file.bytes := by
      apply hgrown.eq_of_length
      cases hcursor : Cursors.find? path s.files with
      | none => simp [hcursor] at hseen
      | some c =>
        simp only [hcursor, Option.getD_some] at hlength
        simp only [hcursor, Option.any_some, decide_eq_true_eq] at hseen
        omega
    rw [if_pos hseen, ← hsame]
    exact ⟨readings, hholds, pursuit.again hstands⟩
  · -- What the look gives is added to the readings, and the cursor follows it.
    have hnew : (Cursors.find? path s.files).getD Cursor.start = Cursor.start ∨
        latest looks ≠ file.bytes := by
      cases hcursor : Cursors.find? path s.files with
      | none => exact Or.inl rfl
      | some c =>
        refine Or.inr fun heq => hseen ?_
        rw [hcursor, Option.getD_some, heq] at hlength
        simp [hcursor, hlength]
    have hnext := pursuit.look hstands hnew hgrown hwhole
    rcases hscan : ((Cursors.find? path s.files).getD Cursor.start).scan
      (file.bytes.drop ((Cursors.find? path s.files).getD Cursor.start).offset) false with
      ⟨next, found⟩
    rw [hscan] at hnext
    rw [if_neg hseen]
    refine ⟨_, hholds.readFile hread rfl hscan, ?_⟩
    rw [readFile_eq hread rfl hscan]
    simpa [Cursors.find?_set, Function.comp_def] using hnext

theorem Pursues.ingestGrown_other (h : s.Pursues pursuit handed path looks)
    (hread : disk.read q = .ok file) (hkey : Path.orderKey q ≠ Path.orderKey path) :
    (Store.ingestGrown disk s q).1.Pursues pursuit handed path looks := by
  rcases ingestGrown_cases disk s q with heq | heq
  · rw [heq]
    exact h
  · rw [heq]
    exact h.readFile_other hread hkey false

/-! ## A poll -/

/-- A poll of a folder with the file in it. -/
theorem Pursues.poll (h : s.Pursues pursuit handed path looks)
    (hwatch : s.Watches source folder disk) (hpath : path ∈ disk.filesIn folder)
    (hgrown : latest looks <+: disk.content path) (hwhole : disk.content path <+: whole) :
    (∃ n, (s.poll disk).2 = .ok n) ∧
      (s.poll disk).1.Pursues pursuit handed path (looks ++ [disk.content path]) := by
  rcases Disk.read_of_mem_filesIn hpath with ⟨file, hread⟩
  have hcontent : disk.content path = file.bytes := Disk.content_of_read hread
  have hnodup : (disk.filesIn folder).Nodup :=
    (Disk.filesIn_ordered disk folder).imp fun hlt heq => absurd (heq ▸ hlt) (lt_irrefl _)
  have hne : disk.filesIn folder ≠ [] := List.ne_nil_of_mem hpath
  rcases poll_eq s disk with ⟨hstore, hresult⟩
  rw [hwatch.sameFolder] at hstore hresult
  rw [hstore, hresult hne]
  -- The file comes up once: it has these looks before its turn, and one more afterwards.
  have hall := eachFile_induct (Store.ingestGrown disk) (disk.filesIn folder)
    (motive := fun rest s => rest.Nodup ∧ (∀ q ∈ rest, q ∈ disk.filesIn folder) ∧
      s.Pursues pursuit handed path
        (if path ∈ rest then looks else looks ++ [disk.content path])) ?_
    (s := s) ⟨hnodup, fun q hq => hq, by rw [if_pos hpath]; exact h⟩
  · rcases hall with ⟨hok, -, -, hpursues⟩
    exact ⟨hok, by simpa using hpursues⟩
  · rintro s q rest ⟨hnodup, hlisted, hpursues⟩
    rcases List.nodup_cons.1 hnodup with ⟨hq, hrest⟩
    rcases Disk.read_of_mem_filesIn (hlisted q List.mem_cons_self) with ⟨other, hother⟩
    refine ⟨ingestGrown_ok hother s, hrest, fun r hr => hlisted r (List.mem_cons_of_mem q hr), ?_⟩
    by_cases hsame : q = path
    · subst hsame
      rw [if_pos List.mem_cons_self] at hpursues
      rw [if_neg hq, hcontent]
      rw [hcontent] at hgrown hwhole
      exact hpursues.ingestGrown hread hgrown hwhole
    · have hkey : Path.orderKey q ≠ Path.orderKey path := fun heq =>
        hsame (Disk.eq_of_orderKey_eq (hlisted q List.mem_cons_self) hpath heq)
      have hmem : path ∈ q :: rest ↔ path ∈ rest := by simp [Ne.symm hsame]
      simp only [hmem] at hpursues
      exact hpursues.ingestGrown_other hother hkey

/-- A poll of a folder without the file. -/
theorem Pursues.poll_other (h : s.Pursues pursuit handed path looks)
    (hwatch : s.Watches source folder disk)
    (hother : ∀ q ∈ disk.filesIn folder, Path.orderKey q ≠ Path.orderKey path) :
    (s.poll disk).1.Pursues pursuit handed path looks := by
  refine poll_invariant (P := fun t => t.Pursues pursuit handed path looks) (fun t q ht hq => ?_) h
  rw [hwatch.sameFolder] at hq
  rcases Disk.read_of_mem_filesIn hq with ⟨file, hread⟩
  exact ht.readFile_other hread (hother q hq) false

/-! ## The last flush -/

theorem Watches.mem_deferredFiles (hwatch : s.Watches source folder disk)
    (hpath : path ∈ disk.filesIn folder) :
    path ∈ s.deferredFiles ↔
      ((Cursors.find? path s.files).getD Cursor.start).deferred = true := by
  have hmem : path ∈ s.deferredFiles ↔ ∃ c, (path, c) ∈ s.files ∧ c.deferred = true := by
    simp [deferredFiles]
  rw [hmem]
  constructor
  · rintro ⟨c, hc, hdeferred⟩
    rw [(hwatch.find?_eq_some hpath).2 hc]
    exact hdeferred
  · intro hdeferred
    cases hcursor : Cursors.find? path s.files with
    | none =>
      rw [hcursor] at hdeferred
      cases hdeferred
    | some c =>
      rw [hcursor] at hdeferred
      exact ⟨c, (hwatch.find?_eq_some hpath).1 hcursor, hdeferred⟩

theorem Watches.deferredFiles_nodup (hwatch : s.Watches source folder disk) :
    s.deferredFiles.Nodup := by
  have hkeys : (s.files.map (·.1)).Nodup :=
    List.pairwise_map.2 (hwatch.ordered.imp fun hlt heq => absurd (heq ▸ hlt) (lt_irrefl _))
  exact hkeys.sublist (List.filter_sublist.map _)

/-- The last look at the file itself, when something of it waits. -/
theorem Pursues.settle (h : s.Pursues pursuit handed path looks)
    (hread : disk.read path = .ok file) (hbytes : file.bytes = whole)
    (hlast : latest looks = whole)
    (hdeferred : ((Cursors.find? path s.files).getD Cursor.start).deferred = true) :
    (s.readFile disk path true).1.Concludes pursuit handed path looks := by
  rcases h with ⟨readings, hholds, hstands⟩
  rcases hscan : ((Cursors.find? path s.files).getD Cursor.start).scan
    (whole.drop ((Cursors.find? path s.files).getD Cursor.start).offset) true with ⟨next, found⟩
  have htotal := pursuit.settle hstands hlast
  rw [if_pos hdeferred, hscan] at htotal
  refine ⟨_, hholds.readFile hread rfl (hbytes ▸ hscan), ?_⟩
  simpa [Function.comp_def] using htotal

/-- Nothing of the file waits. -/
theorem Pursues.concludes (h : s.Pursues pursuit handed path looks) (hlast : latest looks = whole)
    (hdeferred : ¬((Cursors.find? path s.files).getD Cursor.start).deferred = true) :
    s.Concludes pursuit handed path looks := by
  rcases h with ⟨readings, hholds, hstands⟩
  have htotal := pursuit.settle hstands hlast
  rw [if_neg hdeferred, List.append_nil] at htotal
  exact ⟨readings, hholds, htotal⟩

theorem Concludes.readFile_other (h : s.Concludes pursuit handed path looks)
    (hread : disk.read q = .ok file) (hkey : Path.orderKey q ≠ Path.orderKey path) (final : Bool) :
    (s.readFile disk q final).1.Concludes pursuit handed path looks := by
  rcases h with ⟨readings, hholds, hentries⟩
  exact ⟨readings, hholds.readFile_other hread hkey final, hentries⟩

/-- A flush has still to come to the file, or it has settled it. -/
def Flushing (s : Store) (pursuit : Pursuit whole) (handed : List Record) (path : String)
    (looks : List Bytes) (rest : List String) : Prop :=
  if path ∈ rest then
    s.Pursues pursuit handed path looks ∧
      ((Cursors.find? path s.files).getD Cursor.start).deferred = true
  else s.Concludes pursuit handed path looks

theorem Flushing.readFile_other {rest : List String}
    (h : s.Flushing pursuit handed path looks (q :: rest)) (hread : disk.read q = .ok file)
    (hkey : Path.orderKey q ≠ Path.orderKey path) :
    (s.readFile disk q true).1.Flushing pursuit handed path looks rest := by
  have hne : path ≠ q := fun heq => hkey (congrArg Path.orderKey heq.symm)
  have hmem : path ∈ q :: rest ↔ path ∈ rest := by simp [hne]
  rw [Flushing] at h ⊢
  simp only [hmem] at h
  by_cases hrest : path ∈ rest
  · rw [if_pos hrest] at h ⊢
    refine ⟨h.1.readFile_other hread hkey true, ?_⟩
    rw [find?_readFile_other s disk hkey true]
    exact h.2
  · rw [if_neg hrest] at h ⊢
    exact h.readFile_other hread hkey true

/-- A flush, when all of the finished file was looked at. -/
theorem Pursues.flush (h : s.Pursues pursuit handed path looks)
    (hwatch : s.Watches source folder disk) (hpath : path ∈ disk.filesIn folder)
    (hcontent : disk.content path = whole) (hlast : latest looks = whole) :
    (∃ n, (s.flush disk).2 = .ok n) ∧
      (s.flush disk).1.Concludes pursuit handed path looks := by
  have hstart : s.Flushing pursuit handed path looks s.deferredFiles := by
    have hwaits := hwatch.mem_deferredFiles hpath
    rw [Flushing]
    by_cases hdeferred : path ∈ s.deferredFiles
    · rw [if_pos hdeferred]
      exact ⟨h, hwaits.1 hdeferred⟩
    · rw [if_neg hdeferred]
      exact h.concludes hlast fun heq => hdeferred (hwaits.2 heq)
  rw [Store.flush]
  have hall := eachFile_induct (fun s q => s.readFile disk q true) s.deferredFiles
    (motive := fun rest s => rest.Nodup ∧ (∀ q ∈ rest, q ∈ disk.filesIn folder) ∧
      s.Flushing pursuit handed path looks rest) ?_
    (s := s) ⟨hwatch.deferredFiles_nodup, hwatch.deferredFiles_listed, hstart⟩
  · rcases hall with ⟨hok, -, -, hend⟩
    exact ⟨hok, by simpa [Flushing] using hend⟩
  · rintro s q rest ⟨hnodup, hlisted, hflushing⟩
    rcases List.nodup_cons.1 hnodup with ⟨hq, hrest⟩
    have hqlisted := hlisted q List.mem_cons_self
    rcases Disk.read_of_mem_filesIn hqlisted with ⟨other, hother⟩
    refine ⟨⟨_, by rw [readFile_eq hother rfl rfl]⟩, hrest,
      fun r hr => hlisted r (List.mem_cons_of_mem q hr), ?_⟩
    by_cases hsame : q = path
    · -- It is the turn of the file, which does not come again.
      subst hsame
      have hbytes : other.bytes = whole := (Disk.content_of_read hother).symm.trans hcontent
      rw [Flushing, if_pos List.mem_cons_self] at hflushing
      rw [Flushing, if_neg hq]
      exact hflushing.1.settle hother hbytes hlast hflushing.2
    · have hkey : Path.orderKey q ≠ Path.orderKey path := fun heq =>
        hsame (Disk.eq_of_orderKey_eq hqlisted hpath heq)
      exact hflushing.readFile_other hother hkey

/-- A poll and a flush settle a file that was followed up to them. -/
theorem Pursues.pollThenFlush (h : s.Pursues pursuit handed path looks)
    (hwatch : s.Watches source folder disk) (hpath : path ∈ disk.filesIn folder)
    (hcontent : disk.content path = whole) (hgrown : latest looks <+: whole) :
    (∃ n, (s.poll disk).2 = .ok n) ∧ (∃ n, ((s.poll disk).1.flush disk).2 = .ok n) ∧
      ((s.poll disk).1.flush disk).1.Concludes pursuit handed path (looks ++ [whole]) := by
  subst hcontent
  rcases h.poll hwatch hpath hgrown List.prefix_rfl with ⟨hpoll, hpursues⟩
  rcases hpursues.flush hwatch.poll hpath rfl (latest_append looks _) with ⟨hflush, hconcludes⟩
  exact ⟨hpoll, hflush, hconcludes⟩

end Pursues

/-! ## Histories -/

/-- The contents of a file at the polls among some events, as far as there is a file. -/
def polledContents (folder path : String) : Disk → List Event → List Bytes
  | _, [] => []
  | _, .change next :: rest => polledContents folder path next rest
  | disk, .poll :: rest =>
    (if path ∈ disk.filesIn folder then [disk.content path] else []) ++
      polledContents folder path disk rest
  | disk, _ :: rest => polledContents folder path disk rest

/-- Between any two events of a history, a file has been looked at up to some place, or it has not
been there yet. -/
structure History.Pursues (h : History) (pursuit : Pursuit whole) (source : Source)
    (folder path : String) (looks : List Bytes) : Prop where
  watches : h.store.Watches source folder h.disk
  pursues : h.store.Pursues pursuit h.handed path looks
  grown : latest looks = [] ∨ path ∈ h.disk.filesIn folder ∧ latest looks <+: h.disk.content path

section Histories

variable {pursuit : Pursuit whole} {h : History} {source : Source} {folder path : String}
  {final : Disk} {looks : List Bytes}

theorem History.pursues_start (pursuit : Pursuit whole) (disk : Disk) (source : Source)
    (folder path : String) :
    (History.start disk source folder).Pursues pursuit source folder path [] :=
  ⟨watches_fresh source folder disk, pursues_fresh pursuit source folder path, Or.inl rfl⟩

/-- What was looked at last is a start of what the file holds. -/
theorem History.Pursues.isPrefix (hpursues : h.Pursues pursuit source folder path looks) :
    latest looks <+: h.disk.content path := by
  rcases hpursues.grown with hnone | ⟨-, hprefix⟩
  · rw [hnone]
    exact List.nil_prefix
  · exact hprefix

theorem History.Pursues.change (hpursues : h.Pursues pursuit source folder path looks)
    {next : Disk} (hgrows : h.disk.GrowsIn folder next) :
    (h.step (.change next)).Pursues pursuit source folder path looks := by
  refine ⟨hpursues.watches.change hgrows, hpursues.pursues, ?_⟩
  rcases hpursues.grown with hnone | ⟨hpath, hprefix⟩
  · exact Or.inl hnone
  · exact Or.inr ⟨(hgrows path hpath).1, hprefix.trans (hgrows path hpath).2⟩

theorem History.Pursues.poll (hpursues : h.Pursues pursuit source folder path looks)
    (hgrows : h.disk.GrowsIn folder final) (hpath : path ∈ final.filesIn folder)
    (hwhole : final.content path = whole) :
    (h.step .poll).Pursues pursuit source folder path
      (looks ++ if path ∈ h.disk.filesIn folder then [h.disk.content path] else []) := by
  have hwatch := hpursues.watches
  by_cases hlisted : path ∈ h.disk.filesIn folder
  · rw [if_pos hlisted]
    have hbound : h.disk.content path <+: whole := hwhole ▸ (hgrows path hlisted).2
    have hpolled := hpursues.pursues.poll hwatch hlisted hpursues.isPrefix hbound
    have hgrown : latest (looks ++ [h.disk.content path]) <+: h.disk.content path := by
      simp [latest_append]
    exact ⟨hwatch.poll, hpolled.2, Or.inr ⟨hlisted, hgrown⟩⟩
  · -- The file does not exist yet, and no other file is taken for it.
    have hother : ∀ q ∈ h.disk.filesIn folder, Path.orderKey q ≠ Path.orderKey path := by
      intro q hq heq
      have hsame := Disk.eq_of_orderKey_eq (hgrows q hq).1 hpath heq
      exact hlisted (hsame ▸ hq)
    rw [if_neg hlisted, List.append_nil]
    refine ⟨hwatch.poll, hpursues.pursues.poll_other hwatch hother, Or.inl ?_⟩
    rcases hpursues.grown with hnone | ⟨hmem, -⟩
    · exact hnone
    · exact absurd hmem hlisted

theorem History.Pursues.drain (hpursues : h.Pursues pursuit source folder path looks) :
    (h.step .drain).Pursues pursuit source folder path looks :=
  ⟨hpursues.watches.drain, hpursues.pursues.drain, hpursues.grown⟩

theorem History.Pursues.run {events : List Event}
    (hpursues : h.Pursues pursuit source folder path looks)
    (hgrowing : Growing folder h.disk events) (hpath : path ∈ (h.run events).disk.filesIn folder)
    (hwhole : (h.run events).disk.content path = whole) :
    (h.run events).Pursues pursuit source folder path
      (looks ++ polledContents folder path h.disk events) := by
  -- The final disk bounds what the file grows to, so it stays fixed along the events.
  induction events generalizing h looks with
  | nil =>
    rw [polledContents, List.append_nil]
    exact hpursues
  | cons event rest ih =>
    have hgrows := hgrowing.growsIn
    cases event with
    | change next =>
      exact ih (h := h.step (.change next)) (hpursues.change hgrowing.1) hgrowing.2 hpath hwhole
    | poll =>
      have hrest := ih (h := h.step .poll) (hpursues.poll hgrows hpath hwhole) hgrowing hpath hwhole
      rw [List.append_assoc] at hrest
      exact hrest
    | drain => exact ih (h := h.step .drain) hpursues.drain hgrowing hpath hwhole
    | ingest path => cases hgrowing
    | flush => cases hgrowing
    | load => cases hgrowing

/-- A history with one more poll and a flush, and one load of the finished folder, which is a
history without events. -/
theorem pursuit_history (pursuit : Pursuit whole) (source : Source) (folder path : String)
    (disk : Disk) (events : List Event) (hgrowing : Growing folder disk events)
    (hpath : path ∈ ((History.start disk source folder).run events).disk.filesIn folder)
    (hwhole : ((History.start disk source folder).run events).disk.content path = whole) :
    let h := (History.start disk source folder).run events
    let polled := h.store.poll h.disk
    let flushed := polled.1.flush h.disk
    let loaded := (fresh source folder).load h.disk
    (∃ n, polled.2 = .ok n) ∧ (∃ n, flushed.2 = .ok n) ∧ (∃ n, loaded.2 = .ok n) ∧
      (flushed.1.source = source ∧ loaded.1.source = source) ∧
      flushed.1.Concludes pursuit h.handed path (polledContents folder path disk events ++ [whole]) ∧
      loaded.1.Concludes pursuit [] path [whole] := by
  intro h polled flushed loaded
  have hpursues : h.Pursues pursuit source folder path (polledContents folder path disk events) :=
    (History.pursues_start pursuit disk source folder path).run hgrowing hpath hwhole
  have hgrown := hpursues.isPrefix
  rw [hwhole] at hgrown
  rcases hpursues.pursues.pollThenFlush hpursues.watches hpath hwhole hgrown with
    ⟨hpoll, hflush, hconcludes⟩
  have hfresh := watches_fresh source folder h.disk
  rcases (pursues_fresh pursuit source folder path).pollThenFlush hfresh hpath hwhole
    List.nil_prefix with ⟨⟨n, hpollFresh⟩, hflushFresh, hconcludes'⟩
  have hhas : h.disk.has folder = true := Disk.has_of_mem_filesIn hpath
  rcases load_eq (s := fresh source folder) hhas hpollFresh with ⟨hload, hloadOk⟩
  have hsource : flushed.1.source = source := hpursues.watches.poll.flush.sameSource
  have hsource' : loaded.1.source = source := hload ▸ hfresh.poll.flush.sameSource
  rw [← hload] at hconcludes'
  exact ⟨hpoll, hflush, hloadOk hflushFresh, ⟨hsource, hsource'⟩, hconcludes, hconcludes'⟩

end Histories

end Store
end TraceAudit
