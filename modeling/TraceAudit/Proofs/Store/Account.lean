import Mathlib.Data.List.Dedup
import TraceAudit.Proofs.Store.Arrival
import TraceAudit.Proofs.Store.Numbering
import TraceAudit.Proofs.Store.Pursuit

/-!
# Every octet is accounted for

After a load, each file has one exchange or one error per entry that it holds, and none of its octets
is left behind.

* `Scan.fileEntries_pos` and `Scan.fileEntries_le` bound the entries of a file by its lines;
* `Cursor.resting_eaten` says how far two looks get;
* `Store.Follows` is what a store has of one file, `Store.load_follows` what a load leaves of it;
* `Store.Grouped.exchangesFrom` counts the exchanges of a file by their requests;
* `Store.load_accounts` puts these together.
-/

namespace TraceAudit

open Scan

/-! ## Lines and entries -/

namespace Scan

/-- The lines of a file that are more than white space. -/
def filledLines (bytes : Bytes) : Nat := (allLines bytes).countP fun line => !isBlank line

theorem isBlank_cons (b : UInt8) (bytes : Bytes) :
    isBlank (b :: bytes) = (Text.isAsciiBlank b && isBlank bytes) := rfl

/-- A file is blank when all of its lines are. -/
theorem isBlank_of_allLines {bytes : Bytes} (h : ∀ line ∈ allLines bytes, isBlank line = true) :
    isBlank bytes = true := by
  induction bytes with
  | nil => rfl
  | cons b rest ih =>
    rw [allLines_cons] at h
    by_cases hfeed : b = 0x0A
    · rw [if_pos hfeed] at h
      have hrest := ih fun line hline => h line (List.mem_cons_of_mem [] hline)
      rw [isBlank_cons, hrest, hfeed]
      rfl
    · rw [if_neg hfeed] at h
      -- The octet stands in front of the first line of the rest.
      rcases exists_allLines rest with ⟨first, more, hlines⟩
      rw [hlines, List.modifyHead_cons] at h
      have hfirst := h (b :: first) List.mem_cons_self
      rw [isBlank_cons, Bool.and_eq_true] at hfirst
      have hrest : isBlank rest = true := by
        apply ih
        intro line hline
        rw [hlines] at hline
        rcases List.mem_cons.1 hline with rfl | hline
        · exact hfirst.2
        · exact h line (List.mem_cons_of_mem _ hline)
      rw [isBlank_cons, hfirst.1, hrest]
      rfl

theorem filledLines_pos {bytes : Bytes} (h : isBlank bytes = false) : 1 ≤ filledLines bytes := by
  by_contra hnone
  have hblank : isBlank bytes = true := by
    apply isBlank_of_allLines
    intro line hline
    have hzero : filledLines bytes = 0 := by omega
    simpa using List.countP_eq_zero.1 hzero line hline
  rw [h] at hblank
  cases hblank

/-- There is one entry for each line that is more than white space. -/
theorem length_lineEntries (number : Nat) (lines : List Bytes) :
    (lineEntries number lines).length = lines.countP fun line => !isBlank line := by
  induction lines generalizing number with
  | nil => rfl
  | cons line rest ih =>
    rw [lineEntries, List.length_append, ih, List.countP_cons, lineEntry]
    cases isBlank line with
    | true => simp
    | false => cases Json.ofBytes line <;> simp [Nat.add_comm]

theorem length_entries (number : Nat) (bytes : Bytes) :
    (entries number bytes).length = filledLines bytes :=
  length_lineEntries number (allLines bytes)

theorem detect_of_isBlank {bytes : Bytes} (h : isBlank bytes = true) (final : Bool) :
    Layout.detect bytes final = .unknown := by
  have hbody : bytes.dropWhile Text.isAsciiBlank = [] :=
    List.dropWhile_eq_nil_iff.2 (List.all_eq_true.1 h)
  simp [Layout.detect, hbody]

/-- What a file holds is one document, or an entry for each line that is more than white space. -/
theorem length_fileEntries (bytes : Bytes) :
    (fileEntries bytes).length = filledLines bytes ∨
      (isBlank bytes = false ∧ (fileEntries bytes).length = 1) := by
  rw [fileEntries]
  split
  · rename_i hdocument
    have hfilled : isBlank bytes = false := by
      cases hblank : isBlank bytes with
      | false => rfl
      | true =>
        rw [detect_of_isBlank hblank] at hdocument
        cases hdocument
    split
    · exact Or.inr ⟨hfilled, rfl⟩
    · split
      · exact Or.inl (length_entries 1 bytes)
      · exact Or.inr ⟨hfilled, rfl⟩
  · exact Or.inl (length_entries 1 bytes)

theorem fileEntries_le (bytes : Bytes) : (fileEntries bytes).length ≤ filledLines bytes := by
  rcases length_fileEntries bytes with hlines | ⟨hfilled, hone⟩
  · exact hlines.le
  · rw [hone]
    exact filledLines_pos hfilled

theorem fileEntries_pos {bytes : Bytes} (h : isBlank bytes = false) :
    1 ≤ (fileEntries bytes).length := by
  rcases length_fileEntries bytes with hlines | ⟨-, hone⟩
  · rw [hlines]
    exact filledLines_pos h
  · exact hone.ge

theorem fileEntries_of_isBlank {bytes : Bytes} (h : isBlank bytes = true) :
    fileEntries bytes = [] := by
  rw [fileEntries, detect_of_isBlank h]
  exact entries_of_isBlank h 1

/-- In a final scan only white space has no layout. -/
theorem isBlank_of_detect {bytes : Bytes} (h : Layout.detect bytes true = .unknown) :
    isBlank bytes = true := by
  by_cases hbody : bytes.dropWhile Text.isAsciiBlank = []
  · exact List.all_eq_true.2 (List.dropWhile_eq_nil_iff.1 hbody)
  · have hfilled : (bytes.dropWhile Text.isAsciiBlank).isEmpty = false := by simpa using hbody
    rw [Layout.detect] at h
    simp only [hfilled, Bool.false_eq_true, if_false, Bool.true_or, if_true] at h
    split at h
    · split at h <;> cases h
    · cases h

end Scan

/-! ## How far a look gets -/

namespace Cursor

/-- Everything up to some place became entries, and nothing waits. -/
def Eaten (c : Cursor) (length : Nat) : Prop := c.offset = length ∧ c.deferred = false

theorem scanLines_eats (c : Cursor) (bytes : Bytes) (final : Bool) :
    (c.scanLines bytes final).1.Eaten (c.offset + bytes.length) ∨
      (final = false ∧ (c.scanLines bytes final).1.deferred = true ∧
        (c.scanLines bytes final).1.offset ≤ c.offset + bytes.length) := by
  simp only [scanLines]
  split
  · cases final with
    | true => exact Or.inl ⟨rfl, rfl⟩
    | false => exact Or.inr ⟨rfl, rfl, Nat.add_le_add_left (Nat.sub_le _ _) _⟩
  · exact Or.inl ⟨rfl, rfl⟩

theorem scanDocument_eats (c : Cursor) (bytes : Bytes) (final : Bool) :
    (c.scanDocument bytes final).1.Eaten (c.offset + bytes.length) ∨
      (final = false ∧ (c.scanDocument bytes final).1.deferred = true ∧
        (c.scanDocument bytes final).1.offset ≤ c.offset + bytes.length) := by
  rw [scanDocument]
  split
  · exact Or.inl ⟨rfl, rfl⟩
  · cases final with
    | false => exact Or.inr ⟨rfl, rfl, Nat.le_add_right _ _⟩
    | true =>
      simp only [Bool.not_true, Bool.false_eq_true, if_false]
      split
      · rcases scanLines_eats c bytes true with heaten | ⟨hfinal, -⟩
        · exact Or.inl heaten
        · cases hfinal
      · exact Or.inl ⟨rfl, rfl⟩

/-- A look at a file either eats everything, or something waits. After the last look only white
space waits, of a file that holds nothing else. -/
theorem scan_eats (c : Cursor) (bytes : Bytes) (final : Bool) :
    (c.scan bytes final).1.Eaten (c.offset + bytes.length) ∨
      ((c.scan bytes final).1.deferred = true ∧
        (c.scan bytes final).1.offset ≤ c.offset + bytes.length ∧
        (final = true → c.layout = .unknown ∧ isBlank bytes = true)) := by
  simp only [scan]
  generalize hlayout : (if c.layout = .unknown then Layout.detect bytes final else c.layout) = layout
  cases layout with
  | unknown =>
    -- Without a layout only an empty file is eaten.
    cases bytes with
    | nil => exact Or.inl ⟨rfl, rfl⟩
    | cons b rest =>
      refine Or.inr ⟨rfl, Nat.le_add_right _ _, ?_⟩
      rintro rfl
      split at hlayout
      · rename_i hunknown
        exact ⟨hunknown, isBlank_of_detect hlayout⟩
      · rename_i hknown
        exact absurd hlayout hknown
  | document =>
    rcases scanDocument_eats { c with layout := .document, seen := c.offset + bytes.length } bytes
      final with heaten | ⟨hfinal, hdeferred, hle⟩
    · exact Or.inl heaten
    · exact Or.inr ⟨hdeferred, hle, fun htrue => absurd (hfinal ▸ htrue) (by simp)⟩
  | lines =>
    rcases scanLines_eats { c with layout := .lines, seen := c.offset + bytes.length } bytes
      final with heaten | ⟨hfinal, hdeferred, hle⟩
    · exact Or.inl heaten
    · exact Or.inr ⟨hdeferred, hle, fun htrue => absurd (hfinal ▸ htrue) (by simp)⟩

theorem scanLines_layout (c : Cursor) (bytes : Bytes) (final : Bool) :
    (c.scanLines bytes final).1.layout = .lines := by
  simp only [scanLines]
  split
  · cases final <;> rfl
  · rfl

theorem scanDocument_layout {c : Cursor} (h : c.layout = .document) (bytes : Bytes)
    (final : Bool) : (c.scanDocument bytes final).1.layout ≠ .unknown := by
  rw [scanDocument]
  split
  · simp [h]
  · cases final with
    | false => simp [h]
    | true =>
      simp only [Bool.not_true, Bool.false_eq_true, if_false]
      split
      · simp [scanLines_layout]
      · simp [h]

/-- Nothing becomes an entry before the layout is known. -/
theorem offset_scan {c : Cursor} {bytes : Bytes} {final : Bool}
    (h : (c.scan bytes final).1.layout = .unknown) : (c.scan bytes final).1.offset = c.offset := by
  simp only [scan] at h ⊢
  generalize (if c.layout = .unknown then Layout.detect bytes final else c.layout) = layout at h ⊢
  cases layout with
  | unknown => rfl
  | document => exact absurd h (scanDocument_layout rfl bytes final)
  | lines =>
    rw [scanLines_layout] at h
    cases h

/-- The cursor of a finished file after both looks. -/
def resting (bytes : Bytes) : Cursor :=
  let c := (firstLook bytes).1
  if c.deferred then (c.scan (bytes.drop c.offset) true).1 else c

/-- Two looks get to the end of a file that is more than white space. -/
theorem resting_eaten {bytes : Bytes} (h : isBlank bytes = false) :
    (resting bytes).Eaten bytes.length := by
  have hfirst := scan_eats start bytes false
  have hstart : start.offset + bytes.length = bytes.length := Nat.zero_add _
  rw [hstart] at hfirst
  rw [resting, firstLook]
  rcases hfirst with heaten | ⟨hdeferred, hle, -⟩
  · simp only [heaten.2, Bool.false_eq_true, if_false]
    exact heaten
  · simp only [hdeferred, if_true]
    -- The last look starts where the first one stopped.
    have hlength : (start.scan bytes false).1.offset +
        (bytes.drop (start.scan bytes false).1.offset).length = bytes.length := by
      rw [List.length_drop]
      omega
    rcases scan_eats (start.scan bytes false).1 (bytes.drop (start.scan bytes false).1.offset) true
      with heaten | ⟨-, -, hfinal⟩
    · rw [hlength] at heaten
      exact heaten
    · rcases hfinal rfl with ⟨hunknown, hblank⟩
      rw [offset_scan hunknown] at hblank
      have hdrop : bytes.drop start.offset = bytes := List.drop_zero
      rw [hdrop, h] at hblank
      cases hblank

end Cursor

/-- Each exchange has one request. -/
theorem IsExchange.requests {group : List Record} (h : IsExchange group) :
    ∃ request, group.filter Record.isRequest = [request] ∧ request ∈ group ∧
      ∀ r ∈ group, r.logFile = request.logFile := by
  cases h with
  | @request request hkind =>
    refine ⟨request, by simp [Record.isRequest, hkind], List.mem_singleton_self _, ?_⟩
    intro r hr
    rw [List.mem_singleton.1 hr]
  | @answered request response hrequest hresponse _ _ _ _ hfile =>
    refine ⟨request, by simp [Record.isRequest, hrequest, hresponse], List.mem_cons_self, ?_⟩
    intro r hr
    rcases List.mem_pair.1 hr with rfl | rfl
    · rfl
    · exact hfile

namespace Store

/-! ## One file through a load -/

section OneFile

variable {each : Store → String → Store × Except StoreError Nat} {paths : List String}
  {path q : String} {s : Store} {disk : Disk} {file : File} {cursor : Option Cursor}
  {readings : List Reading}

/-- A file that comes once among files: what the others keep before its turn and after it. -/
theorem eachFile_once (Before After : Store → Prop) (hnodup : paths.Nodup) (hmem : path ∈ paths)
    (hbefore : ∀ s, ∀ q ∈ paths, q ≠ path → Before s →
      (∃ n, (each s q).2 = .ok n) ∧ Before (each s q).1)
    (hturn : ∀ s, Before s → (∃ n, (each s path).2 = .ok n) ∧ After (each s path).1)
    (hafter : ∀ s, ∀ q ∈ paths, q ≠ path → After s →
      (∃ n, (each s q).2 = .ok n) ∧ After (each s q).1)
    (hs : Before s) : (∃ n, (eachFile each s paths).2 = .ok n) ∧ After (eachFile each s paths).1 := by
  have hall := eachFile_induct each paths (s := s)
    (motive := fun rest s => rest.Nodup ∧ (∀ q ∈ rest, q ∈ paths) ∧
      if path ∈ rest then Before s else After s) ?_
    ⟨hnodup, fun q hq => hq, by rw [if_pos hmem]; exact hs⟩
  · rcases hall with ⟨hok, -, -, hend⟩
    exact ⟨hok, by simpa using hend⟩
  · rintro s q rest ⟨hnodup, hlisted, hsofar⟩
    rcases List.nodup_cons.1 hnodup with ⟨hq, hrest⟩
    have hqlisted := hlisted q List.mem_cons_self
    have hrestListed : ∀ r ∈ rest, r ∈ paths := fun r hr => hlisted r (List.mem_cons_of_mem q hr)
    by_cases hsame : q = path
    · subst hsame
      rw [if_pos List.mem_cons_self] at hsofar
      rcases hturn s hsofar with ⟨hok, hend⟩
      exact ⟨hok, hrest, hrestListed, by rwa [if_neg hq]⟩
    · have hthere : path ∈ q :: rest ↔ path ∈ rest := by simp [Ne.symm hsame]
      simp only [hthere] at hsofar
      by_cases hleft : path ∈ rest
      · rw [if_pos hleft] at hsofar
        rcases hbefore s q hqlisted hsame hsofar with ⟨hok, hnext⟩
        exact ⟨hok, hrest, hrestListed, by rwa [if_pos hleft]⟩
      · rw [if_neg hleft] at hsofar
        rcases hafter s q hqlisted hsame hsofar with ⟨hok, hnext⟩
        exact ⟨hok, hrest, hrestListed, by rwa [if_neg hleft]⟩

/-- What a store has of a file: how far it was read, and what was read of it. -/
structure Follows (s : Store) (path : String) (cursor : Option Cursor) (readings : List Reading) :
    Prop where
  holds : s.Holds [] path readings
  found : Cursors.find? path s.files = cursor

theorem Follows.readFile_other (h : s.Follows path cursor readings)
    (hread : disk.read q = .ok file) (hkey : Path.orderKey q ≠ Path.orderKey path) (final : Bool) :
    (∃ n, (s.readFile disk q final).2 = .ok n) ∧
      (s.readFile disk q final).1.Follows path cursor readings := by
  refine ⟨⟨_, by rw [readFile_eq hread rfl rfl]⟩, h.holds.readFile_other hread hkey final, ?_⟩
  rw [find?_readFile_other s disk hkey final]
  exact h.found

theorem Follows.readFile (h : s.Follows path cursor readings) (hread : disk.read path = .ok file)
    {c next : Cursor} {entries : List Entry} {final : Bool} (hc : cursor.getD Cursor.start = c)
    (hscan : c.scan (file.bytes.drop c.offset) final = (next, entries)) :
    (∃ n, (s.readFile disk path final).2 = .ok n) ∧
      (s.readFile disk path final).1.Follows path (some next)
        (readings ++ entries.map (·, fileTime disk path)) := by
  have hcursor : (Cursors.find? path s.files).getD Cursor.start = c := by rw [h.found, hc]
  have hholds := h.holds.readFile hread hcursor hscan
  rw [if_pos rfl, ← fileTime_of_read hread] at hholds
  rw [readFile_eq hread hcursor hscan] at hholds ⊢
  refine ⟨⟨_, rfl⟩, hholds, ?_⟩
  rw [Cursors.find?_set, if_pos rfl]

/-- The poll of a load looks once at the file. -/
theorem poll_follows (source : Source) {folder : String} (hpath : path ∈ disk.filesIn folder) :
    ((fresh source folder).poll disk).1.Follows path
      (some (Cursor.firstLook (disk.content path)).1)
      ((Cursor.firstLook (disk.content path)).2.map (·, fileTime disk path)) := by
  rcases Disk.read_of_mem_filesIn hpath with ⟨file, hread⟩
  have hnodup := Disk.filesIn_nodup disk folder
  -- Another file is looked at, or it is left alone.
  have hother : ∀ (cursor : Option Cursor) (readings : List Reading) (s : Store),
      ∀ q ∈ disk.filesIn folder, q ≠ path → s.Follows path cursor readings →
        (∃ n, (ingestGrown disk s q).2 = .ok n) ∧
          (ingestGrown disk s q).1.Follows path cursor readings := by
    intro cursor readings s q hq hne hs
    rcases Disk.read_of_mem_filesIn hq with ⟨other, hotherRead⟩
    refine ⟨ingestGrown_ok hotherRead s, ?_⟩
    rcases ingestGrown_cases disk s q with heq | heq
    · rw [heq]
      exact hs
    · have hkey : Path.orderKey q ≠ Path.orderKey path := fun h =>
        hne (Disk.eq_of_orderKey_eq hq hpath h)
      rw [heq]
      exact (hs.readFile_other hotherRead hkey false).2
  rw [(poll_eq (fresh source folder) disk).1]
  refine (eachFile_once (fun s => s.Follows path none []) (fun s => s.Follows path _ _) hnodup hpath
    (hother none []) (fun s hs => ?_) (hother _ _) ⟨holds_fresh source folder path, rfl⟩).2
  have hscan : Cursor.start.scan (file.bytes.drop Cursor.start.offset) false =
      Cursor.firstLook (disk.content path) := by
    rw [Disk.content_of_read hread]
    rfl
  have hlook := hs.readFile hread (c := Cursor.start) rfl hscan
  rw [ingestGrown_of_read hread, hs.found, Option.any_none, if_neg Bool.false_ne_true]
  exact hlook

/-- The flush of a load looks at the file again when something of it waits. -/
theorem load_follows (source : Source) {folder : String} (hpath : path ∈ disk.filesIn folder) :
    ((fresh source folder).load disk).1.Follows path
      (some (Cursor.resting (disk.content path)))
      ((fileEntries (disk.content path)).map (·, fileTime disk path)) := by
  have hpolled := poll_follows source hpath
  have hwatch := (watches_fresh source folder disk).poll
  have hwaits := hwatch.mem_deferredFiles hpath
  have hwhole := (Cursor.looks (disk.content path)).whole
  rw [hpolled.found, Option.getD_some] at hwaits
  have hother : ∀ (cursor : Option Cursor) (readings : List Reading) (s : Store),
      ∀ q ∈ ((fresh source folder).poll disk).1.deferredFiles, q ≠ path →
        s.Follows path cursor readings → (∃ n, (s.readFile disk q true).2 = .ok n) ∧
          (s.readFile disk q true).1.Follows path cursor readings := by
    intro cursor readings s q hq hne hs
    have hlisted := hwatch.deferredFiles_listed q hq
    rcases Disk.read_of_mem_filesIn hlisted with ⟨other, hotherRead⟩
    exact hs.readFile_other hotherRead
      (fun h => hne (Disk.eq_of_orderKey_eq hlisted hpath h)) true
  rw [load_fresh, flush, ← hwhole, Cursor.secondLook, Cursor.resting]
  cases hdeferred : (Cursor.firstLook (disk.content path)).1.deferred with
  | true =>
    rcases Disk.read_of_mem_filesIn hpath with ⟨file, hread⟩
    simp only [if_true, List.map_append]
    refine (eachFile_once (fun s => s.Follows path _ _) (fun s => s.Follows path _ _)
      hwatch.deferredFiles_nodup (hwaits.2 hdeferred) (hother _ _)
      (fun s hs => ?_) (hother _ _) hpolled).2
    rw [Disk.content_of_read hread] at hs ⊢
    exact hs.readFile hread rfl rfl
  | false =>
    have hnot : path ∉ ((fresh source folder).poll disk).1.deferredFiles := by
      intro hmem
      rw [hwaits.1 hmem] at hdeferred
      cases hdeferred
    simp only [Bool.false_eq_true, if_false, List.append_nil]
    exact eachFile_invariant (P := fun s => s.Follows path _ _) _ _
      (fun s q hs hq => (hother _ _ s q hq (fun heq => hnot (heq ▸ hq)) hs).2) hpolled

end OneFile

/-! ## Exchanges and errors -/

/-- The number of different exchanges among the records of a file. -/
def exchangesFrom (path : String) (records : List Record) : Nat :=
  ((recordsFrom path records).map (·.exchange)).dedup.length

/-- The requests of exchanges one after the other have the places of the exchanges as numbers. -/
theorem requests_flatten {groups : List (List Record)} {first : Nat}
    (h : ∀ n group, groups[n]? = some group →
      IsExchange group ∧ ∀ r ∈ group, r.exchange = first + n) :
    (groups.flatten.filter Record.isRequest).map (·.exchange) =
      List.range' first groups.length := by
  induction groups generalizing first with
  | nil => rfl
  | cons group rest ih =>
    rcases h 0 group rfl with ⟨hexchange, hnumber⟩
    rcases IsExchange.requests hexchange with ⟨request, hrequests, hmem, -⟩
    have hlater : ∀ n g, rest[n]? = some g →
        IsExchange g ∧ ∀ r ∈ g, r.exchange = first + 1 + n := by
      intro n g hg
      rcases h (n + 1) g hg with ⟨hg', hn⟩
      exact ⟨hg', fun r hr => (hn r hr).trans (by omega)⟩
    have hrest := ih hlater
    rw [List.flatten_cons, List.filter_append, List.map_append, hrest, hrequests,
      List.map_singleton, hnumber request hmem, List.length_cons, List.range'_succ]
    rfl

/-- Every record of a file has the request of its exchange beside it, and no two requests have the
same number. So the exchanges of a file are as many as its requests. -/
theorem Grouped.exchangesFrom {s : Store} {handed : List Record} {groups : List (List Record)}
    (h : s.Grouped handed groups) (path : String) :
    exchangesFrom path (handed ++ s.staged) =
      (recordsFrom path (handed ++ s.staged)).countP Record.isRequest := by
  have hrecords := h.records
  generalize handed ++ s.staged = records at hrecords ⊢
  have hrange : (records.filter Record.isRequest).map (·.exchange) =
      List.range' 0 groups.length := by
    rw [hrecords]
    refine requests_flatten fun n group hn => ?_
    rcases h.exchange n group hn with ⟨hexchange, hnumber⟩
    exact ⟨hexchange, fun r hr => (hnumber r hr).trans (Nat.zero_add n).symm⟩
  have hsub : ((recordsFrom path records).filter Record.isRequest).Sublist
      (records.filter Record.isRequest) := List.filter_sublist.filter _
  have hnodup : (((recordsFrom path records).filter Record.isRequest).map (·.exchange)).Nodup := by
    have hall : ((records.filter Record.isRequest).map (·.exchange)).Nodup := by
      rw [hrange]
      exact List.nodup_range'
    exact hall.sublist (hsub.map _)
  have hsame : ∀ n, n ∈ (recordsFrom path records).map (·.exchange) ↔
      n ∈ ((recordsFrom path records).filter Record.isRequest).map (·.exchange) := by
    intro n
    constructor
    · intro hn
      rcases List.mem_map.1 hn with ⟨r, hr, rfl⟩
      rcases List.mem_filter.1 hr with ⟨hmem, hfile⟩
      -- The request stands in the group of the record, and comes from the same file.
      rw [hrecords] at hmem
      rcases List.mem_flatten.1 hmem with ⟨group, hgroup, hrgroup⟩
      rcases List.mem_iff_getElem?.1 hgroup with ⟨k, hk⟩
      rcases h.exchange k group hk with ⟨hexchange, hnumber⟩
      rcases IsExchange.requests hexchange with ⟨request, hrequests, hrequest, hfiles⟩
      have hkind : Record.isRequest request = true := by
        have hin : request ∈ group.filter Record.isRequest := by simp [hrequests]
        exact (List.mem_filter.1 hin).2
      have hthere : request ∈ records := by
        rw [hrecords]
        exact List.mem_flatten.2 ⟨group, hgroup, hrequest⟩
      have hfrom : request ∈ recordsFrom path records := by
        refine List.mem_filter.2 ⟨hthere, ?_⟩
        rw [← hfiles r hrgroup]
        exact hfile
      refine List.mem_map.2 ⟨request, List.mem_filter.2 ⟨hfrom, hkind⟩, ?_⟩
      exact (hnumber request hrequest).trans (hnumber r hrgroup).symm
    · intro hn
      exact (List.filter_sublist.map _).subset hn
  have hperm : ((recordsFrom path records).map (·.exchange)).dedup.Perm
      (((recordsFrom path records).filter Record.isRequest).map (·.exchange)) := by
    refine (List.perm_ext_iff_of_nodup (List.nodup_dedup _) hnodup).2 fun n => ?_
    rw [List.mem_dedup]
    exact hsame n
  rw [Store.exchangesFrom, hperm.length_eq, List.length_map, List.countP_eq_length_filter]

/-- An entry gives one request, or else one error. -/
theorem requests_or_error (source : Source) (path : String) (reading : Reading) :
    (captured source reading).countP Record.isRequest +
      (corruptEntry source path reading).toList.length = 1 := by
  rw [corruptEntry]
  rcases captured_cases source reading with ⟨hrefused, hnone⟩ | ⟨hgiven, hexchange, -⟩
  · rcases Option.isSome_iff_exists.1 (by simpa using hrefused :
      (corruption source reading).isSome = true) with ⟨cause, hcause⟩
    simp [hnone, hcause]
  · rcases IsExchange.requests hexchange with ⟨request, hrequests, -⟩
    have hno : corruption source reading = none := Option.isNone_iff_eq_none.1 hgiven
    simp [List.countP_eq_length_filter, hrequests, hno]

/-- The requests and the errors of a file are as many as its readings. -/
theorem Holds.requests_and_errors {s : Store} {handed : List Record} {path : String}
    {readings : List Reading} (h : s.Holds handed path readings) :
    (recordsFrom path (handed ++ s.staged)).countP Record.isRequest +
      (errorsIn path s.errors).length = readings.length := by
  have hrequests : (recordsFrom path (handed ++ s.staged)).countP Record.isRequest =
      (readings.flatMap (captured s.source)).countP Record.isRequest := by
    rw [← h.records, List.countP_map]
    rfl
  rw [hrequests, h.errors]
  -- One reading after the other.
  clear hrequests h
  induction readings with
  | nil => rfl
  | cons reading rest ih =>
    have hone := requests_or_error s.source path reading
    have herrors : (List.filterMap (corruptEntry s.source path) (reading :: rest)).length =
        (corruptEntry s.source path reading).toList.length +
          (List.filterMap (corruptEntry s.source path) rest).length := by
      cases hentry : corruptEntry s.source path reading <;> simp [hentry, Nat.add_comm]
    rw [List.flatMap_cons, List.countP_append, herrors, List.length_cons]
    omega

/-- The exchanges and the errors that a load takes from a file are as many as its entries. -/
theorem load_entries (source : Source) {disk : Disk} {folder path : String}
    (hpath : path ∈ disk.filesIn folder) :
    let loaded := ((fresh source folder).load disk).1
    exchangesFrom path loaded.staged + (errorsIn path loaded.errors).length =
      (fileEntries (disk.content path)).length := by
  intro loaded
  have hholds := (load_follows source hpath).holds.requests_and_errors
  rw [List.length_map] at hholds
  rcases (grouped_fresh source folder).reads ((fresh source folder).load_reads disk) with
    ⟨groups, hgroups⟩
  have hexchanges := hgroups.exchangesFrom path
  exact hexchanges ▸ hholds

/-! ## The result -/

/-- A load of a fresh store succeeds when there are files, and no octet of any file is left out
silently. A file that is more than white space gives an exchange or an error, a file of white space
gives neither, and no file gives more of them than it has lines with anything on them. The cursor of
a file that is more than white space is at its end, and nothing waits. -/
theorem load_accounts (source : Source) {disk : Disk} {folder path : String}
    (hpath : path ∈ disk.filesIn folder) :
    let loaded := (fresh source folder).load disk
    let found := exchangesFrom path loaded.1.staged + (errorsIn path loaded.1.errors).length
    (∃ n, loaded.2 = .ok n) ∧
      (isBlank (disk.content path) = false → 1 ≤ found) ∧
      (isBlank (disk.content path) = true → found = 0) ∧
      found ≤ filledLines (disk.content path) ∧
      (isBlank (disk.content path) = false →
        ∃ c, Cursors.find? path loaded.1.files = some c ∧
          c.offset = (disk.content path).length ∧ c.deferred = false) := by
  intro loaded found
  have hfound : found = (fileEntries (disk.content path)).length := load_entries source hpath
  refine ⟨load_ok hpath source, ?_, ?_, ?_, ?_⟩
  · intro hfilled
    rw [hfound]
    exact fileEntries_pos hfilled
  · intro hblank
    rw [hfound, fileEntries_of_isBlank hblank]
    rfl
  · rw [hfound]
    exact fileEntries_le (disk.content path)
  · intro hfilled
    exact ⟨_, (load_follows source hpath).found, Cursor.resting_eaten hfilled⟩

/-- A file with an envelope, a line that is no text and a line that is cut off, and a file of white
space in another folder. -/
def garbled : Disk :=
  (Disk.empty.append "logs/a.log"
    (Utf8.ofString "\x7b\"path\":\"/\",\"request\":\x7b\x7d\x7d\n" ++ [0xFF, 0x0A] ++
      Utf8.ofString "\x7b\"pa") 5).append "white/b.log" (Utf8.ofString " \n\n") 5

theorem load_accounts_garbled :
    let loaded := (fresh .agent "logs").load garbled
    let white := (fresh .agent "white").load garbled
    let found (path : String) (s : Store) :=
      exchangesFrom path s.staged + (errorsIn path s.errors).length
    (∃ n, loaded.2 = .ok n) ∧ 1 ≤ found "logs/a.log" loaded.1 ∧ found "logs/a.log" loaded.1 ≤ 3 ∧
      (∃ c, Cursors.find? "logs/a.log" loaded.1.files = some c ∧ c.offset = 32 ∧
        c.deferred = false) ∧
      found "white/b.log" white.1 = 0 := by
  intro loaded white found
  have hlogs : garbled.filesIn "logs" = ["logs/a.log"] := by decide +kernel
  have hwhite : garbled.filesIn "white" = ["white/b.log"] := by decide +kernel
  have hfilled : isBlank (garbled.content "logs/a.log") = false := by decide +kernel
  have hblank : isBlank (garbled.content "white/b.log") = true := by decide +kernel
  have hlines : filledLines (garbled.content "logs/a.log") = 3 := by decide +kernel
  have hlength : (garbled.content "logs/a.log").length = 32 := by decide +kernel
  rcases load_accounts .agent (by simp [hlogs] : "logs/a.log" ∈ garbled.filesIn "logs") with
    ⟨hok, hpos, -, hle, hcursor⟩
  rcases load_accounts .agent (by simp [hwhite] : "white/b.log" ∈ garbled.filesIn "white") with
    ⟨-, -, hnone, -⟩
  rw [hlines] at hle
  rw [hlength] at hcursor
  exact ⟨hok, hpos hfilled, hle, hcursor hfilled, hnone hblank⟩

end Store
end TraceAudit
