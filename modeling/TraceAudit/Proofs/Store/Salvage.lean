import TraceAudit.Proofs.Store.Arrival
import TraceAudit.Proofs.Store.Numbering

/-!
# A file with broken lines

Broken lines do not spoil the others, wherever they stand and however many they are.

* `Scan.Salvageable` says of which files this holds: some line is an object, and a file that begins
  with a broken line is no document;
* `Scan.fileEntries_of_salvageable` reads such a file line by line;
* `Store.lineRecords` and `Store.lineError` are what a line gives on its own;
* `Store.load_alone` is a load of a folder with a single file in it, `Store.load_salvages` one of a
  folder with such a file.
-/

namespace TraceAudit

open Scan

namespace Scan

/-- Some line is an object, and a file whose first line is broken is not a document either. Blank
lines do not count as first lines. -/
structure Salvageable (bytes : Bytes) : Prop where
  objectLine : ∃ line ∈ allLines bytes, (Json.ofBytes? line).any Json.isObject = true
  notDocument : ∀ first ∈ (allLines bytes).find? (!isBlank ·),
    Json.ofBytes? first = none → Json.ofBytes? bytes = none

theorem salvageable_iff {bytes : Bytes} :
    Salvageable bytes ↔
      (∃ line ∈ allLines bytes, (Json.ofBytes? line).any Json.isObject = true) ∧
        ∀ first ∈ (allLines bytes).find? (!isBlank ·),
          Json.ofBytes? first = none → Json.ofBytes? bytes = none :=
  ⟨fun h => ⟨h.objectLine, h.notDocument⟩, fun h => ⟨h.1, h.2⟩⟩

instance (bytes : Bytes) : Decidable (Salvageable bytes) := decidable_of_iff' _ salvageable_iff

/-- A file that is taken for a document begins with a line that is no value. -/
theorem first_of_document {bytes : Bytes} (h : Layout.detect bytes false = .document) :
    ∃ first, (allLines bytes).find? (!isBlank ·) = some first ∧ Json.ofBytes? first = none := by
  by_cases hbody : bytes.dropWhile Text.isAsciiBlank = []
  · simp [Layout.detect, hbody] at h
  · rcases detect_start [] hbody with ⟨first, others, hfirst, hdetect | ⟨more, -, -, hdetect⟩⟩
    · have hnone : Json.ofBytes? first = none := by
        cases hvalue : Json.ofBytes? first with
        | none => rfl
        | some json => simp [hdetect, hvalue] at h
      -- Behind blank lines, the first line may still start with blanks of its own.
      rw [List.append_nil] at hfirst
      rcases find?_first hbody hfirst with ⟨lead, hfind, hlead, -⟩
      exact ⟨lead ++ first, hfind, ofBytes?_ascii_blank_append hlead hnone⟩
    · rw [hdetect] at h
      split at h <;> cases h

theorem fileEntries_of_salvageable {bytes : Bytes} (h : Salvageable bytes) :
    fileEntries bytes = entries 1 bytes := by
  by_cases hlayout : Layout.detect bytes false = .document
  · -- A document that is none is read as lines, since it holds an object on a line of its own.
    rcases first_of_document hlayout with ⟨first, hfirst, hnone⟩
    have hbroken : Json.ofBytes? bytes = none := h.notDocument first hfirst hnone
    have hobject : holdsObjectLine bytes = true := holdsObjectLine_iff.2 h.objectLine
    simp [fileEntries, hlayout, Json.ofBytes, hbroken, hobject]
  · simp [fileEntries, hlayout]

end Scan

namespace Store

/-! ## What a line gives -/

/-- The records of a line: those of its envelope, when it holds one that is accepted. -/
def lineRecords (source : Source) (time : Timestamp) (line : Bytes) : List Record :=
  match Json.ofBytes? line with
  | some json => (recordsOf source time json).toOption.getD []
  | none => []

/-- Why a line that is not blank gives no records. -/
def lineCause (source : Source) (time : Timestamp) (line : Bytes) : Option Corruption :=
  if isBlank line then none
  else
    match Json.ofBytes line with
    | .error fault => some (.brokenLine fault)
    | .ok json =>
      match recordsOf source time json with
      | .error cause => some cause
      | .ok _ => none

/-- The error of a line with its number. -/
def lineError (source : Source) (file : String) (time : Timestamp) (line : Bytes × Nat) :
    Option CorruptEntry :=
  (lineCause source time line.1).map fun cause => { file, line := some line.2, cause }

section Line

variable (source : Source) (file : String) (time : Timestamp)

/-- A line that is not blank gives records or an error, and not both. -/
theorem lineCause_isSome_iff (line : Bytes) :
    (lineCause source time line).isSome = true ↔
      isBlank line = false ∧ lineRecords source time line = [] := by
  cases hblank : isBlank line with
  | true => simp [lineCause, hblank]
  | false =>
    cases hjson : Json.ofBytes? line with
    | none => simp [lineCause, lineRecords, hblank, Json.ofBytes, hjson]
    | some json =>
      cases hrecords : recordsOf source time json with
      | error cause =>
        simp [lineCause, lineRecords, hblank, Json.ofBytes, hjson, hrecords, Except.toOption]
      | ok records =>
        -- An accepted envelope has a request at least.
        have hne : records ≠ [] := by
          rintro rfl
          cases (recordsOf_isExchange hrecords).1
        simp [lineCause, lineRecords, hblank, Json.ofBytes, hjson, hrecords, Except.toOption, hne]

theorem lineEntry_given (number : Nat) (line : Bytes) :
    (lineEntry number line).toList.flatMap (fun e => captured source (e, time)) =
        lineRecords source time line ∧
      (lineEntry number line).toList.filterMap (fun e => corruptEntry source file (e, time)) =
        (lineError source file time (line, number)).toList := by
  cases hblank : isBlank line with
  | true =>
    have hnone := ofBytes?_of_isBlank hblank
    simp [lineEntry, lineRecords, lineError, lineCause, hblank, hnone]
  | false =>
    cases hjson : Json.ofBytes? line with
    | none =>
      simp [lineEntry, lineRecords, lineError, lineCause, hblank, Json.ofBytes, hjson, captured,
        corruptEntry, corruption]
    | some json =>
      cases hrecords : recordsOf source time json with
      | error cause =>
        simp [lineEntry, lineRecords, lineError, lineCause, hblank, Json.ofBytes, hjson, captured,
          corruptEntry, corruption, hrecords]
      | ok records =>
        simp [lineEntry, lineRecords, lineError, lineCause, hblank, Json.ofBytes, hjson, captured,
          corruptEntry, corruption, hrecords]

/-- The entries of lines give what the lines give one by one. -/
theorem lineEntries_given (number : Nat) (lines : List Bytes) :
    (lineEntries number lines).flatMap (fun e => captured source (e, time)) =
        lines.flatMap (lineRecords source time) ∧
      (lineEntries number lines).filterMap (fun e => corruptEntry source file (e, time)) =
        (lines.zipIdx number).filterMap (lineError source file time) := by
  induction lines generalizing number with
  | nil => exact ⟨rfl, rfl⟩
  | cons line rest ih =>
    rcases lineEntry_given source file time number line with ⟨hrecords, herrors⟩
    rcases ih (number + 1) with ⟨hrest, hrest'⟩
    constructor
    · rw [lineEntries, List.flatMap_append, hrecords, hrest, List.flatMap_cons]
    · rw [lineEntries, List.filterMap_append, herrors, hrest', List.zipIdx_cons, List.filterMap_cons]
      cases lineError source file time (line, number) <;> rfl

end Line

/-! ## A single file -/

theorem takeAll_append (s : Store) (file : String) (time : Timestamp) (a b : List Entry) :
    s.takeAll file time (a ++ b) = (s.takeAll file time a).takeAll file time b :=
  List.foldl_append

/-- Entries are taken without a look at the cursors. -/
theorem takeAll_withFiles (s : Store) (files : List (String × Cursor)) (file : String)
    (time : Timestamp) (entries : List Entry) :
    { s with files }.takeAll file time entries = { s.takeAll file time entries with files } := by
  refine List.foldl_hom (fun t : Store => { t with files }) fun t entry => ?_
  rw [take_eq, take_eq]

theorem eachFile_single (each : Store → String → Store × Except StoreError Nat) (s : Store)
    (path : String) : eachFile each s [path] = each s path := by
  rw [eachFile]
  rcases each s path with ⟨next, _ | n⟩ <;> rfl

/-- A load of a folder with one file in it takes what the file holds. -/
theorem load_alone (source : Source) {folder path : String} {disk : Disk}
    (halone : disk.filesIn folder = [path]) :
    ∃ files, ((fresh source folder).load disk).1 =
      { (fresh source folder).takeAll path (fileTime disk path)
          (fileEntries (disk.content path)) with files } := by
  have hpath : path ∈ disk.filesIn folder := by simp [halone]
  rcases Disk.read_of_mem_filesIn hpath with ⟨file, hread⟩
  have htime : fileTime disk path = file.time := fileTime_of_read hread
  rcases hlook : Cursor.firstLook (disk.content path) with ⟨c, found⟩
  have hwhole : found ++ Cursor.secondLook (disk.content path) = fileEntries (disk.content path) := by
    simpa [hlook] using (Cursor.looks (disk.content path)).whole
  -- The poll looks at the file for the first time.
  have hpoll : ((fresh source folder).poll disk).1 =
      { (fresh source folder).takeAll path (fileTime disk path) found with
        files := [(path, c)] } := by
    have hscan : Cursor.start.scan (file.bytes.drop Cursor.start.offset) false = (c, found) := by
      rw [← hlook, Disk.content_of_read hread]
      rfl
    have hfirst := readFile_eq (s := fresh source folder) hread rfl hscan
    calc
      ((fresh source folder).poll disk).1
        = (eachFile (ingestGrown disk) (fresh source folder) [path]).1 := by
          rw [(poll_eq (fresh source folder) disk).1, ← halone]
          rfl
      _ = ((fresh source folder).readFile disk path false).1 := by
          rw [eachFile_single, ingestGrown_of_read hread]
          rfl
      _ = _ := by
          rw [hfirst, htime]
          rfl
  -- The flush looks at it once more if something waits.
  rw [load_fresh, hpoll]
  cases hdeferred : c.deferred with
  | false =>
    have hsecond : Cursor.secondLook (disk.content path) = [] := by
      simp [Cursor.secondLook, hlook, hdeferred]
    rw [hsecond, List.append_nil] at hwhole
    refine ⟨[(path, c)], ?_⟩
    simp [flush, deferredFiles, hdeferred, eachFile, hwhole]
  | true =>
    rcases hlast : c.scan (file.bytes.drop c.offset) true with ⟨next, rest⟩
    have hsecond : Cursor.secondLook (disk.content path) = rest := by
      simp only [Cursor.secondLook, hlook, hdeferred, if_true]
      rw [Disk.content_of_read hread, hlast]
    have hcursor : (Cursors.find? path [(path, c)]).getD Cursor.start = c := by
      simp [Cursors.find?]
    have hsettle := readFile_eq
      (s := { (fresh source folder).takeAll path (fileTime disk path) found with
        files := [(path, c)] }) hread hcursor hlast
    refine ⟨Cursors.set path next [(path, c)], ?_⟩
    rw [flush, show deferredFiles _ = [path] by simp [deferredFiles, hdeferred], eachFile_single,
      hsettle, takeAll_withFiles, ← hwhole, hsecond, takeAll_append, htime]

/-- The number that a load gives is that of the records that it staged. -/
theorem load_count (source : Source) {disk : Disk} {folder path : String}
    (hpath : path ∈ disk.filesIn folder) :
    ((fresh source folder).load disk).2 =
      .ok ((fresh source folder).load disk).1.staged.length := by
  rcases load_ok hpath source with ⟨n, hn⟩
  rcases ((fresh source folder).load_counts disk).staged
    ((fresh source folder).load_reads disk) hn with ⟨new, hnew, hlength⟩
  have hcount : ((fresh source folder).load disk).1.staged.length = n := by
    rw [hnew, ← hlength]
    rfl
  rw [hcount]
  exact hn

/-- A file that is read as lines gives what its lines give. -/
theorem load_lines (source : Source) {folder path : String} {disk : Disk}
    (halone : disk.filesIn folder = [path])
    (hentries : fileEntries (disk.content path) = entries 1 (disk.content path)) :
    let loaded := (fresh source folder).load disk
    let lines := allLines (disk.content path)
    let time := fileTime disk path
    loaded.1.staged.map located =
        (lines.flatMap (lineRecords source time)).map (some (.text path), ·) ∧
      loaded.1.errors = (lines.zipIdx 1).filterMap (lineError source path time) := by
  intro loaded lines time
  have hlines := lineEntries_given source path time 1 lines
  rcases load_alone source halone with ⟨files, hloaded⟩
  rw [hentries] at hloaded
  constructor
  · have hstaged := takeAll_staged (fresh source folder) path time (lineEntries 1 lines)
    rw [show loaded.1 = _ from hloaded]
    exact hstaged.trans (by rw [← hlines.1]; rfl)
  · have herrors := takeAll_errors (fresh source folder) path time (lineEntries 1 lines)
    rw [show loaded.1 = _ from hloaded]
    exact herrors.trans (by rw [← hlines.2]; rfl)

/-- A file that can be salvaged gives the records of all its accepted lines in their order, and an
error for every other line that is not blank, with the number of the line. -/
theorem load_salvages (source : Source) (folder path : String) (disk : Disk)
    (halone : disk.filesIn folder = [path]) (hsalvageable : Salvageable (disk.content path)) :
    let loaded := (fresh source folder).load disk
    let lines := allLines (disk.content path)
    let time := fileTime disk path
    loaded.2 = .ok loaded.1.staged.length ∧
      loaded.1.staged.map located =
        (lines.flatMap (lineRecords source time)).map (some (.text path), ·) ∧
      loaded.1.errors = (lines.zipIdx 1).filterMap (lineError source path time) ∧
      ∀ line, (lineCause source time line).isSome = true ↔
        isBlank line = false ∧ lineRecords source time line = [] := by
  intro loaded lines time
  have hpath : path ∈ disk.filesIn folder := by simp [halone]
  rcases load_lines source halone (fileEntries_of_salvageable hsalvageable) with
    ⟨hstaged, herrors⟩
  exact ⟨load_count source hpath, hstaged, herrors, lineCause_isSome_iff source time⟩

/-- The file starts with a broken line and ends with one that is not terminated. In between are a
blank line, an envelope and an object that is none. -/
def battered : Disk :=
  Disk.empty.append "logs/a.log"
    (Utf8.ofString
      "garbage\n \n\x7b\"path\":\"/a\",\"request\":\x7b\x7d\x7d\n\x7b\"hello\":1\x7d\nlost") 5

/-- One record of the third line is left, and the other lines but the blank one are reported. -/
theorem load_salvages_battered :
    battered.filesIn "logs" = ["logs/a.log"] ∧
      Salvageable (battered.content "logs/a.log") ∧
      ((fresh .library "logs").load battered).2 =
        .ok ((fresh .library "logs").load battered).1.staged.length ∧
      ((fresh .library "logs").load battered).1.staged.map (fun r => (located r).2.path) = ["/a"] ∧
      ((fresh .library "logs").load battered).1.errors.map (·.line) =
        [some 1, some 4, some 5] := by
  have halone : battered.filesIn "logs" = ["logs/a.log"] := by decide +kernel
  have hsalvageable : Salvageable (battered.content "logs/a.log") := by decide +kernel
  rcases load_salvages .library "logs" "logs/a.log" battered halone hsalvageable with
    ⟨hcount, hstaged, herrors, -⟩
  refine ⟨halone, hsalvageable, hcount, ?_, ?_⟩
  · have hpaths := congrArg (List.map fun found => found.2.path) hstaged
    rw [List.map_map] at hpaths
    exact hpaths.trans (by decide +kernel)
  · rw [herrors]
    decide +kernel

end Store
end TraceAudit
