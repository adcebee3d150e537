import TraceAudit.Proofs.Store.Document
import TraceAudit.Proofs.Store.Account
import TraceAudit.Proofs.Store.Salvage

/-!
# A document that is cut off

A proxy that is stopped while it writes a document leaves a start of it behind. As long as no line
of that start is an object on its own, it is one broken document and nothing else; a start with such
a line cannot be told from lines of which the first one is broken.

* `SpreadDocument.cut_none`: what is cut off before its closing brace is no JSON text;
* `SpreadDocument.fileEntries_cut` and `SpreadDocument.fileEntries_reread` are the two readings of
  it;
* `Store.load_truncated` is a load of a folder with such a file in it, `Store.truncated_reread` one
  that is read as lines.
-/

namespace TraceAudit

open Scan

namespace SpreadDocument

variable {whole start rest : Bytes}

/-- Before its closing brace a document is no JSON text. -/
theorem cut_none (h : SpreadDocument whole) (hcut : start ++ rest = whole) (hopen : 0x7D ∈ rest) :
    Json.ofBytes? start = none := by
  cases hjson : Json.ofBytes? start with
  | none => rfl
  | some json =>
    have hspace := (h.rest_of_complete hcut hjson).2
    have hbrace : Json.isBlankOctet 0x7D = true := List.all_eq_true.1 hspace 0x7D hopen
    cases hbrace

/-- No line of a document whose layout is not known yet is a value. -/
theorem not_holdsObjectLine (hlayout : Layout.detect start false = .unknown) :
    holdsObjectLine start = false := by
  cases hholds : holdsObjectLine start with
  | false => rfl
  | true =>
    rcases holdsObjectLine_iff.1 hholds with ⟨line, hline, hobject⟩
    have hnone : Json.ofBytes? line = none := by
      rcases unknown_cases hlayout with ⟨hblank, -⟩ | ⟨-, hlines⟩
      · exact ofBytes?_of_isBlank (isBlank_of_mem_allLines hblank hline)
      · rcases hlines line hline with hblank | hnone
        · exact ofBytes?_of_isBlank hblank
        · exact hnone
    simp [hnone] at hobject

/-- A start without an object on a line of its own is one broken piece. -/
theorem fileEntries_cut (h : SpreadDocument whole) (hcut : start ++ rest = whole)
    (hfilled : isBlank start = false) (hopen : 0x7D ∈ rest)
    (hplain : holdsObjectLine start = false) :
    ∃ e, fileEntries start = [e] ∧ e.isBroken = true := by
  have hnone := h.cut_none hcut hopen
  rcases h.detect ⟨rest, hcut⟩ with hlayout | ⟨hlayout, -⟩
  · exact ⟨.broken none (JsonFault.find start),
      by simp [fileEntries, hlayout, Json.ofBytes, hnone, hplain], rfl⟩
  · -- The first line is not complete, so there is one line to read.
    have hbody : start.dropWhile Text.isAsciiBlank ≠ [] := by
      intro hnil
      have hblank : isBlank start = true := List.all_eq_true.2 (List.dropWhile_eq_nil_iff.1 hnil)
      rw [hfilled] at hblank
      cases hblank
    rcases unknown_lines hlayout hbody with ⟨-, blanks, last, hlines, hblanks, hlast⟩
    have hentries : fileEntries start = entries 1 start := by simp [fileEntries, hlayout]
    have hcount : (entries 1 start).length ≤ 1 := by
      have hzero : blanks.countP (fun line => !isBlank line) = 0 :=
        List.countP_eq_zero.2 (by simpa using hblanks)
      rw [length_entries, filledLines, hlines, List.countP_append, hzero, Nat.zero_add]
      exact List.countP_le_length
    have hpos := fileEntries_pos hfilled
    rw [hentries] at hpos ⊢
    rcases List.length_eq_one_iff.1 (Nat.le_antisymm hcount hpos) with ⟨e, he⟩
    have hall : ∀ e ∈ lineEntries 1 (allLines start), e.isBroken = true := by
      apply isBroken_lineEntries
      intro line hline
      rw [hlines] at hline
      rcases List.mem_append.1 hline with hline | hline
      · exact Or.inl (hblanks line hline)
      · exact Or.inr (List.mem_singleton.1 hline ▸ hlast)
    have hmem : e ∈ entries 1 start := by simp [he]
    exact ⟨e, he, hall e hmem⟩

/-- A start with an object on a line of its own is read as lines, and its first line is another
one. -/
theorem fileEntries_reread (h : SpreadDocument whole) (hcut : start ++ rest = whole)
    (hopen : 0x7D ∈ rest) (hobject : holdsObjectLine start = true) :
    fileEntries start = entries 1 start ∧ 2 ≤ filledLines start := by
  have hnone := h.cut_none hcut hopen
  have hlayout : Layout.detect start false = .document := by
    rcases h.detect ⟨rest, hcut⟩ with hlayout | ⟨hlayout, -⟩
    · exact hlayout
    · rw [not_holdsObjectLine hlayout] at hobject
      cases hobject
  refine ⟨by simp [fileEntries, hlayout, Json.ofBytes, hnone, hobject], ?_⟩
  rcases first_of_document hlayout with ⟨first, hfirst, hbroken⟩
  rcases List.find?_eq_some_iff_append.1 hfirst with ⟨hfilled, before, after, hlines, hbefore⟩
  rcases holdsObjectLine_iff.1 hobject with ⟨line, hline, hvalue⟩
  have hnotBlank : ∀ l, isBlank l = true → l ≠ line := by
    rintro l hblank rfl
    simp [ofBytes?_of_isBlank hblank] at hvalue
  -- The object stands behind the first line, which is no value.
  have hafter : line ∈ after := by
    rw [hlines] at hline
    rcases List.mem_append.1 hline with hbefore' | hrest
    · exact absurd rfl (hnotBlank line (by simpa using hbefore line hbefore'))
    · rcases List.mem_cons.1 hrest with rfl | hafter
      · simp [hbroken] at hvalue
      · exact hafter
  have hpos : 0 < after.countP fun line => !isBlank line := by
    apply List.countP_pos_iff.2
    refine ⟨line, hafter, ?_⟩
    cases hblank : isBlank line with
    | false => rfl
    | true => exact absurd rfl (hnotBlank line hblank)
  have hboth : (first :: after).countP (fun line => !isBlank line) =
      after.countP (fun line => !isBlank line) + 1 := List.countP_cons_of_pos hfilled
  rw [filledLines, hlines, List.countP_append, hboth]
  omega

end SpreadDocument

namespace Store

/-- A load of a start of a document that ends before the closing brace succeeds. It gives no record
and one error if no line of it is an object on its own. Otherwise it is read as lines, and there is
a record or more than one error. -/
theorem load_truncated (source : Source) (folder path : String) (disk : Disk) {whole rest : Bytes}
    (halone : disk.filesIn folder = [path]) (hdocument : SpreadDocument whole)
    (hcut : disk.content path ++ rest = whole) (hfilled : isBlank (disk.content path) = false)
    (hopen : 0x7D ∈ rest) :
    let loaded := (fresh source folder).load disk
    let lines := allLines (disk.content path)
    let time := fileTime disk path
    (holdsObjectLine (disk.content path) = false →
      loaded.2 = .ok 0 ∧ loaded.1.staged = [] ∧ ∃ e, loaded.1.errors = [e] ∧ e.file = path) ∧
    (holdsObjectLine (disk.content path) = true →
      loaded.2 = .ok loaded.1.staged.length ∧
        loaded.1.staged.map located =
          (lines.flatMap (lineRecords source time)).map (some (.text path), ·) ∧
        loaded.1.errors = (lines.zipIdx 1).filterMap (lineError source path time) ∧
        (loaded.1.staged ≠ [] ∨ 2 ≤ loaded.1.errors.length)) := by
  intro loaded lines time
  have hpath : path ∈ disk.filesIn folder := by simp [halone]
  have hcount : loaded.2 = .ok loaded.1.staged.length := load_count source hpath
  constructor
  · intro hplain
    rcases hdocument.fileEntries_cut hcut hfilled hopen hplain with ⟨e, hentries, hbroken⟩
    rcases load_alone source halone with ⟨files, hloaded⟩
    rw [hentries] at hloaded
    -- A broken piece is rejected, with its line if it has one.
    cases e with
    | value line json => cases hbroken
    | broken line fault =>
      have hstaged : loaded.1.staged = [] := by
        rw [show loaded.1 = _ from hloaded]
        cases line <;> rfl
      have herrors : ∃ e, loaded.1.errors = [e] ∧ e.file = path := by
        rw [show loaded.1 = _ from hloaded]
        cases line <;> exact ⟨_, rfl, rfl⟩
      rw [hstaged] at hcount
      exact ⟨hcount, hstaged, herrors⟩
  · intro hobject
    rcases hdocument.fileEntries_reread hcut hopen hobject with ⟨hentries, htwo⟩
    rcases load_lines source halone hentries with ⟨hstaged, herrors⟩
    refine ⟨hcount, hstaged, herrors, ?_⟩
    by_cases hnone : loaded.1.staged = []
    · -- Without records each of the lines has given an error.
      have hfound : exchangesFrom path loaded.1.staged + (errorsIn path loaded.1.errors).length =
          filledLines (disk.content path) := by
        rw [load_entries source hpath, hentries, length_entries]
      have hzero : exchangesFrom path loaded.1.staged = 0 := by rw [hnone]; rfl
      have hle : (errorsIn path loaded.1.errors).length ≤ loaded.1.errors.length :=
        List.length_filter_le _ _
      exact Or.inr (by omega)
    · exact Or.inl hnone

/-- A document without its closing braces. -/
def unclosed : Disk :=
  Disk.empty.append "logs/a.log"
    (Utf8.ofString "\x7b\n\"path\":\"/a\",\n\"request\":\n\x7b\"headers\":[]") 5

/-- Nothing but the braces at the end is missing. -/
theorem load_truncated_unclosed :
    let loaded := (fresh .library "logs").load unclosed
    SpreadDocument (unclosed.content "logs/a.log" ++ Utf8.ofString "\x7d\n\x7d\n") ∧
      unclosed.filesIn "logs" = ["logs/a.log"] ∧
      holdsObjectLine (unclosed.content "logs/a.log") = false ∧
      loaded.2 = .ok 0 ∧ loaded.1.staged = [] ∧
      ∃ e, loaded.1.errors = [e] ∧ e.file = "logs/a.log" := by
  intro loaded
  have halone : unclosed.filesIn "logs" = ["logs/a.log"] := by decide +kernel
  have hdocument : SpreadDocument
      (unclosed.content "logs/a.log" ++ Utf8.ofString "\x7d\n\x7d\n") := by decide +kernel
  have hfilled : isBlank (unclosed.content "logs/a.log") = false := by decide +kernel
  have hplain : holdsObjectLine (unclosed.content "logs/a.log") = false := by decide +kernel
  have hloaded := load_truncated .library "logs" "logs/a.log" unclosed halone hdocument rfl hfilled
    (by decide +kernel)
  exact ⟨hdocument, halone, hplain, hloaded.1 hplain⟩

/-- The start of a document with a member that is a whole record on a line of its own. -/
def recordInside : Disk :=
  Disk.empty.append "logs/a.log"
    (Utf8.ofString
      "\x7b\n\"path\":\"/a\",\n\"request\":\n\x7b\"path\":\"/x\",\"request\":\x7b\x7d\x7d\n") 5

/-- What is inside of a document is taken for a record, and the lines around it for errors. -/
theorem truncated_reread :
    let content := recordInside.content "logs/a.log"
    let loaded := (fresh .library "logs").load recordInside
    SpreadDocument (content ++ Utf8.ofString "\x7d") ∧ isBlank content = false ∧
      recordInside.filesIn "logs" = ["logs/a.log"] ∧
      loaded.1.staged.map (·.path) = ["/x"] ∧
      loaded.1.errors.map (·.line) = [some 1, some 2, some 3] := by
  decide +kernel

end Store
end TraceAudit
