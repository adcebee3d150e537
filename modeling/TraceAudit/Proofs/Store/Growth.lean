import Mathlib.Data.List.TakeWhile
import TraceAudit.Proofs.Store.Lines

/-!
# A cursor on a growing file

A line-delimited file may be looked at any number of times while it grows. `Cursor.Follows` is what
holds of the cursor in between:

* `Cursor.scanLines_eaten` tells how much one look consumes and what it gives;
* `LineDelimited` says what a finished file has to hold, and `Layout.detect_of_isPrefix` that no
  start of such a file is taken for a document;
* `Cursor.Follows.scan` is one more look at the grown file, `Cursor.Follows.settle` the last one,
  after which the entries are those of all lines, `Scan.entries`.
-/

namespace TraceAudit

open Scan

/-- A finished file with one JSON text per line, the first one an object, that can be cut anywhere
without showing a value too early. -/
structure LineDelimited (bytes : Bytes) : Prop extends Cuttable bytes where
  firstIsObject : ∃ line, (allLines bytes).find? (!isBlank ·) = some line ∧
    (Json.ofBytes? line).any Json.isObject = true

theorem lineDelimited_iff {bytes : Bytes} :
    LineDelimited bytes ↔ Cuttable bytes ∧
      (((allLines bytes).find? (!isBlank ·)).bind Json.ofBytes?).any Json.isObject = true := by
  constructor
  · intro h
    rcases h.firstIsObject with ⟨line, hline, hobject⟩
    exact ⟨h.toCuttable, by rw [hline]; exact hobject⟩
  · rintro ⟨hcuttable, hfirst⟩
    refine ⟨hcuttable, ?_⟩
    cases hline : (allLines bytes).find? (!isBlank ·) with
    | none => simp [hline] at hfirst
    | some line => exact ⟨line, rfl, by simpa [hline] using hfirst⟩

instance (bytes : Bytes) : Decidable (LineDelimited bytes) := decidable_of_iff' _ lineDelimited_iff

/-! ## One look at lines -/

namespace Cursor

theorem scanLines_eaten (c : Cursor) (bytes : Bytes) (final : Bool) :
    ∃ eaten kept, bytes = eaten ++ kept ∧
      c.scanLines bytes final =
        ({ c with
            layout := .lines
            lines := c.lines + (splitLines eaten).1.length
            offset := c.offset + eaten.length
            deferred := !kept.isEmpty },
          entries (c.lines + 1) eaten) ∧
      (final = true → kept = []) ∧ (final = false → IsSettled (splitLines eaten).2) := by
  have hnumber : c.lines + 1 + (splitLines bytes).1.length =
      c.lines + (splitLines bytes).1.length + 1 := by omega
  by_cases hlast : IsSettled (splitLines bytes).2
  · -- Nothing waits for more, so everything is consumed.
    refine ⟨bytes, [], by simp, ?_, by simp, fun _ => hlast⟩
    rw [entries_eq, hnumber]
    rcases lineEntry_of_settled hlast (c.lines + (splitLines bytes).1.length + 1) with h | ⟨json, h⟩
    · simp [scanLines, h]
    · simp [scanLines, h]
  · have hbroken := lineEntry_of_not_settled hlast (c.lines + (splitLines bytes).1.length + 1)
    cases final with
    | true =>
      refine ⟨bytes, [], by simp, ?_, by simp, by simp⟩
      rw [entries_eq, hnumber]
      simp [scanLines, hbroken]
    | false =>
      -- The broken end is kept, and what is in front of it ends with a line feed.
      rcases splitLines_body bytes with ⟨body, hbytes, hbody⟩
      have hlength : bytes.length - (splitLines bytes).2.length = body.length := by
        have := congrArg List.length hbytes
        rw [List.length_append] at this
        omega
      have hkept : (splitLines bytes).2.isEmpty = false := by
        cases hempty : (splitLines bytes).2 with
        | nil => exact absurd (Or.inl (by rw [hempty]; rfl)) hlast
        | cons b rest => rfl
      refine ⟨body, (splitLines bytes).2, hbytes, ?_, by simp, fun _ => ?_⟩
      · rw [entries_eq, hbody, lineEntry_of_isBlank rfl]
        simp [scanLines, hbroken, hlength, hkept]
      · rw [hbody]
        exact Or.inl rfl

end Cursor

/-! ## The layout of the starts of a file -/

/-- Leading white space belongs to blank lines and to the first line that is not blank. -/
theorem Scan.allLines_dropWhile {bytes first : Bytes} {more : List Bytes}
    (h : allLines (bytes.dropWhile Text.isAsciiBlank) = first :: more) :
    ∃ blanks lead, allLines bytes = blanks ++ (lead ++ first) :: more ∧
      (∀ line ∈ blanks, isBlank line = true) ∧ isBlank lead = true ∧
      ∀ b ∈ lead, b ∈ bytes.takeWhile Text.isAsciiBlank := by
  have hblank : isBlank (bytes.takeWhile Text.isAsciiBlank) = true := List.all_takeWhile
  have hlast := last_mem_allLines (bytes.takeWhile Text.isAsciiBlank)
  refine ⟨(splitLines (bytes.takeWhile Text.isAsciiBlank)).1,
    (splitLines (bytes.takeWhile Text.isAsciiBlank)).2, ?_, ?_,
    isBlank_of_mem_allLines hblank hlast, mem_of_mem_allLines hlast⟩
  · have hlines := allLines_append (bytes.takeWhile Text.isAsciiBlank)
      (bytes.dropWhile Text.isAsciiBlank)
    rwa [List.takeWhile_append_dropWhile, h, List.modifyHead_cons] at hlines
  · intro line hline
    exact isBlank_of_mem_allLines hblank (List.mem_append_left _ hline)

/-- The first line behind the leading white space is not blank. -/
theorem Scan.first_not_blank {bytes first : Bytes} {more : List Bytes}
    (hbody : bytes.dropWhile Text.isAsciiBlank ≠ [])
    (h : allLines (bytes.dropWhile Text.isAsciiBlank) = first :: more) :
    isBlank first = false := by
  cases hdrop : bytes.dropWhile Text.isAsciiBlank with
  | nil => exact absurd hdrop hbody
  | cons b rest =>
    have hb : ¬Text.isAsciiBlank b = true := by
      have := List.head?_dropWhile_not Text.isAsciiBlank bytes
      simpa [hdrop] using this
    have hfeed : b ≠ 0x0A := by
      rintro rfl
      exact hb rfl
    rw [hdrop, allLines_cons, if_neg hfeed] at h
    rcases exists_allLines rest with ⟨line, lines, hrest⟩
    rw [hrest, List.modifyHead_cons] at h
    cases h
    simp [isBlank, hb]

/-- The first line that is not blank starts with what is left of the leading white space. -/
theorem Scan.find?_first {bytes first : Bytes} {more : List Bytes}
    (hbody : bytes.dropWhile Text.isAsciiBlank ≠ [])
    (h : allLines (bytes.dropWhile Text.isAsciiBlank) = first :: more) :
    ∃ lead, (allLines bytes).find? (!isBlank ·) = some (lead ++ first) ∧ isBlank lead = true ∧
      ∀ b ∈ lead, b ∈ bytes.takeWhile Text.isAsciiBlank := by
  rcases allLines_dropWhile h with ⟨blanks, lead, hlines, hblanks, hlead, hmem⟩
  have hnot : isBlank (lead ++ first) = false := by
    rw [isBlank_append, first_not_blank hbody h, Bool.and_false]
  refine ⟨lead, ?_, hlead, hmem⟩
  rw [hlines, List.find?_append, List.find?_eq_none.2 (by simpa using hblanks)]
  simp [hnot]

/-- The layout that a start of a file is taken for, by the first line of the whole file: the start
ends behind this line, or within it. -/
theorem Scan.detect_start {start : Bytes} (rest : Bytes)
    (hbody : start.dropWhile Text.isAsciiBlank ≠ []) :
    ∃ first others, allLines ((start ++ rest).dropWhile Text.isAsciiBlank) = first :: others ∧
      (Layout.detect start false = (if (Json.ofBytes? first).isSome then .lines else .document) ∨
        ∃ more, first = start.dropWhile Text.isAsciiBlank ++ more ∧ (∀ b ∈ more, b ∈ rest) ∧
          Layout.detect start false =
            if (Json.ofBytes? (start.dropWhile Text.isAsciiBlank)).isSome then .lines
            else .unknown) := by
  have hempty : (start.dropWhile Text.isAsciiBlank).isEmpty = false := by simpa using hbody
  rw [List.dropWhile_append, if_neg (by simpa using hbody), allLines_append]
  cases hlines : (splitLines (start.dropWhile Text.isAsciiBlank)).1 with
  | cons first more =>
    -- The line has its line feed already.
    refine ⟨first, _, rfl, Or.inl ?_⟩
    simp [Layout.detect, hempty, hlines]
  | nil =>
    -- There is no line feed yet, so the line goes on with what follows.
    have hlast := splitLines_of_fst_eq_nil hlines
    rcases exists_allLines rest with ⟨more, others, hrest⟩
    refine ⟨start.dropWhile Text.isAsciiBlank ++ more, others, by simp [hrest, hlast], Or.inr
      ⟨more, rfl, mem_of_mem_allLines (by simp [hrest]), ?_⟩⟩
    simp [Layout.detect, hempty, hlines, hlast]

/-- The first line behind the leading white space of a line-delimited file is a value. -/
theorem LineDelimited.first_value {bytes first : Bytes} {more : List Bytes}
    (h : LineDelimited bytes) (hbody : bytes.dropWhile Text.isAsciiBlank ≠ [])
    (hfirst : allLines (bytes.dropWhile Text.isAsciiBlank) = first :: more) :
    (Json.ofBytes? first).isSome = true := by
  rcases find?_first hbody hfirst with ⟨lead, hfind, hlead, hmem⟩
  rcases h.firstIsObject with ⟨line, hline, hobject⟩
  have heq : line = lead ++ first := by
    rw [hfind] at hline
    exact (Option.some.inj hline).symm
  -- Without form feeds, what is in front of the value is white space to it as well.
  have hspace : lead.all Json.isBlankOctet = true := by
    refine isBlankOctet_of_isBlank (fun hfeed => ?_) hlead
    exact h.noFormFeed ((List.takeWhile_prefix _).subset (hmem _ hfeed))
  rw [heq, Json.ofBytes?_blank_append hspace] at hobject
  cases hjson : Json.ofBytes? first with
  | none => simp [hjson] at hobject
  | some json => rfl

/-- A line-delimited file is not blank. -/
theorem LineDelimited.body_ne_nil {bytes : Bytes} (h : LineDelimited bytes) :
    bytes.dropWhile Text.isAsciiBlank ≠ [] := by
  intro hbody
  rcases h.firstIsObject with ⟨line, hline, -⟩
  have hmem := List.mem_of_find?_eq_some hline
  have hblank : ∀ b ∈ line, Text.isAsciiBlank b = true := fun b hb =>
    List.dropWhile_eq_nil_iff.1 hbody b (mem_of_mem_allLines hmem b hb)
  have hnot := List.find?_some hline
  rw [show isBlank line = true from List.all_eq_true.2 hblank] at hnot
  cases hnot

theorem LineDelimited.detect {bytes : Bytes} (h : LineDelimited bytes) (final : Bool) :
    Layout.detect bytes final = .lines := by
  rcases exists_allLines (bytes.dropWhile Text.isAsciiBlank) with ⟨first, more, hfirst⟩
  have hvalue := h.first_value h.body_ne_nil hfirst
  have hempty : (bytes.dropWhile Text.isAsciiBlank).isEmpty = false := by
    simpa using h.body_ne_nil
  rw [Layout.detect]
  simp only [hempty]
  rw [allLines] at hfirst
  cases hwhole : (splitLines (bytes.dropWhile Text.isAsciiBlank)).1 with
  | nil =>
    rw [hwhole] at hfirst
    cases hfirst
    simp [hvalue]
  | cons line lines =>
    rw [hwhole] at hfirst
    cases hfirst
    simp [hvalue]

/-- No start of a line-delimited file is taken for a document. -/
theorem LineDelimited.detect_of_isPrefix {bytes start : Bytes} (h : LineDelimited bytes)
    (hstart : start <+: bytes) : Layout.detect start false ≠ .document := by
  rcases hstart with ⟨rest, rfl⟩
  by_cases hbody : start.dropWhile Text.isAsciiBlank = []
  · simp [Layout.detect, hbody]
  · rcases detect_start rest hbody with ⟨first, others, hfirst, hdetect | ⟨more, -, -, hdetect⟩⟩
    · have hvalue := h.first_value h.body_ne_nil hfirst
      simp [hdetect, hvalue]
    · rw [hdetect]
      split <;> simp

/-! ## A cursor that follows a file -/

namespace Cursor

/-- The cursor has looked at the octets `seen` at last, and its looks gave these entries in all.
Before the layout is known it waits; then it has eaten up to a settled end, and keeps a rest that
waits for more. -/
structure Follows (c : Cursor) (seen : Bytes) (given : List Entry) : Prop where
  length : c.seen = seen.length
  stands :
    (c.layout = .unknown ∧ c.offset = 0 ∧ c.lines = 0 ∧ given = [] ∧
        Layout.detect seen false = .unknown) ∨
      (c.layout = .lines ∧ ∃ eaten kept, seen = eaten ++ kept ∧ c.offset = eaten.length ∧
        c.lines = (splitLines eaten).1.length ∧ IsSettled (splitLines eaten).2 ∧
        given.map Entry.plain = (entries 1 eaten).map Entry.plain ∧ c.deferred = !kept.isEmpty)

theorem follows_start : start.Follows [] [] :=
  ⟨rfl, Or.inl ⟨rfl, rfl, rfl, rfl, rfl⟩⟩

/-- One more look at lines, from a settled end on. The looks together gave what one look gives. -/
theorem scanLines_append {c : Cursor} {eaten more : Bytes} {given : List Entry} (final : Bool)
    (cuttable : Cuttable (eaten ++ more)) (offset : c.offset = eaten.length)
    (lines : c.lines = (splitLines eaten).1.length) (settled : IsSettled (splitLines eaten).2)
    (same : given.map Entry.plain = (entries 1 eaten).map Entry.plain) :
    ∃ next kept, eaten ++ more = next ++ kept ∧
      (c.scanLines more final).1 =
        { c with
          layout := .lines
          lines := (splitLines next).1.length
          offset := next.length
          deferred := !kept.isEmpty } ∧
      (given ++ (c.scanLines more final).2).map Entry.plain = (entries 1 next).map Entry.plain ∧
      (final = true → kept = []) ∧ (final = false → IsSettled (splitLines next).2) := by
  rcases scanLines_eaten c more final with ⟨bite, kept, hmore, hscan, hfinal, hsettled⟩
  have hcut : Cuttable (eaten ++ bite) := by
    rw [hmore, ← List.append_assoc] at cuttable
    exact cuttable.of_append
  refine ⟨eaten ++ bite, kept, by rw [hmore, List.append_assoc], ?_, ?_, hfinal, ?_⟩
  · rw [hscan, splitLines_append_length, List.length_append, offset, lines]
  · rw [hscan, entries_append hcut settled, List.map_append, List.map_append, same, lines,
      Nat.add_comm 1]
  · intro h
    exact isSettled_append hcut settled (hsettled h)

/-- One more look at a line-delimited file that has grown meanwhile. -/
theorem Follows.scan {c : Cursor} {seen grown whole : Bytes} {given : List Entry}
    (h : c.Follows seen given) (delimited : LineDelimited whole) (hgrown : seen <+: grown)
    (hwhole : grown <+: whole) :
    (c.scan (grown.drop c.offset) false).1.Follows grown
      (given ++ (c.scan (grown.drop c.offset) false).2) := by
  rcases h.stands with ⟨hlayout, hoffset, hlines, hgiven, -⟩ |
    ⟨hlayout, eaten, kept, hseen, hoffset, hlines, hsettled, hgiven, -⟩
  · -- The layout was not known yet, so the look starts from the beginning.
    have hcuttable : Cuttable ([] ++ grown) := by
      rcases hwhole with ⟨rest, rfl⟩
      exact delimited.toCuttable.of_append
    rw [hoffset, List.drop_zero, Cursor.scan, if_pos hlayout]
    cases hdetect : Layout.detect grown false with
    | document =>
      exact absurd hdetect (delimited.detect_of_isPrefix hwhole)
    | unknown =>
      exact ⟨by simp [hoffset], Or.inl ⟨rfl, hoffset, hlines, by simp [hgiven], hdetect⟩⟩
    | lines =>
      have hnone : given.map Entry.plain = (entries 1 []).map Entry.plain := by
        rw [hgiven]
        rfl
      rcases scanLines_append (c := { c with layout := .lines, seen := c.offset + grown.length })
        false hcuttable hoffset hlines (Or.inl rfl) hnone with
        ⟨next, rest, hnext, hcursor, hentries, -, hend⟩
      refine ⟨by rw [hcursor]; simp [hoffset], Or.inr ⟨by rw [hcursor], next, rest, hnext, ?_⟩⟩
      rw [hcursor]
      exact ⟨rfl, rfl, hend rfl, hentries, rfl⟩
  · -- The look goes on behind what was eaten.
    rcases hgrown with ⟨more, rfl⟩
    have hcuttable : Cuttable (eaten ++ (kept ++ more)) := by
      rcases hwhole with ⟨rest, rfl⟩
      rw [← List.append_assoc, ← hseen]
      exact delimited.toCuttable.of_append
    have hdrop : (seen ++ more).drop c.offset = kept ++ more := by
      rw [hseen, hoffset, List.append_assoc, List.drop_left]
    have hlength : c.offset + (kept ++ more).length = (seen ++ more).length := by
      rw [hseen, hoffset]
      simp
    rw [hdrop, Cursor.scan, hlayout, if_neg (by simp)]
    rcases scanLines_append
      (c := { c with layout := .lines, seen := c.offset + (kept ++ more).length })
      false hcuttable hoffset hlines hsettled hgiven with
      ⟨next, rest, hnext, hcursor, hentries, -, hend⟩
    refine ⟨by rw [hcursor]; exact hlength, Or.inr ⟨by rw [hcursor], next, rest, ?_, ?_⟩⟩
    · rw [hseen, List.append_assoc, hnext]
    · rw [hcursor]
      exact ⟨rfl, rfl, hend rfl, hentries, rfl⟩

/-- The last look at a line-delimited file, when there is something left to settle. -/
theorem Follows.settle {c : Cursor} {whole : Bytes} {given : List Entry}
    (h : c.Follows whole given) (delimited : LineDelimited whole) :
    (given ++ if c.deferred then (c.scan (whole.drop c.offset) true).2 else []).map Entry.plain =
      (entries 1 whole).map Entry.plain := by
  rcases h.stands with ⟨-, -, -, -, hdetect⟩ |
    ⟨hlayout, eaten, kept, hwhole, hoffset, hlines, hsettled, hgiven, hdeferred⟩
  · rw [delimited.detect] at hdetect
    cases hdetect
  · cases kept with
    | nil =>
      rw [hdeferred, hwhole]
      simpa using hgiven
    | cons b rest =>
      have hdrop : whole.drop c.offset = b :: rest := by
        rw [hwhole, hoffset, List.drop_left]
      have hwaits : c.deferred = true := by rw [hdeferred]; rfl
      rw [if_pos hwaits, hdrop, Cursor.scan, hlayout, if_neg (by simp)]
      rcases scanLines_append (c := { c with layout := .lines, seen := c.offset + (b :: rest).length })
        true (hwhole ▸ delimited.toCuttable) hoffset hlines hsettled hgiven with
        ⟨next, kept, hnext, -, hentries, hfinal, -⟩
      rw [hfinal rfl, List.append_nil, ← hwhole] at hnext
      rw [hnext]
      exact hentries

end Cursor

end TraceAudit
