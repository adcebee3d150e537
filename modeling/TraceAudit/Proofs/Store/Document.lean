import TraceAudit.Proofs.Json.Complete
import TraceAudit.Proofs.Store.Finished
import TraceAudit.Proofs.Store.Schedule

/-!
# A document that is written in pieces

A file that holds one object over several lines is never taken for lines while it grows, and gives
the object as soon as it is complete. White space that is still written behind it is not read as
nothing: it is one more document, and a broken one.

* `SpreadDocument` says what such a file is, `SpreadDocument.detect` what its starts are taken for;
* `Cursor.Documents` is what holds of its cursor between any two looks;
* `Store.asDocument` follows it, and `Store.poll_history_document` compares a history with one load
  of the finished files.
-/

namespace TraceAudit

open Scan

/-- A file with one object on several lines: the first line that is not blank is no value. -/
structure SpreadDocument (bytes : Bytes) : Prop where
  object : (Json.ofBytes? bytes).any Json.isObject = true
  spread : ∀ first ∈ (allLines bytes).find? (!isBlank ·), Json.ofBytes? first = none

theorem spreadDocument_iff {bytes : Bytes} :
    SpreadDocument bytes ↔ (Json.ofBytes? bytes).any Json.isObject = true ∧
      ∀ first ∈ (allLines bytes).find? (!isBlank ·), Json.ofBytes? first = none :=
  ⟨fun h => ⟨h.object, h.spread⟩, fun h => ⟨h.1, h.2⟩⟩

instance (bytes : Bytes) : Decidable (SpreadDocument bytes) :=
  decidable_of_iff' _ spreadDocument_iff

/-! ## The starts of a document -/

namespace SpreadDocument

variable {whole start : Bytes}

theorem exists_object (h : SpreadDocument whole) :
    ∃ json, Json.ofBytes? whole = some json ∧ json.isObject = true := by
  simpa [Option.any_eq_true] using h.object

/-- What is blank in front of the object is white space of JSON texts. -/
theorem lead (h : SpreadDocument whole) :
    (whole.takeWhile Text.isAsciiBlank).all Json.isBlankOctet = true := by
  have hblank : isBlank (whole.takeWhile Text.isAsciiBlank) = true := List.all_takeWhile
  rcases h.exists_object with ⟨json, hjson, -⟩
  have hvalue : (Json.ofBytes? (whole.takeWhile Text.isAsciiBlank ++
      whole.dropWhile Text.isAsciiBlank)).isSome = true := by
    rw [List.takeWhile_append_dropWhile, hjson]
    rfl
  exact isBlankOctet_of_value hblank hvalue

/-- Without the white space in front it is the same document. -/
theorem ofBytes?_dropWhile (h : SpreadDocument whole) :
    Json.ofBytes? (whole.dropWhile Text.isAsciiBlank) = Json.ofBytes? whole := by
  have hdrop := Json.ofBytes?_blank_append h.lead (whole.dropWhile Text.isAsciiBlank)
  rw [List.takeWhile_append_dropWhile] at hdrop
  exact hdrop.symm

/-- The first line behind the leading white space is no value either. -/
theorem first_none (h : SpreadDocument whole) {first : Bytes} {more : List Bytes}
    (hbody : whole.dropWhile Text.isAsciiBlank ≠ [])
    (hfirst : allLines (whole.dropWhile Text.isAsciiBlank) = first :: more) :
    Json.ofBytes? first = none := by
  rcases find?_first hbody hfirst with ⟨lead, hfind, -, hmem⟩
  have hspace : lead.all Json.isBlankOctet = true :=
    List.all_eq_true.2 fun b hb => List.all_eq_true.1 h.lead b (hmem b hb)
  have hnone := h.spread _ hfind
  rwa [Json.ofBytes?_blank_append hspace] at hnone

/-- What follows a complete start of a document is white space, and the start holds the object. -/
theorem rest_of_complete (h : SpreadDocument whole) {rest : Bytes} {json : Json}
    (hwhole : start ++ rest = whole) (hjson : Json.ofBytes? start = some json) :
    Json.ofBytes? whole = some json ∧ rest.all Json.isBlankOctet = true := by
  rcases h.exists_object with ⟨object, hobject, his⟩
  rw [← hwhole] at hobject
  rcases Json.ofBytes?_of_append hjson hobject his with ⟨rfl, hrest⟩
  exact ⟨hwhole ▸ hobject, hrest⟩

/-- No start of a document is taken for lines. One that is complete is taken for a document. -/
theorem detect (h : SpreadDocument whole) (hstart : start <+: whole) :
    Layout.detect start false = .document ∨
      Layout.detect start false = .unknown ∧ Json.ofBytes? start = none := by
  rcases hstart with ⟨rest, hwhole⟩
  by_cases hbody : start.dropWhile Text.isAsciiBlank = []
  · have hblank : isBlank start = true := List.all_eq_true.2 (List.dropWhile_eq_nil_iff.1 hbody)
    exact Or.inr ⟨by simp [Layout.detect, hbody], ofBytes?_of_isBlank hblank⟩
  have hdrop : whole.dropWhile Text.isAsciiBlank = start.dropWhile Text.isAsciiBlank ++ rest := by
    rw [← hwhole, List.dropWhile_append, if_neg (by simpa using hbody)]
  have hne : whole.dropWhile Text.isAsciiBlank ≠ [] := by simp [hdrop, hbody]
  rcases detect_start rest hbody with ⟨first, others, hfirst, hcase⟩
  rw [hwhole] at hfirst
  have hnone := h.first_none hne hfirst
  rcases hcase with hdetect | ⟨more, rfl, hmore, hdetect⟩
  · exact Or.inl (by simp [hdetect, hnone])
  · have hstartNone : Json.ofBytes? (start.dropWhile Text.isAsciiBlank) = none := by
      cases hjson : Json.ofBytes? (start.dropWhile Text.isAsciiBlank) with
      | none => rfl
      | some json =>
        -- Otherwise the rest of this line would be white space, and the line a value.
        rcases h.exists_object with ⟨object, hobject, his⟩
        rw [← h.ofBytes?_dropWhile, hdrop] at hobject
        have hspace := (Json.ofBytes?_of_append hjson hobject his).2
        have hline : more.all Json.isBlankOctet = true :=
          List.all_eq_true.2 fun b hb => List.all_eq_true.1 hspace b (hmore b hb)
        have hvalue := Json.ofBytes?_append_blank hline hjson
        rw [hnone] at hvalue
        cases hvalue
    have hblank : isBlank (start.takeWhile Text.isAsciiBlank) = true := List.all_takeWhile
    have hjson := ofBytes?_ascii_blank_append hblank hstartNone
    rw [List.takeWhile_append_dropWhile] at hjson
    exact Or.inr ⟨by simp [hdetect, hstartNone], hjson⟩

end SpreadDocument

/-! ## A cursor that follows a document -/

namespace Cursor

/-- No look was at a complete document, and nothing is eaten. -/
structure Waits (c : Cursor) (looks : List Bytes) : Prop where
  layout : c.layout ≠ .lines
  offset : c.offset = 0
  incomplete : ∀ look ∈ looks, Json.ofBytes? look = none

/-- The document was eaten when it was first seen complete, and what was written behind it since
waits. -/
structure Took (c : Cursor) (looks : List Bytes) (early : Bytes) (json : Json) : Prop where
  layout : c.layout = .document
  offset : c.offset = early.length
  deferred : c.deferred = true ↔ early ≠ latest looks
  looked : early ∈ looks
  value : Json.ofBytes? early = some json
  first : ∀ look ∈ looks, (Json.ofBytes? look).isSome = true → early <+: look
  within : early <+: latest looks

/-- What holds of the cursor of a document between any two looks. -/
structure Documents (whole : Bytes) (c : Cursor) (looks : List Bytes) (given : List Entry) :
    Prop where
  seen : c.seen = (latest looks).length
  looked : ∀ look ∈ looks, look <+: whole
  state : (c.Waits looks ∧ given = []) ∨
    ∃ early json, c.Took looks early json ∧ given = [.value none json]

theorem documents_start (whole : Bytes) : start.Documents whole [] [] :=
  ⟨rfl, by simp, Or.inl ⟨⟨by simp [start], rfl, by simp⟩, rfl⟩⟩

theorem scan_document {c : Cursor} {bytes : Bytes} {final : Bool}
    (h : c.layout = .document ∨ c.layout = .unknown ∧ Layout.detect bytes final = .document) :
    c.scan bytes final =
      scanDocument { c with layout := .document, seen := c.offset + bytes.length } bytes final := by
  rcases h with hlayout | ⟨hlayout, hdetect⟩
  · simp [scan, hlayout]
  · simp [scan, hlayout, hdetect]

variable {whole grown : Bytes} {c : Cursor} {looks : List Bytes} {given : List Entry}

/-- A look at more of a document that was not complete yet. -/
theorem Waits.scan (hwaits : c.Waits looks) (h : SpreadDocument whole) (hgrown : grown <+: whole) :
    ((c.scan grown false).1.Waits (looks ++ [grown]) ∧ (c.scan grown false).2 = []) ∨
      ∃ json, (c.scan grown false).1.Took (looks ++ [grown]) grown json ∧
        (c.scan grown false).2 = [.value none json] := by
  by_cases hlayout : c.layout = .document ∨
      c.layout = .unknown ∧ Layout.detect grown false = .document
  · rw [scan_document hlayout]
    cases hjson : Json.ofBytes? grown with
    | none =>
      have hincomplete : ∀ look ∈ looks ++ [grown], Json.ofBytes? look = none := by
        simpa [or_imp, forall_and, hjson] using hwaits.incomplete
      refine Or.inl ⟨⟨?_, ?_, hincomplete⟩, ?_⟩ <;>
        simp [scanDocument, Json.ofBytes, hjson, hwaits.offset]
    | some json =>
      -- It is the first look at a complete document.
      have hfirst : ∀ look ∈ looks ++ [grown], (Json.ofBytes? look).isSome = true →
          grown <+: look := by
        intro look hlook hvalue
        rcases List.mem_append.1 hlook with hbefore | hlast
        · rw [hwaits.incomplete look hbefore] at hvalue
          cases hvalue
        · rcases List.mem_singleton.1 hlast with rfl
          exact List.prefix_rfl
      refine Or.inr ⟨json, ⟨?_, ?_, ?_, by simp, hjson, hfirst, ?_⟩, ?_⟩ <;>
        simp [scanDocument, Json.ofBytes, hjson, hwaits.offset, latest_append]
  · -- The layout is not known before and not after.
    have hunknown : c.layout = .unknown := by
      cases hc : c.layout with
      | unknown => rfl
      | lines => exact absurd hc hwaits.layout
      | document => exact absurd (Or.inl hc) hlayout
    rcases h.detect hgrown with hdetect | ⟨hdetect, hnone⟩
    · exact absurd (Or.inr ⟨hunknown, hdetect⟩) hlayout
    · have hincomplete : ∀ look ∈ looks ++ [grown], Json.ofBytes? look = none := by
        simpa [or_imp, forall_and, hnone] using hwaits.incomplete
      refine Or.inl ⟨⟨?_, ?_, hincomplete⟩, ?_⟩ <;>
        simp [Cursor.scan, hunknown, hdetect, hwaits.offset]

/-- What was written behind the document. -/
theorem Took.rest {early : Bytes} {json : Json} (htook : c.Took looks early json)
    (h : SpreadDocument whole) (hcontinues : latest looks <+: grown) (hgrown : grown <+: whole) :
    ∃ rest, early ++ rest = grown ∧ grown.drop c.offset = rest ∧ isBlank rest = true := by
  rcases htook.within.trans hcontinues with ⟨rest, hrest⟩
  rcases hgrown with ⟨more, hmore⟩
  have hwhole : early ++ (rest ++ more) = whole := by rw [← List.append_assoc, hrest, hmore]
  have hspace := (h.rest_of_complete hwhole htook.value).2
  rw [List.all_append, Bool.and_eq_true] at hspace
  refine ⟨rest, hrest, ?_, isBlank_of_isBlankOctet hspace.1⟩
  rw [htook.offset, ← hrest, List.drop_left]

/-- A look behind a document that was eaten gives nothing, but what is there waits. -/
theorem Took.scan {early : Bytes} {json : Json} (htook : c.Took looks early json)
    (h : SpreadDocument whole) (hcontinues : latest looks <+: grown) (hgrown : grown <+: whole)
    (hnew : latest looks ≠ grown) :
    (c.scan (grown.drop c.offset) false).1.Took (looks ++ [grown]) early json ∧
      (c.scan (grown.drop c.offset) false).2 = [] := by
  rcases htook.rest h hcontinues hgrown with ⟨rest, hrest, hdrop, hblank⟩
  have hnone := ofBytes?_of_isBlank hblank
  -- The file has grown since the last look, so something stands behind the document.
  have hgrew : early ≠ grown := by
    intro heq
    have hlength : (latest looks).length = grown.length :=
      le_antisymm hcontinues.length_le (heq ▸ htook.within.length_le)
    exact hnew (hcontinues.eq_of_length hlength)
  have hfirst : ∀ look ∈ looks ++ [grown], (Json.ofBytes? look).isSome = true →
      early <+: look := by
    intro look hlook hvalue
    rcases List.mem_append.1 hlook with hbefore | hlast
    · exact htook.first look hbefore hvalue
    · rw [List.mem_singleton.1 hlast, ← hrest]
      exact List.prefix_append early rest
  rw [hdrop, scan_document (Or.inl htook.layout)]
  refine ⟨⟨?_, ?_, ?_, ?_, htook.value, hfirst, ?_⟩, ?_⟩
  · simp [scanDocument, Json.ofBytes, hnone]
  · simp [scanDocument, Json.ofBytes, hnone, htook.offset]
  · simp [scanDocument, Json.ofBytes, hnone, latest_append, hgrew]
  · simp [htook.looked]
  · rw [latest_append, ← hrest]
    exact List.prefix_append early rest
  · simp [scanDocument, Json.ofBytes, hnone]

/-- The last look takes what was written behind a document for a broken document. -/
theorem Took.settle {early : Bytes} {json : Json} (htook : c.Took looks early json)
    (h : SpreadDocument whole) (hlast : latest looks = whole) :
    (c.scan (whole.drop c.offset) true).2.map Entry.plain = [.broken none default] := by
  rcases htook.rest h (hlast ▸ List.prefix_rfl) List.prefix_rfl with ⟨rest, -, hdrop, hblank⟩
  have hnone := ofBytes?_of_isBlank hblank
  -- Blank lines do not make the store read the rest as lines.
  have hobject : holdsObjectLine rest = false := by
    cases hholds : holdsObjectLine rest with
    | false => rfl
    | true =>
      rcases holdsObjectLine_iff.1 hholds with ⟨line, hline, hvalue⟩
      rw [ofBytes?_of_isBlank (isBlank_of_mem_allLines hblank hline)] at hvalue
      cases hvalue
  rw [hdrop, scan_document (Or.inl htook.layout)]
  simp [scanDocument, Json.ofBytes, hnone, hobject, Entry.plain]

/-- Looks at the same contents say the same of the cursor. -/
theorem Documents.congr {looks' : List Bytes} (hdocuments : c.Documents whole looks given)
    (hlatest : latest looks' = latest looks) (hmem : ∀ look, look ∈ looks' ↔ look ∈ looks) :
    c.Documents whole looks' given := by
  rcases hdocuments with ⟨hseen, hlooked, hstate⟩
  refine ⟨by rw [hlatest, hseen], fun look hlook => hlooked look ((hmem look).1 hlook), ?_⟩
  rcases hstate with ⟨hwaits, hgiven⟩ | ⟨early, json, htook, hgiven⟩
  · have hincomplete : ∀ look ∈ looks', Json.ofBytes? look = none := fun look hlook =>
      hwaits.incomplete look ((hmem look).1 hlook)
    exact Or.inl ⟨⟨hwaits.layout, hwaits.offset, hincomplete⟩, hgiven⟩
  · have hfirst : ∀ look ∈ looks', (Json.ofBytes? look).isSome = true → early <+: look :=
      fun look hlook => htook.first look ((hmem look).1 hlook)
    refine Or.inr ⟨early, json, ⟨htook.layout, htook.offset, ?_, (hmem early).2 htook.looked,
      htook.value, hfirst, ?_⟩, hgiven⟩
    · rw [hlatest]
      exact htook.deferred
    · rw [hlatest]
      exact htook.within

theorem Documents.again (hdocuments : c.Documents whole looks given) :
    c.Documents whole (looks ++ [latest looks]) given := by
  rcases looks.eq_nil_or_concat' with rfl | ⟨before, last, rfl⟩
  · -- Nothing was looked at, so nothing is there yet.
    have hempty : Json.ofBytes? ([] : Bytes) = none := rfl
    rcases hdocuments.state with ⟨hwaits, hgiven⟩ | ⟨early, json, htook, -⟩
    · exact ⟨hdocuments.seen, by simp [latest],
        Or.inl ⟨⟨hwaits.layout, hwaits.offset, by simp [latest, hempty]⟩, hgiven⟩⟩
    · cases htook.looked
  · exact hdocuments.congr (latest_append _ _) (by simp [latest_append])

theorem scanLines_seen (c : Cursor) (bytes : Bytes) (final : Bool) :
    (c.scanLines bytes final).1.seen = c.seen := by
  rcases scanLines_eaten c bytes final with ⟨eaten, kept, -, hscan, -⟩
  rw [hscan]

theorem scan_seen (c : Cursor) (bytes : Bytes) (final : Bool) :
    (c.scan bytes final).1.seen = c.offset + bytes.length := by
  rw [scan]
  split
  · rfl
  · rw [scanDocument]
    split
    · rfl
    · split
      · rfl
      · split
        · exact scanLines_seen _ _ _
        · rfl
  · exact scanLines_seen _ _ _

theorem Documents.look (hdocuments : c.Documents whole looks given) (h : SpreadDocument whole)
    (hnew : c = Cursor.start ∨ latest looks ≠ grown) (hcontinues : latest looks <+: grown)
    (hgrown : grown <+: whole) :
    (c.scan (grown.drop c.offset) false).1.Documents whole (looks ++ [grown])
      (given ++ (c.scan (grown.drop c.offset) false).2) := by
  have hlooked : ∀ look ∈ looks ++ [grown], look <+: whole := by
    simpa [or_imp, forall_and, hgrown] using hdocuments.looked
  rcases hdocuments.state with ⟨hwaits, rfl⟩ | ⟨early, json, htook, rfl⟩
  · have hseen : (c.scan grown false).1.seen = (latest (looks ++ [grown])).length := by
      rw [scan_seen, hwaits.offset, latest_append, Nat.zero_add]
    rw [hwaits.offset, List.drop_zero, List.nil_append]
    refine ⟨hseen, hlooked, ?_⟩
    rcases hwaits.scan h hgrown with ⟨hnext, hnone⟩ | ⟨json, hnext, hvalue⟩
    · exact Or.inl ⟨hnext, hnone⟩
    · exact Or.inr ⟨grown, json, hnext, hvalue⟩
  · have hchanged : latest looks ≠ grown := by
      rcases hnew with rfl | hchanged
      · -- A cursor that ate a document is not at the start.
        have hnil : early = [] := List.length_eq_zero_iff.1 htook.offset.symm
        have hvalue := htook.value
        rw [hnil] at hvalue
        cases hvalue
      · exact hchanged
    rcases htook.scan h hcontinues hgrown hchanged with ⟨hnext, hnone⟩
    refine ⟨?_, hlooked, Or.inr ⟨early, json, hnext, by rw [hnone, List.append_nil]⟩⟩
    have hle := (htook.within.trans hcontinues).length_le
    rw [scan_seen, latest_append, List.length_drop, htook.offset]
    omega

end Cursor

/-- The octets hold a complete document already, although they are not all of it. -/
def isEarly (whole bytes : Bytes) : Bool := (Json.ofBytes? bytes).isSome && bytes != whole

/-- What looks at a document give, with its settling. -/
def documentEntries (whole : Bytes) (looks : List Bytes) : List Entry :=
  (Json.ofBytes? whole).toList.map (.value none) ++
    if looks.any (isEarly whole) then [.broken none default] else []

theorem Cursor.Documents.settle {whole : Bytes} {c : Cursor} {looks : List Bytes}
    {given : List Entry} (hdocuments : c.Documents whole looks given) (h : SpreadDocument whole)
    (hlast : latest looks = whole) :
    (given ++ if c.deferred then (c.scan (whole.drop c.offset) true).2 else []).map Entry.plain =
      (documentEntries whole looks).map Entry.plain := by
  rcases h.exists_object with ⟨object, hobject, -⟩
  rcases hdocuments.state with ⟨hwaits, -⟩ | ⟨early, json, htook, rfl⟩
  · -- The last look was at the complete document, or there was none, which is no document.
    exfalso
    rcases looks.eq_nil_or_concat' with rfl | ⟨before, last, rfl⟩
    · rw [← hlast] at hobject
      cases hobject
    · rw [latest_append] at hlast
      have hnone := hwaits.incomplete last (by simp)
      rw [hlast, hobject] at hnone
      cases hnone
  · rcases htook.within with ⟨rest, hrest⟩
    have hvalue := (h.rest_of_complete (hrest.trans hlast) htook.value).1
    rw [hobject] at hvalue
    cases hvalue
    by_cases hearly : early = whole
    · -- It was seen complete for the first time when it was finished.
      have hdeferred : c.deferred = false := by
        have hnot : ¬c.deferred = true := fun hd => htook.deferred.1 hd (hearly.trans hlast.symm)
        simpa using hnot
      have hnever : looks.any (isEarly whole) = false := by
        apply List.any_eq_false.2
        intro look hlook hcomplete
        rw [isEarly, Bool.and_eq_true, bne_iff_ne] at hcomplete
        have hfirst := htook.first look hlook hcomplete.1
        rw [hearly] at hfirst
        have hlength : look.length = whole.length :=
          le_antisymm (hdocuments.looked look hlook).length_le hfirst.length_le
        exact hcomplete.2 ((hdocuments.looked look hlook).eq_of_length hlength)
      simp [documentEntries, hobject, hdeferred, hnever]
    · have hdeferred : c.deferred = true := htook.deferred.2 fun heq => hearly (heq.trans hlast)
      have honce : looks.any (isEarly whole) = true := by
        apply List.any_eq_true.2
        refine ⟨early, htook.looked, ?_⟩
        simp [isEarly, htook.value, hearly]
      have hlate := htook.settle h hlast
      simp [documentEntries, hobject, hdeferred, honce, hlate, Entry.plain]

namespace Store

/-- A file with a document is followed by its looks at a complete one. -/
def asDocument {whole : Bytes} (h : SpreadDocument whole) : Pursuit whole where
  Stands := Cursor.Documents whole
  total := documentEntries whole
  start := Cursor.documents_start whole
  seen hdocuments := hdocuments.seen
  again hdocuments := hdocuments.again
  look hdocuments hnew hcontinues hgrown := hdocuments.look h hnew hcontinues hgrown
  settle hdocuments hlast := hdocuments.settle h hlast

/-! ## Histories -/

/-- What is read behind a document gives no records, and the error of a broken document. -/
theorem late_readings (source : Source) (path : String) {late : List Reading} {early : Bool}
    (h : (late.map (·.1)).map Entry.plain = if early then [.broken none default] else []) :
    late.flatMap (captured source) = [] ∧
      (late.filterMap (corruptEntry source path)).map plainError =
        if early then [⟨path, none, .brokenDocument default⟩] else [] := by
  cases early with
  | false =>
    have hnil : late = [] := by simpa using h
    subst hnil
    exact ⟨rfl, rfl⟩
  | true =>
    rcases List.map_eq_singleton_iff.1 h with ⟨entry, hentry, hplain⟩
    rcases List.map_eq_singleton_iff.1 hentry with ⟨⟨found, time⟩, rfl, rfl⟩
    cases found with
    | value line json => cases hplain
    | broken line fault =>
      have hline : line = none := by simpa [Entry.plain] using hplain
      subst hline
      exact ⟨rfl, rfl⟩

/-- What is read of a finished document. -/
theorem document_readings (source : Source) (path : String) {json : Json} {readings : List Reading}
    (h : (readings.map (·.1)).map Entry.plain = [.value none json]) :
    ∃ time, readings.flatMap (captured source) = (recordsOf source time json).toOption.getD [] ∧
      readings.filterMap (corruptEntry source path) =
        match recordsOf source time json with
        | .ok _ => []
        | .error cause => [⟨path, none, cause⟩] := by
  rcases List.map_eq_singleton_iff.1 h with ⟨entry, hentry, hplain⟩
  rcases List.map_eq_singleton_iff.1 hentry with ⟨⟨found, time⟩, rfl, rfl⟩
  cases found with
  | broken line fault => cases hplain
  | value line value =>
    cases hplain
    refine ⟨time, by simp [captured], ?_⟩
    cases hrecords : recordsOf source time json <;> simp [corruptEntry, corruption, hrecords]

/-- A document that is written in pieces: after one more poll and a flush the records of the file
are those of one load of the finished folder, both those of the document, and so are the errors, but
for one more when some poll came between the end of the document and the white space behind it. -/
theorem poll_history_document (source : Source) (folder path : String) (disk : Disk)
    (events : List Event) (hgrowing : Growing folder disk events)
    (hpath : path ∈ ((History.start disk source folder).run events).disk.filesIn folder)
    (hdocument :
      SpreadDocument (((History.start disk source folder).run events).disk.content path)) :
    let h := (History.start disk source folder).run events
    let polled := h.store.poll h.disk
    let flushed := polled.1.flush h.disk
    let loaded := (fresh source folder).load h.disk
    let early := (polledContents folder path disk events).any (isEarly (h.disk.content path))
    (∃ n, polled.2 = .ok n) ∧ (∃ n, flushed.2 = .ok n) ∧ (∃ n, loaded.2 = .ok n) ∧
      (errorsIn path flushed.1.errors).map plainError =
        (errorsIn path loaded.1.errors).map plainError ++
          (if early then [⟨path, none, .brokenDocument default⟩] else []) ∧
      ∃ json time, Json.ofBytes? (h.disk.content path) = some json ∧
        SameButFileTime source [.value none json]
          ((recordsFrom path (h.handed ++ flushed.1.staged)).map Record.asCaptured)
          ((recordsFrom path loaded.1.staged).map Record.asCaptured) ∧
        (recordsFrom path loaded.1.staged).map Record.asCaptured =
          (recordsOf source time json).toOption.getD [] ∧
        errorsIn path loaded.1.errors =
          match recordsOf source time json with
          | .ok _ => []
          | .error cause => [⟨path, none, cause⟩] := by
  intro h polled flushed loaded early
  rcases pursuit_history (asDocument hdocument) source folder path disk events hgrowing hpath
    rfl with
    ⟨hpoll, hflush, hload, ⟨hsource, hsource'⟩, ⟨readings, hholds, hentries⟩,
      ⟨readings', hholds', hentries'⟩⟩
  rcases hdocument.exists_object with ⟨json, hjson, -⟩
  have hnever : isEarly (h.disk.content path) (h.disk.content path) = false := by simp [isEarly]
  have htotal : documentEntries (h.disk.content path) [h.disk.content path] =
      [.value none json] := by
    simp [documentEntries, h, hjson, hnever]
  have htotal' : documentEntries (h.disk.content path)
      (polledContents folder path disk events ++ [h.disk.content path]) =
        [.value none json] ++ if early then [.broken none default] else [] := by
    simp [documentEntries, h, hjson, hnever, early]
  have hwhole : (readings'.map (·.1)).map Entry.plain = [.value none json] := by
    have hload := hentries'.trans (congrArg (List.map Entry.plain) htotal)
    simpa [Entry.plain] using hload
  -- The readings of the history are those of the document, and then of what was behind it.
  have hsplit : (readings.map (·.1)).map Entry.plain =
      [.value none json] ++ if early then [.broken none default] else [] := by
    have hhistory := hentries.trans (congrArg (List.map Entry.plain) htotal')
    cases hearly : early <;> simpa [hearly, Entry.plain] using hhistory
  rcases List.map_eq_append_iff.1 hsplit with ⟨entries, rest, happend, hfirst, hlast⟩
  rcases List.map_eq_append_iff.1 happend with ⟨document, late, rfl, rfl, rfl⟩
  have hsame : SameButFileTime source [.value none json] (document.flatMap (captured source))
      (readings'.flatMap (captured source)) := records_same source hfirst hwhole
  rcases late_readings source path hlast with ⟨hlateRecords, hlateErrors⟩
  rcases document_readings source path hwhole with ⟨time, hrecordsOf, herrorsOf⟩
  have hrecords : (recordsFrom path (h.handed ++ flushed.1.staged)).map Record.asCaptured =
      (document ++ late).flatMap (captured source) := hsource ▸ hholds.records
  have herrors : errorsIn path flushed.1.errors =
      (document ++ late).filterMap (corruptEntry source path) := hsource ▸ hholds.errors
  have hrecords' : (recordsFrom path loaded.1.staged).map Record.asCaptured =
      readings'.flatMap (captured source) := hsource' ▸ hholds'.records
  have herrors' : errorsIn path loaded.1.errors =
      readings'.filterMap (corruptEntry source path) := hsource' ▸ hholds'.errors
  refine ⟨hpoll, hflush, hload, ?_, json, time, hjson, ?_, hrecords'.trans hrecordsOf,
    herrors'.trans herrorsOf⟩
  · rw [herrors, herrors', List.filterMap_append, List.map_append,
      errors_same source path (hfirst.trans hwhole.symm), hlateErrors]
  · rw [hrecords, hrecords', List.flatMap_append, hlateRecords, List.append_nil]
    exact hsame

/-- The disk with a complete document. -/
def documented : Disk :=
  Disk.empty.append "logs/a.log"
    (Utf8.ofString "\x7b\n\"path\":\"/a\",\n\"request\":\x7b\x7d\n\x7d") 5

/-- The same document with its last line feed. -/
def terminated : Disk := documented.append "logs/a.log" (Utf8.ofString "\n") 7

/-- The document is polled before and after its last line feed is written. -/
theorem poll_history_document_terminated :
    let h := (History.start documented .library "logs").run [.poll, .change terminated, .drain]
    let flushed := (h.store.poll h.disk).1.flush h.disk
    let loaded := (fresh .library "logs").load h.disk
    (∃ json, Json.ofBytes? (h.disk.content "logs/a.log") = some json ∧
        SameButFileTime .library [.value none json]
          ((recordsFrom "logs/a.log" (h.handed ++ flushed.1.staged)).map Record.asCaptured)
          ((recordsFrom "logs/a.log" loaded.1.staged).map Record.asCaptured)) ∧
      (errorsIn "logs/a.log" flushed.1.errors).map plainError =
        (errorsIn "logs/a.log" loaded.1.errors).map plainError ++
          [⟨"logs/a.log", none, .brokenDocument default⟩] := by
  have hgrowing : Growing "logs" documented [.poll, .change terminated, .drain] :=
    ⟨by decide +kernel, trivial⟩
  have hdocument : SpreadDocument (((History.start documented .library "logs").run
      [.poll, .change terminated, .drain]).disk.content "logs/a.log") := by decide +kernel
  rcases poll_history_document .library "logs" "logs/a.log" documented
    [.poll, .change terminated, .drain] hgrowing (by decide +kernel) hdocument with
    ⟨-, -, -, herrors, json, -, hjson, hrecords, -⟩
  have hearly : (polledContents "logs" "logs/a.log" documented
      [.poll, .change terminated, .drain]).any (isEarly (((History.start documented .library
        "logs").run [.poll, .change terminated, .drain]).disk.content "logs/a.log")) = true := by
    decide +kernel
  rw [hearly, if_pos rfl] at herrors
  exact ⟨⟨json, hjson, hrecords⟩, herrors⟩

/-- A load of this document finds no error, but the history does. -/
theorem terminated_document_broken :
    let h := (History.start documented .library "logs").run [.poll, .change terminated]
    SpreadDocument (h.disk.content "logs/a.log") ∧
      Growing "logs" documented [.poll, .change terminated] ∧
      ((fresh .library "logs").load h.disk).1.errors.map (fun e => (e.file, e.line)) = [] ∧
      ((h.store.poll h.disk).1.flush h.disk).1.errors.map (fun e => (e.file, e.line)) =
        [("logs/a.log", none)] := by
  intro h
  exact ⟨by decide +kernel, ⟨by decide +kernel, trivial⟩, by decide +kernel, by decide +kernel⟩

end Store
end TraceAudit
