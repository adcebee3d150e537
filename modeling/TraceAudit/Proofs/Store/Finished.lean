import TraceAudit.Proofs.Store.Growth

/-!
# Two looks at a finished file

A file that does not change any more is looked at once, and a second time when the first look left
something behind.

* `Scan.fileEntries` is what a finished file holds, in the order of its lines;
* `Scan.isReread` tells the files that the first look takes for a document, and the second one for
  lines;
* `Cursor.looks` says that both looks together give the entries of the file, and that the values
  come from the first one, or from the second one in a file that is read again.
-/

namespace TraceAudit

open Scan

/-- The number of the line that an entry comes from. A document has no other entry. -/
def Entry.place : Entry → Nat
  | .value line _ => line.getD 0
  | .broken line _ => line.getD 0

/-- There is nothing to take from the entry. -/
def Entry.isBroken : Entry → Bool
  | .value _ _ => false
  | .broken _ _ => true

namespace Scan

/-- The file looks like a document and is none, but some line of it is an object. -/
def isReread (bytes : Bytes) : Bool :=
  Layout.detect bytes false = .document && (Json.ofBytes? bytes).isNone && holdsObjectLine bytes

/-- What a finished file holds: one document, or lines. -/
def fileEntries (bytes : Bytes) : List Entry :=
  if Layout.detect bytes false = .document then
    match Json.ofBytes bytes with
    | .ok json => [.value none json]
    | .error fault => if holdsObjectLine bytes then entries 1 bytes else [.broken none fault]
  else entries 1 bytes

/-! ## The order in a file -/

theorem place_lineEntry {number : Nat} {line : Bytes} {e : Entry}
    (h : lineEntry number line = some e) : e.place = number := by
  rw [lineEntry] at h
  split at h
  · cases h
  · split at h
    · cases h
      rfl
    · cases h
      rfl

theorem le_place_lineEntries {number : Nat} {lines : List Bytes} {e : Entry}
    (h : e ∈ lineEntries number lines) : number ≤ e.place := by
  induction lines generalizing number with
  | nil => cases h
  | cons line rest ih =>
    rcases List.mem_append.1 h with hfirst | hrest
    · have hline := place_lineEntry (Option.mem_toList.1 hfirst)
      exact hline.symm.le
    · have hlater := ih hrest
      omega

theorem lineEntries_ordered (number : Nat) (lines : List Bytes) :
    (lineEntries number lines).Pairwise fun a b => a.place < b.place := by
  induction lines generalizing number with
  | nil => exact List.Pairwise.nil
  | cons line rest ih =>
    refine List.pairwise_append.2 ⟨?_, ih (number + 1), ?_⟩
    · cases lineEntry number line with
      | none => exact List.Pairwise.nil
      | some e => exact List.pairwise_singleton _ e
    · intro a ha b hb
      have hline := place_lineEntry (Option.mem_toList.1 ha)
      have hlater := le_place_lineEntries hb
      omega

/-- The entries of a file are in the order of its lines. -/
theorem fileEntries_ordered (bytes : Bytes) :
    (fileEntries bytes).Pairwise fun a b => a.place < b.place := by
  have hlines : (entries 1 bytes).Pairwise fun a b => a.place < b.place :=
    lineEntries_ordered 1 (allLines bytes)
  rw [fileEntries]
  split
  · split
    · exact List.pairwise_singleton _ _
    · split
      · exact hlines
      · exact List.pairwise_singleton _ _
  · exact hlines

/-! ## What the first look leaves -/

/-- The end of the octets behind the last line feed is one line. -/
theorem splitLines_last (bytes : Bytes) :
    splitLines (splitLines bytes).2 = ([], (splitLines bytes).2) := by
  rcases splitLines_body bytes with ⟨body, hbytes, hbody⟩
  have hsplit := splitLines_append body (splitLines bytes).2
  rw [← hbytes, hbody] at hsplit
  cases hlines : (splitLines (splitLines bytes).2).1 with
  | nil =>
    rw [hlines] at hsplit
    have hlast : (splitLines bytes).2 = (splitLines (splitLines bytes).2).2 := by
      simpa using congrArg Prod.snd hsplit
    exact Prod.ext hlines hlast.symm
  | cons first more =>
    -- A line feed behind the last one would end one more line.
    rw [hlines] at hsplit
    have hcount := congrArg (fun split => split.1.length) hsplit
    simp at hcount

theorem holdsObjectLine_iff {bytes : Bytes} :
    holdsObjectLine bytes = true ↔
      ∃ line ∈ allLines bytes, (Json.ofBytes? line).any Json.isObject = true := by
  simp only [holdsObjectLine, allLines, List.any_eq_true]

theorem isBroken_lineEntry {number : Nat} {line : Bytes} {e : Entry}
    (hline : isBlank line = true ∨ Json.ofBytes? line = none)
    (h : lineEntry number line = some e) : e.isBroken = true := by
  rw [lineEntry] at h
  split at h
  · cases h
  · rename_i hblank
    have hnone := hline.resolve_left hblank
    rw [Json.ofBytes, hnone] at h
    cases h
    rfl

theorem isBroken_lineEntries {number : Nat} {lines : List Bytes}
    (hlines : ∀ line ∈ lines, isBlank line = true ∨ Json.ofBytes? line = none) :
    ∀ e ∈ lineEntries number lines, e.isBroken = true := by
  induction lines generalizing number with
  | nil => simp [lineEntries]
  | cons line rest ih =>
    intro e he
    rcases List.mem_append.1 he with hfirst | hrest
    · have hline := hlines line List.mem_cons_self
      exact isBroken_lineEntry hline (Option.mem_toList.1 hfirst)
    · exact ih (fun l hl => hlines l (List.mem_cons_of_mem line hl)) e hrest

theorem lineEntries_of_isBlank {number : Nat} {lines : List Bytes}
    (hlines : ∀ line ∈ lines, isBlank line = true) : lineEntries number lines = [] := by
  induction lines generalizing number with
  | nil => rfl
  | cons line rest ih =>
    have hline := lineEntry_of_isBlank (hlines line List.mem_cons_self) number
    have hrest : lineEntries (number + 1) rest = [] :=
      ih fun l hl => hlines l (List.mem_cons_of_mem line hl)
    rw [lineEntries, hline, hrest]
    rfl

theorem entries_of_isBlank {bytes : Bytes} (h : isBlank bytes = true) (number : Nat) :
    entries number bytes = [] := by
  apply lineEntries_of_isBlank
  intro line hline
  exact isBlank_of_mem_allLines h hline

/-- A file whose layout is not known yet, and that is more than white space, has blank lines and then
one that is no value. -/
theorem unknown_lines {bytes : Bytes} (h : Layout.detect bytes false = .unknown)
    (hbody : bytes.dropWhile Text.isAsciiBlank ≠ []) :
    Layout.detect bytes true = .lines ∧
      ∃ blanks last, allLines bytes = blanks ++ [last] ∧
        (∀ line ∈ blanks, isBlank line = true) ∧ Json.ofBytes? last = none := by
  have hempty : (bytes.dropWhile Text.isAsciiBlank).isEmpty = false := by simpa using hbody
  rw [Layout.detect] at h ⊢
  simp only [hempty, Bool.false_eq_true, if_false] at h ⊢
  -- With a complete first line the layout would be known.
  cases hwhole : (splitLines (bytes.dropWhile Text.isAsciiBlank)).1 with
  | cons first more =>
    simp only [hwhole] at h
    split at h <;> cases h
  | nil =>
    simp only [hwhole] at h
    have hnone : Json.ofBytes? (splitLines (bytes.dropWhile Text.isAsciiBlank)).2 = none := by
      cases hvalue : Json.ofBytes? (splitLines (bytes.dropWhile Text.isAsciiBlank)).2 with
      | none => rfl
      | some json => simp [hvalue] at h
    have hlines : allLines (bytes.dropWhile Text.isAsciiBlank) =
        [(splitLines (bytes.dropWhile Text.isAsciiBlank)).2] := by
      rw [allLines, hwhole, List.nil_append]
    rcases allLines_dropWhile hlines with ⟨blanks, lead, hall, hblanks, hlead, -⟩
    exact ⟨by simp, blanks, _, hall, hblanks, ofBytes?_ascii_blank_append hlead hnone⟩

/-- A file whose layout is not known yet is blank, or has only lines that are blank or no values. -/
theorem unknown_cases {bytes : Bytes} (h : Layout.detect bytes false = .unknown) :
    (isBlank bytes = true ∧ Layout.detect bytes true = .unknown) ∨
      (Layout.detect bytes true = .lines ∧
        ∀ line ∈ allLines bytes, isBlank line = true ∨ Json.ofBytes? line = none) := by
  by_cases hbody : bytes.dropWhile Text.isAsciiBlank = []
  · have hblank : isBlank bytes = true := List.all_eq_true.2 (List.dropWhile_eq_nil_iff.1 hbody)
    exact Or.inl ⟨hblank, by simp [Layout.detect, hbody]⟩
  · rcases unknown_lines h hbody with ⟨hfinal, blanks, last, hlines, hblanks, hnone⟩
    refine Or.inr ⟨hfinal, ?_⟩
    intro line hline
    rw [hlines] at hline
    rcases List.mem_append.1 hline with hline | hline
    · exact Or.inl (hblanks line hline)
    · exact Or.inr (List.mem_singleton.1 hline ▸ hnone)

end Scan

/-! ## Both looks -/

namespace Cursor

/-- The first look at a file. -/
def firstLook (bytes : Bytes) : Cursor × List Entry := start.scan bytes false

/-- What the second look gives, at the octets that the first one left. -/
def secondLook (bytes : Bytes) : List Entry :=
  let c := (firstLook bytes).1
  if c.deferred then (c.scan (bytes.drop c.offset) true).2 else []

/-- What two looks give of a file. -/
structure Looks (bytes : Bytes) : Prop where
  whole : (firstLook bytes).2 ++ secondLook bytes = fileEntries bytes
  reread : isReread bytes = true → (firstLook bytes).1.deferred = true ∧ (firstLook bytes).2 = []
  settled : isReread bytes = false → ∀ e ∈ secondLook bytes, e.isBroken = true

/-- The last look at lines eats them all. -/
theorem scanLines_final (c : Cursor) (bytes : Bytes) :
    (c.scanLines bytes true).2 = entries (c.lines + 1) bytes := by
  rcases scanLines_eaten c bytes true with ⟨eaten, kept, hbytes, hscan, hfinal, -⟩
  rw [hfinal rfl, List.append_nil] at hbytes
  rw [hscan, hbytes]

theorem looks_of_unknown {bytes : Bytes} (h : Layout.detect bytes false = .unknown) :
    Looks bytes := by
  have hnot : isReread bytes = false := by simp [isReread, h]
  have hentries : fileEntries bytes = entries 1 bytes := by simp [fileEntries, h]
  have hfirst : firstLook bytes =
      ({ start with seen := bytes.length, deferred := !bytes.isEmpty }, []) := by
    simp [firstLook, scan, start, h]
  rcases unknown_cases h with ⟨hblank, hfinal⟩ | ⟨hfinal, hlines⟩
  · have hsecond : secondLook bytes = [] := by
      simp [secondLook, hfirst, scan, start, hfinal]
    rw [entries_of_isBlank hblank] at hentries
    refine ⟨by rw [hfirst, hsecond, hentries]; rfl, by simp [hnot], ?_⟩
    simp [hsecond]
  · have hsecond : secondLook bytes = entries 1 bytes := by
      have hne : bytes ≠ [] := by
        rintro rfl
        cases hfinal
      simp [secondLook, hfirst, scan, start, hfinal, hne, scanLines_final]
    refine ⟨by rw [hfirst, hsecond, hentries]; rfl, by simp [hnot], ?_⟩
    rw [hsecond]
    exact fun _ => isBroken_lineEntries hlines

theorem looks_of_document {bytes : Bytes} (h : Layout.detect bytes false = .document) :
    Looks bytes := by
  have hfirst : firstLook bytes =
      scanDocument { start with layout := .document, seen := bytes.length } bytes false := by
    simp [firstLook, scan, start, h]
  cases hvalue : Json.ofBytes? bytes with
  | some json =>
    have hnot : isReread bytes = false := by simp [isReread, hvalue]
    have hread : Json.ofBytes bytes = .ok json := by simp [Json.ofBytes, hvalue]
    have hsecond : secondLook bytes = [] := by simp [secondLook, hfirst, scanDocument, hread]
    refine ⟨?_, by simp [hnot], by simp [hsecond]⟩
    rw [hsecond, hfirst]
    simp [scanDocument, hread, fileEntries, h]
  | none =>
    have hread : Json.ofBytes bytes = .error (JsonFault.find bytes) := by
      simp [Json.ofBytes, hvalue]
    have hfirst' : firstLook bytes =
        ({ start with layout := .document, seen := bytes.length, deferred := true }, []) := by
      simp [hfirst, scanDocument, hread]
    have hsecond : secondLook bytes = fileEntries bytes := by
      cases hobject : holdsObjectLine bytes with
      | true =>
        -- The second look takes the file for lines, from the beginning on.
        simp [secondLook, hfirst', scan, start, scanDocument, hread, fileEntries, h, hobject,
          scanLines_final]
      | false =>
        simp [secondLook, hfirst', scan, start, scanDocument, hread, fileEntries, h, hobject]
    refine ⟨by rw [hfirst', hsecond]; rfl, by rw [hfirst']; simp, fun hnot => ?_⟩
    have hobject : holdsObjectLine bytes = false := by simpa [isReread, h, hvalue] using hnot
    rw [hsecond]
    simp [fileEntries, h, hread, hobject, Entry.isBroken]

theorem looks_of_lines {bytes : Bytes} (h : Layout.detect bytes false = .lines) :
    Looks bytes := by
  have hnot : isReread bytes = false := by simp [isReread, h]
  have hentries : fileEntries bytes = entries 1 bytes := by simp [fileEntries, h]
  have hfirst : firstLook bytes =
      scanLines { start with layout := .lines, seen := bytes.length } bytes false := by
    simp [firstLook, scan, start, h]
  have hnumber : 1 + (splitLines bytes).1.length = (splitLines bytes).1.length + 1 := by omega
  by_cases hlast : IsSettled (splitLines bytes).2
  · -- The first look leaves nothing.
    have hfirst' : (firstLook bytes).1.deferred = false ∧
        (firstLook bytes).2 = entries 1 bytes := by
      rw [hfirst, entries_eq, hnumber]
      rcases lineEntry_of_settled hlast ((splitLines bytes).1.length + 1) with hline | ⟨json, hline⟩
      · simp [scanLines, start, hline]
      · simp [scanLines, start, hline]
    have hsecond : secondLook bytes = [] := by simp [secondLook, hfirst'.1]
    refine ⟨?_, by simp [hnot], by simp [hsecond]⟩
    rw [hsecond, hfirst'.2, hentries, List.append_nil]
  · -- The first look leaves the last line, which is no value.
    rcases splitLines_body bytes with ⟨body, hbytes, -⟩
    have hbroken := lineEntry_of_not_settled hlast ((splitLines bytes).1.length + 1)
    have hfirst' : firstLook bytes =
        (⟨.lines, bytes.length - (splitLines bytes).2.length, (splitLines bytes).1.length, true,
          bytes.length⟩, lineEntries 1 (splitLines bytes).1) := by
      rw [hfirst]
      simp [scanLines, start, hbroken]
    have hdrop : bytes.drop (bytes.length - (splitLines bytes).2.length) = (splitLines bytes).2 := by
      have hlength := congrArg List.length hbytes
      rw [List.length_append] at hlength
      have hbody : bytes.length - (splitLines bytes).2.length = body.length := by omega
      rw [hbody]
      conv => lhs; rw [hbytes]
      exact List.drop_left
    have hsecond : secondLook bytes =
        [.broken (some ((splitLines bytes).1.length + 1)) (JsonFault.find (splitLines bytes).2)] := by
      rw [secondLook, hfirst']
      simp only [if_true, hdrop, scan, reduceCtorEq, if_false]
      rw [scanLines_final, entries_eq, splitLines_last]
      simp [lineEntries, hbroken]
    refine ⟨?_, by simp [hnot], by rw [hsecond]; simp [Entry.isBroken]⟩
    rw [hfirst', hsecond, hentries, entries_eq, hnumber, hbroken]
    rfl

theorem looks (bytes : Bytes) : Looks bytes := by
  cases hlayout : Layout.detect bytes false with
  | unknown => exact looks_of_unknown hlayout
  | lines => exact looks_of_lines hlayout
  | document => exact looks_of_document hlayout

end Cursor
end TraceAudit
