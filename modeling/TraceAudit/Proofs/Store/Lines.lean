import TraceAudit.Store.Scan
import TraceAudit.Proofs.Json.Blank

/-!
# Lines of a growing file

Cutting octets into lines, and reading the lines, commutes with cutting the octets in two, as long
as the first piece ends between values:

* `Scan.splitLines_append` and `Scan.allLines_append` cut two pieces one after the other;
* `Scan.Cuttable` says that no line holds a value before its end, apart from white space;
* `Scan.entries_append` reads two pieces of such octets one after the other, when the first one
  ends in a blank or complete line, `Scan.IsSettled`.

A fault is told with its place in the octets that were looked at, so entries are compared up to the
fault, `Entry.plain`.
-/

namespace TraceAudit

/-- The entry without what is said about the fault of broken octets. -/
def Entry.plain : Entry → Entry
  | .value line json => .value line json
  | .broken line _ => .broken line default

namespace Scan

/-! ## Cutting into lines -/

/-- All lines of a file: those that end with a line feed, and what follows the last of them. -/
def allLines (bytes : Bytes) : List Bytes := (splitLines bytes).1 ++ [(splitLines bytes).2]

theorem splitLines_append (a b : Bytes) :
    splitLines (a ++ b) =
      match (splitLines b).1 with
      | [] => ((splitLines a).1, (splitLines a).2 ++ (splitLines b).2)
      | first :: more =>
        ((splitLines a).1 ++ ((splitLines a).2 ++ first) :: more, (splitLines b).2) := by
  induction a with
  | nil =>
    cases hb : splitLines b with
    | mk lines last =>
      cases lines <;> simp [splitLines, hb]
  | cons x rest ih =>
    rw [List.cons_append, splitLines, ih, splitLines]
    by_cases hx : x = 0x0A
    · cases (splitLines b).1 <;> simp [hx]
    · cases (splitLines b).1 <;> cases hrest : (splitLines rest).1 <;> simp [hx, hrest]

theorem allLines_append (a b : Bytes) :
    allLines (a ++ b) = (splitLines a).1 ++ (allLines b).modifyHead ((splitLines a).2 ++ ·) := by
  rw [allLines, allLines, splitLines_append]
  cases (splitLines b).1 <;> simp

theorem allLines_cons (x : UInt8) (rest : Bytes) :
    allLines (x :: rest) =
      if x = 0x0A then [] :: allLines rest else (allLines rest).modifyHead (x :: ·) := by
  rw [show x :: rest = [x] ++ rest from rfl, allLines_append]
  by_cases hx : x = 0x0A
  · cases allLines rest <;> simp [splitLines, hx]
  · simp [splitLines, hx]

theorem exists_allLines (bytes : Bytes) : ∃ first more, allLines bytes = first :: more := by
  rw [allLines]
  cases (splitLines bytes).1 with
  | nil => exact ⟨_, _, rfl⟩
  | cons first more => exact ⟨_, _, rfl⟩

/-- The number of line feeds adds up. -/
theorem splitLines_append_length (a b : Bytes) :
    (splitLines (a ++ b)).1.length = (splitLines a).1.length + (splitLines b).1.length := by
  rw [splitLines_append]
  cases h : (splitLines b).1 <;> simp

/-- Octets without line feed are one line. -/
theorem splitLines_of_fst_eq_nil {bytes : Bytes} (h : (splitLines bytes).1 = []) :
    (splitLines bytes).2 = bytes := by
  induction bytes with
  | nil => rfl
  | cons x rest ih =>
    by_cases hx : x = 0x0A
    · simp [splitLines, hx] at h
    · cases hrest : (splitLines rest).1 with
      | nil => simp [splitLines, hx, hrest, ih hrest]
      | cons line lines => simp [splitLines, hx, hrest] at h

/-- What follows the last line feed is the end of the octets. -/
theorem splitLines_body (bytes : Bytes) :
    ∃ body, bytes = body ++ (splitLines bytes).2 ∧
      splitLines body = ((splitLines bytes).1, []) := by
  induction bytes with
  | nil =>
    exact ⟨[], rfl, rfl⟩
  | cons x rest ih =>
    rcases ih with ⟨body, hrest, hbody⟩
    by_cases hx : x = 0x0A
    · refine ⟨x :: body, ?_, ?_⟩
      · simpa [splitLines, hx] using hrest
      · simp [splitLines, hx, hbody]
    · cases hlines : (splitLines rest).1 with
      | nil =>
        -- No line feed follows, so nothing comes before the unfinished line.
        refine ⟨[], ?_, ?_⟩
        · have hempty : body = [] := by
            cases body with
            | nil => rfl
            | cons y more =>
              by_cases hy : y = 0x0A
              · simp [splitLines, hy, hlines] at hbody
              · cases hmore : (splitLines more).1 <;> simp [splitLines, hy, hlines, hmore] at hbody
          simpa [splitLines, hx, hlines, hempty] using hrest
        · simp [splitLines, hx, hlines]
      | cons line lines =>
        refine ⟨x :: body, ?_, ?_⟩
        · simpa [splitLines, hx, hlines] using hrest
        · simp [splitLines, hx, hlines, hbody]

/-! ## Entries of lines -/

theorem lineEntries_append (number : Nat) (xs ys : List Bytes) :
    lineEntries number (xs ++ ys) =
      lineEntries number xs ++ lineEntries (number + xs.length) ys := by
  induction xs generalizing number with
  | nil => rfl
  | cons x xs ih =>
    rw [List.cons_append, lineEntries, lineEntries, ih, List.append_assoc, List.length_cons,
      Nat.add_assoc, Nat.add_comm 1]

/-- The entries of octets whose first line has the number `number`. -/
def entries (number : Nat) (bytes : Bytes) : List Entry := lineEntries number (allLines bytes)

theorem entries_eq (number : Nat) (bytes : Bytes) :
    entries number bytes =
      lineEntries number (splitLines bytes).1 ++
        (lineEntry (number + (splitLines bytes).1.length) (splitLines bytes).2).toList := by
  rw [entries, allLines, lineEntries_append]
  simp [lineEntries]

theorem lineEntry_of_isBlank {line : Bytes} (h : isBlank line = true) (number : Nat) :
    lineEntry number line = none := by
  simp [lineEntry, h]

/-- The line is blank or a complete value: nothing in it waits for more. -/
def IsSettled (line : Bytes) : Prop := isBlank line = true ∨ (Json.ofBytes? line).isSome = true

theorem lineEntry_of_settled {line : Bytes} (h : IsSettled line) (number : Nat) :
    lineEntry number line = none ∨
      ∃ json, lineEntry number line = some (.value (some number) json) := by
  by_cases hblank : isBlank line = true
  · exact Or.inl (lineEntry_of_isBlank hblank number)
  · rcases Option.isSome_iff_exists.1 (h.resolve_left hblank) with ⟨json, hjson⟩
    exact Or.inr ⟨json, by rw [lineEntry, if_neg hblank, Json.ofBytes, hjson]⟩

theorem lineEntry_of_not_settled {line : Bytes} (h : ¬IsSettled line) (number : Nat) :
    lineEntry number line = some (.broken (some number) (JsonFault.find line)) := by
  have hblank : ¬isBlank line = true := fun hblank => h (Or.inl hblank)
  have hnone : Json.ofBytes? line = none := by
    cases hjson : Json.ofBytes? line with
    | none => rfl
    | some json => exact absurd (Or.inr (by rw [hjson]; rfl)) h
  rw [lineEntry, if_neg hblank, Json.ofBytes, hnone]

/-- Wherever the octets are cut, what is behind a value on its line is white space. -/
structure Cuttable (bytes : Bytes) : Prop where
  noFormFeed : 0x0C ∉ bytes
  noEarlyValue : ∀ line ∈ allLines bytes, ∀ early rest, line = early ++ rest →
    (Json.ofBytes? early).isSome = true → rest.all Json.isBlankOctet = true

theorem cuttable_iff {bytes : Bytes} :
    Cuttable bytes ↔ 0x0C ∉ bytes ∧ ∀ line ∈ allLines bytes, ∀ n ∈ List.range (line.length + 1),
      (Json.ofBytes? (line.take n)).isSome = true →
        (line.drop n).all Json.isBlankOctet = true := by
  constructor
  · intro h
    exact ⟨h.noFormFeed, fun line hline n _ =>
      h.noEarlyValue line hline (line.take n) (line.drop n) (List.take_append_drop n line).symm⟩
  · rintro ⟨hfeed, hcuts⟩
    refine ⟨hfeed, fun line hline early rest hsplit hvalue => ?_⟩
    have hmem : early.length ∈ List.range (line.length + 1) := by
      rw [hsplit, List.length_append, List.mem_range]
      omega
    have htake : line.take early.length = early := by rw [hsplit, List.take_left]
    have hdrop : line.drop early.length = rest := by rw [hsplit, List.drop_left]
    have hcut := hcuts line hline early.length hmem
    rw [htake, hdrop] at hcut
    exact hcut hvalue

instance (bytes : Bytes) : Decidable (Cuttable bytes) := decidable_of_iff' _ cuttable_iff

/-- Octets without form feed that are blank are white space of JSON texts. -/
theorem isBlankOctet_of_isBlank {bytes : Bytes} (hfeed : 0x0C ∉ bytes)
    (hblank : isBlank bytes = true) : bytes.all Json.isBlankOctet = true := by
  apply List.all_eq_true.2
  intro b hb
  have hascii : Text.isAsciiBlank b = true := List.all_eq_true.1 hblank b hb
  have hne : b ≠ 0x0C := fun h => hfeed (h ▸ hb)
  simp only [Text.isAsciiBlank, Json.isBlankOctet, Bool.or_eq_true, beq_iff_eq] at hascii ⊢
  grind

theorem isBlank_of_isBlankOctet {bytes : Bytes} (h : bytes.all Json.isBlankOctet = true) :
    isBlank bytes = true := by
  apply List.all_eq_true.2
  intro b hb
  have hb' : Json.isBlankOctet b = true := List.all_eq_true.1 h b hb
  simp only [Text.isAsciiBlank, Json.isBlankOctet, Bool.or_eq_true, beq_iff_eq] at hb' ⊢
  grind

theorem isBlank_append (a b : Bytes) : isBlank (a ++ b) = (isBlank a && isBlank b) := by
  simp [isBlank]

/-- Blank octets in front of a JSON text are white space of JSON texts. -/
theorem isBlankOctet_of_value {blank bytes : Bytes} (hblank : isBlank blank = true)
    (h : (Json.ofBytes? (blank ++ bytes)).isSome = true) :
    blank.all Json.isBlankOctet = true := by
  induction blank with
  | nil => rfl
  | cons b rest ih =>
    have hsplit : Text.isAsciiBlank b = true ∧ isBlank rest = true := by
      simpa [isBlank] using hblank
    have hfeed : b ≠ 0x0C := by
      rintro rfl
      have hnone := Json.ofBytes?_formFeed (rest ++ bytes)
      rw [List.cons_append, hnone] at h
      cases h
    have hb : [b].all Json.isBlankOctet = true := by
      refine isBlankOctet_of_isBlank (fun hmem => hfeed (List.mem_singleton.1 hmem).symm) ?_
      simp [isBlank, hsplit.1]
    have hdrop : Json.ofBytes? (b :: (rest ++ bytes)) = Json.ofBytes? (rest ++ bytes) :=
      Json.ofBytes?_blank_append hb (rest ++ bytes)
    rw [List.cons_append, hdrop] at h
    have hrest := ih hsplit.2 h
    rw [List.all_cons, hrest, Bool.and_true]
    simpa using hb

/-- No white space in front makes a text of octets that are none. -/
theorem ofBytes?_ascii_blank_append {lead line : Bytes} (hlead : isBlank lead = true)
    (h : Json.ofBytes? line = none) : Json.ofBytes? (lead ++ line) = none := by
  cases hjson : Json.ofBytes? (lead ++ line) with
  | none => rfl
  | some json =>
    have hspace := isBlankOctet_of_value hlead (by rw [hjson]; rfl)
    rw [Json.ofBytes?_blank_append hspace, h] at hjson
    cases hjson

theorem ofBytes?_of_isBlank {line : Bytes} (h : isBlank line = true) :
    Json.ofBytes? line = none := by
  have hempty : Json.ofBytes? ([] : Bytes) = none := rfl
  simpa using ofBytes?_ascii_blank_append h hempty

/-- White space in front of a line changes at most the place of a fault. -/
theorem lineEntry_blank_append {blank : Bytes} (h : blank.all Json.isBlankOctet = true)
    (number : Nat) (line : Bytes) :
    (lineEntry number (blank ++ line)).map Entry.plain =
      (lineEntry number line).map Entry.plain := by
  rw [lineEntry, lineEntry, isBlank_append, isBlank_of_isBlankOctet h, Bool.true_and, Json.ofBytes,
    Json.ofBytes, Json.ofBytes?_blank_append h]
  cases isBlank line <;> cases Json.ofBytes? line <;> rfl

/-- White space behind a complete line changes nothing. -/
theorem lineEntry_append_blank {blank line : Bytes} (h : blank.all Json.isBlankOctet = true)
    (hvalue : (Json.ofBytes? line).isSome = true) (hline : isBlank line = false) (number : Nat) :
    lineEntry number (line ++ blank) = lineEntry number line := by
  rcases Option.isSome_iff_exists.1 hvalue with ⟨json, hjson⟩
  rw [lineEntry, lineEntry, isBlank_append, hline, Bool.false_and, Json.ofBytes, Json.ofBytes,
    Json.ofBytes?_append_blank h hjson, hjson]

/-! ## Reading piece by piece -/

theorem mem_of_mem_allLines {bytes line : Bytes} (h : line ∈ allLines bytes) :
    ∀ b ∈ line, b ∈ bytes := by
  induction bytes generalizing line with
  | nil =>
    intro b hb
    simp [allLines, splitLines] at h
    simp [h] at hb
  | cons x rest ih =>
    intro b hb
    rw [allLines_cons] at h
    by_cases hx : x = 0x0A
    · rw [if_pos hx] at h
      rcases List.mem_cons.1 h with rfl | h
      · cases hb
      · exact List.mem_cons_of_mem x (ih h b hb)
    · rw [if_neg hx] at h
      -- The octet joins the first line of the others.
      cases hrest : allLines rest with
      | nil =>
        simp [hrest] at h
      | cons first more =>
        rw [hrest, List.modifyHead_cons] at h
        rcases List.mem_cons.1 h with rfl | h
        · rcases List.mem_cons.1 hb with rfl | hb
          · exact List.mem_cons_self
          · exact List.mem_cons_of_mem x (ih (by simp [hrest]) b hb)
        · exact List.mem_cons_of_mem x (ih (by simp [hrest, h]) b hb)

theorem isBlank_of_mem_allLines {bytes line : Bytes} (h : isBlank bytes = true)
    (hline : line ∈ allLines bytes) : isBlank line = true :=
  List.all_eq_true.2 fun b hb => List.all_eq_true.1 h b (mem_of_mem_allLines hline b hb)

theorem last_mem_allLines (bytes : Bytes) : (splitLines bytes).2 ∈ allLines bytes := by
  simp [allLines]

/-- The line across a cut: the unfinished line of the first piece and the first line of the
second. -/
theorem joined_mem_allLines {a b first : Bytes} {more : List Bytes}
    (h : allLines b = first :: more) : (splitLines a).2 ++ first ∈ allLines (a ++ b) := by
  simp [allLines_append, h]

theorem Cuttable.of_append {a b : Bytes} (h : Cuttable (a ++ b)) : Cuttable a := by
  refine ⟨fun hmem => h.noFormFeed (List.mem_append_left b hmem), ?_⟩
  intro line hline early rest heq hearly
  rcases exists_allLines b with ⟨first, more, hb⟩
  rcases List.mem_append.1 hline with hline | hline
  · exact h.noEarlyValue line (by simp [allLines_append, hline]) early rest heq hearly
  · -- The line goes on behind the cut, so its rest is a piece of a longer one.
    have hlast : line = (splitLines a).2 := by simpa using hline
    have hrest := h.noEarlyValue _ (joined_mem_allLines hb) early (rest ++ first)
      (by rw [← hlast, heq, List.append_assoc]) hearly
    rw [List.all_append, Bool.and_eq_true] at hrest
    exact hrest.1

/-- A blank end in front of a cut is white space of JSON texts. -/
theorem Cuttable.last_space {a b : Bytes} (cuttable : Cuttable (a ++ b))
    (hblank : isBlank (splitLines a).2 = true) :
    (splitLines a).2.all Json.isBlankOctet = true := by
  have hfeed : 0x0C ∉ (splitLines a).2 := fun hmem =>
    cuttable.of_append.noFormFeed (mem_of_mem_allLines (last_mem_allLines a) _ hmem)
  exact isBlankOctet_of_isBlank hfeed hblank

/-- What follows a settled end on its line adds its own entry, or is white space. -/
theorem lineEntry_append {a b first : Bytes} {more : List Bytes} (cuttable : Cuttable (a ++ b))
    (settled : IsSettled (splitLines a).2) (h : allLines b = first :: more) (number : Nat) :
    (lineEntry number ((splitLines a).2 ++ first)).toList.map Entry.plain =
      (lineEntry number (splitLines a).2).toList.map Entry.plain ++
        (lineEntry number first).toList.map Entry.plain := by
  by_cases hblank : isBlank (splitLines a).2 = true
  · -- The line starts behind the cut.
    have hjoin := lineEntry_blank_append (cuttable.last_space hblank) number first
    rw [lineEntry_of_isBlank hblank]
    simpa [← Option.toList_map] using congrArg Option.toList hjoin
  · -- The line is complete at the cut.
    have hvalue : (Json.ofBytes? (splitLines a).2).isSome = true := settled.resolve_left hblank
    have hrest := cuttable.noEarlyValue _ (joined_mem_allLines h) _ _ rfl hvalue
    rw [lineEntry_append_blank hrest hvalue (by simpa using hblank),
      lineEntry_of_isBlank (isBlank_of_isBlankOctet hrest)]
    simp

/-- Octets are read one piece after the other when the first piece ends in a settled line. -/
theorem entries_append {a b : Bytes} (cuttable : Cuttable (a ++ b))
    (settled : IsSettled (splitLines a).2) (number : Nat) :
    (entries number (a ++ b)).map Entry.plain =
      (entries number a ++ entries (number + (splitLines a).1.length) b).map Entry.plain := by
  rcases exists_allLines b with ⟨first, more, hb⟩
  have hjoin := lineEntry_append cuttable settled hb (number + (splitLines a).1.length)
  rw [entries, allLines_append, lineEntries_append, hb, List.modifyHead_cons, entries_eq, entries,
    hb, lineEntries, lineEntries]
  simp [hjoin]

theorem isSettled_append {a b : Bytes} (cuttable : Cuttable (a ++ b))
    (ha : IsSettled (splitLines a).2) (hb : IsSettled (splitLines b).2) :
    IsSettled (splitLines (a ++ b)).2 := by
  rw [splitLines_append]
  cases hlines : (splitLines b).1 with
  | cons first more =>
    exact hb
  | nil =>
    -- The second piece only goes on with the line, which stays settled.
    have hall : allLines b = [(splitLines b).2] := by simp [allLines, hlines]
    by_cases hblank : isBlank (splitLines a).2 = true
    · have hspace := cuttable.last_space hblank
      rcases hb with hb | hb
      · exact Or.inl (by rw [isBlank_append, hblank, hb]; rfl)
      · exact Or.inr (by rw [Json.ofBytes?_blank_append hspace]; exact hb)
    · have hvalue : (Json.ofBytes? (splitLines a).2).isSome = true := ha.resolve_left hblank
      have hrest := cuttable.noEarlyValue _ (joined_mem_allLines hall) _ _ rfl hvalue
      rcases Option.isSome_iff_exists.1 hvalue with ⟨json, hjson⟩
      exact Or.inr (by rw [Json.ofBytes?_append_blank hrest hjson]; rfl)

end Scan
end TraceAudit
