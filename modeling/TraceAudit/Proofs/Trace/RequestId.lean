import Mathlib.Data.List.Basic
import TraceAudit.Trace.RequestId

/-!
# Request ids in user agents

A user agent may hold any text around a request id, and the letters of the marker may occur in it
without marking an id.

* `RequestId.Reads` is a way to read an id out of a text, at any of its places;
* `RequestId.scan_eq_some` and `RequestId.scan_eq_none`: a scan gives the first reading, and nothing
  only where there is none;
* `RequestId.ofUserAgent?_exact` says so of user agents, and that neither what stands in front of a
  marked id nor what follows it changes what is read.
-/

namespace TraceAudit.RequestId

/-- The character, if there is one, does not belong to a token. -/
def Apart (c : Option Char) : Prop := c.any Text.isAlphanumeric = false

/-- An id stands behind a marker, between `front` and `back`, in a text that follows the character
`previous`. The marker starts a token and the id ends it. -/
structure Reads (previous : Option Char) (text front id back : List Char) : Prop where
  text_eq : text = front ++ (marker ++ (id ++ back))
  starts : Apart (front.getLast?.or previous)
  nonempty : id ≠ []
  idChars : ∀ c ∈ id, isIdChar c = true
  ends : Apart back.head?

/-! ## At one place -/

theorem isAlphanumeric_of_isIdChar {c : Char} (h : isIdChar c = true) :
    Text.isAlphanumeric c = true := by
  simp only [isIdChar, Text.isUpper, Bool.or_eq_true] at h
  rcases h with hupper | hdigit
  · simp only [Text.isAlphanumeric, Text.isAsciiLetter, hupper, Bool.or_true, Bool.true_or]
  · simp only [Text.isAlphanumeric, hdigit, Bool.or_true]

/-- What is taken right behind a marker is the whole of the token. -/
theorem idAt?_eq_some {after id : List Char} :
    idAt? after = some id ↔
      id ≠ [] ∧ (∀ c ∈ id, isIdChar c = true) ∧ ∃ back, after = id ++ back ∧ Apart back.head? := by
  constructor
  · intro h
    simp only [idAt?] at h
    split at h
    · rename_i htoken
      cases h
      refine ⟨htoken.1, List.all_eq_true.1 htoken.2, after.dropWhile Text.isAlphanumeric,
        List.takeWhile_append_dropWhile.symm, ?_⟩
      have hstops := List.head?_dropWhile_not Text.isAlphanumeric after
      cases hback : (after.dropWhile Text.isAlphanumeric).head? with
      | none => rfl
      | some c => simpa [hback, Apart] using hstops
    · cases h
  · rintro ⟨hne, hchars, back, rfl, hapart⟩
    have htoken : (id ++ back).takeWhile Text.isAlphanumeric = id := by
      rw [List.takeWhile_append_of_pos fun c hc => isAlphanumeric_of_isIdChar (hchars c hc)]
      cases back with
      | nil => simp
      | cons c rest =>
        have hc : Text.isAlphanumeric c = false := hapart
        simp [hc]
    have hall : id.all isIdChar = true := List.all_eq_true.2 hchars
    simp [idAt?, htoken, hne, hall]

/-- The id that a scan takes at the start of a text. -/
def here (previous : Option Char) (text : List Char) : Option (List Char) :=
  if previous.any Text.isAlphanumeric then none else (marker.isPrefixOf? text).bind idAt?

theorem scan_cons (previous : Option Char) (c : Char) (rest : List Char) :
    scan previous (c :: rest) = (here previous (c :: rest)).or (scan (some c) rest) := rfl

theorem here_eq_some {previous : Option Char} {text id : List Char} :
    here previous text = some id ↔ ∃ back, Reads previous text [] id back := by
  simp only [here]
  split
  · rename_i hprevious
    refine ⟨nofun, fun ⟨back, hreads⟩ => ?_⟩
    have happart : previous.any Text.isAlphanumeric = false := hreads.starts
    rw [hprevious] at happart
    cases happart
  · rename_i hprevious
    constructor
    · intro h
      rcases Option.bind_eq_some_iff.1 h with ⟨after, hafter, hid⟩
      rcases idAt?_eq_some.1 hid with ⟨hne, hchars, back, rfl, hapart⟩
      have htext := List.isPrefixOf?_eq_some_iff_append_eq.1 hafter
      exact ⟨back, htext.symm, by simpa [Apart] using hprevious, hne, hchars, hapart⟩
    · rintro ⟨back, hreads⟩
      have hid : idAt? (id ++ back) = some id :=
        idAt?_eq_some.2 ⟨hreads.nonempty, hreads.idChars, back, rfl, hreads.ends⟩
      have htext : marker ++ (id ++ back) = text := hreads.text_eq.symm
      have hafter := List.isPrefixOf?_eq_some_iff_append_eq.2 htext
      exact Option.bind_eq_some_iff.2 ⟨id ++ back, hafter, hid⟩

/-! ## From one place to the next -/

/-- A reading stands at the start of a text or in the rest of it. -/
theorem reads_cons {previous : Option Char} {c : Char} {rest front id back : List Char} :
    Reads previous (c :: rest) front id back ↔
      (front = [] ∧ Reads previous (c :: rest) [] id back) ∨
        ∃ front', front = c :: front' ∧ Reads (some c) rest front' id back := by
  have hlast : ∀ front' : List Char,
      (c :: front').getLast?.or previous = front'.getLast?.or (some c) := by
    intro front'
    cases front' <;> simp [List.getLast?_cons]
  constructor
  · intro h
    cases front with
    | nil => exact Or.inl ⟨rfl, h⟩
    | cons d front' =>
      have htext := h.text_eq
      rw [List.cons_append, List.cons.injEq] at htext
      rcases htext with ⟨rfl, hrest⟩
      have hstarts := h.starts
      rw [hlast] at hstarts
      exact Or.inr ⟨front', rfl, hrest, hstarts, h.nonempty, h.idChars, h.ends⟩
  · rintro (⟨rfl, h⟩ | ⟨front', rfl, h⟩)
    · exact h
    · refine ⟨?_, ?_, h.nonempty, h.idChars, h.ends⟩
      · rw [h.text_eq, List.cons_append]
      · rw [hlast]
        exact h.starts

/-- No other reading of the text has less in front of it. -/
def IsFirst (previous : Option Char) (text front : List Char) : Prop :=
  ∀ front' id' back', Reads previous text front' id' back' → front.length ≤ front'.length

theorem scan_eq_none {previous : Option Char} {text : List Char} :
    scan previous text = none ↔ ∀ front id back, ¬Reads previous text front id back := by
  induction text generalizing previous with
  | nil =>
    refine ⟨fun _ front id back h => ?_, fun _ => rfl⟩
    have htext := h.text_eq
    simp [marker] at htext
  | cons c rest ih =>
    rw [scan_cons, Option.or_eq_none_iff, ih]
    constructor
    · rintro ⟨hhere, hrest⟩ front id back h
      rcases reads_cons.1 h with ⟨-, h⟩ | ⟨front', -, h⟩
      · have hid := here_eq_some.2 ⟨back, h⟩
        rw [hhere] at hid
        cases hid
      · exact hrest front' id back h
    · intro h
      constructor
      · cases hhere : here previous (c :: rest) with
        | none => rfl
        | some id =>
          rcases here_eq_some.1 hhere with ⟨back, hreads⟩
          exact absurd hreads (h [] id back)
      · exact fun front id back hreads =>
          h (c :: front) id back (reads_cons.2 (Or.inr ⟨front, rfl, hreads⟩))

/-- A scan stops at the first reading. -/
theorem first_of_scan {previous : Option Char} {text id : List Char}
    (h : scan previous text = some id) :
    ∃ front back, Reads previous text front id back ∧ IsFirst previous text front := by
  induction text generalizing previous with
  | nil => cases h
  | cons c rest ih =>
    rw [scan_cons] at h
    cases hhere : here previous (c :: rest) with
    | some found =>
      rw [hhere] at h
      cases h
      rcases here_eq_some.1 hhere with ⟨back, hreads⟩
      exact ⟨[], back, hreads, fun _ _ _ _ => Nat.zero_le _⟩
    | none =>
      rw [hhere] at h
      rcases ih h with ⟨front, back, hreads, hfirst⟩
      refine ⟨c :: front, back, reads_cons.2 (Or.inr ⟨front, rfl, hreads⟩), ?_⟩
      -- Nothing is read at the start, so every other reading stands in the rest too.
      intro front' id' back' hreads'
      rcases reads_cons.1 hreads' with ⟨-, hstart⟩ | ⟨later, rfl, hlater⟩
      · have hid := here_eq_some.2 ⟨back', hstart⟩
        rw [hhere] at hid
        cases hid
      · exact Nat.succ_le_succ (hfirst later id' back' hlater)

/-- Readings with as much in front of them are the same. -/
theorem Reads.id_eq {previous : Option Char} {text front front' id id' back back' : List Char}
    (h : Reads previous text front id back) (h' : Reads previous text front' id' back')
    (hlength : front.length = front'.length) : id = id' := by
  have hsame := h.text_eq.symm.trans h'.text_eq
  have hafter : id ++ back = id' ++ back' :=
    List.append_cancel_left (List.append_inj hsame hlength).2
  have hid := idAt?_eq_some.2 ⟨h.nonempty, h.idChars, back, rfl, h.ends⟩
  have hid' := idAt?_eq_some.2 ⟨h'.nonempty, h'.idChars, back', rfl, h'.ends⟩
  rw [hafter, hid'] at hid
  exact (Option.some.inj hid).symm

theorem scan_eq_some {previous : Option Char} {text id : List Char} :
    scan previous text = some id ↔
      ∃ front back, Reads previous text front id back ∧ IsFirst previous text front := by
  refine ⟨first_of_scan, ?_⟩
  rintro ⟨front, back, hreads, hfirst⟩
  cases hscan : scan previous text with
  | none => exact absurd hreads (scan_eq_none.1 hscan front id back)
  | some found =>
    rcases first_of_scan hscan with ⟨front', back', hreads', hfirst'⟩
    have hlength : front.length = front'.length :=
      Nat.le_antisymm (hfirst front' found back' hreads') (hfirst' front id back hreads)
    rw [hreads.id_eq hreads' hlength]

/-! ## Around a marked id -/

/-- A text that does not have the character `x` behind `c` ends before that character. -/
theorem exists_between {a b c rest : List Char} {x : Char} (h : a ++ b = c ++ x :: rest)
    (hnot : ∀ piece, a = c ++ piece → x ∉ piece) : ∃ e, c = a ++ e ∧ b = e ++ x :: rest := by
  rcases List.append_eq_append_iff.1 h with ⟨e, hc, hb⟩ | ⟨piece, ha, hrest⟩
  · exact ⟨e, hc, hb⟩
  · cases piece with
    | nil => exact ⟨[], by simpa using ha.symm, by simpa using hrest.symm⟩
    | cons y piece =>
      rw [List.cons_append, List.cons.injEq] at hrest
      exact absurd (hrest.1 ▸ List.mem_cons_self) (hnot _ ha)

/-- Of two markers in a text, the first one ends before the second one starts, and so does the id
behind it. -/
theorem Reads.before {previous : Option Char} {text front front' id id' back back' : List Char}
    (h : Reads previous text front id back) (h' : Reads previous text front' id' back')
    (hlength : front'.length < front.length) :
    ∃ between, front = front' ++ (marker ++ (id' ++ between)) ∧
      back' = between ++ (marker ++ (id ++ back)) := by
  have hsame : front' ++ (marker ++ (id' ++ back')) = front ++ (marker ++ (id ++ back)) :=
    h'.text_eq.symm.trans h.text_eq
  rcases List.append_eq_append_iff.1 hsame with ⟨piece, hfront, hpiece⟩ | ⟨piece, hfront', -⟩
  · have hne : piece ≠ [] := by
      rintro rfl
      simp [hfront] at hlength
    -- The first letter of the marker occurs neither in the rest of it nor in an id.
    have hmarker : ∀ rest, marker = piece ++ rest → 'r' ∉ rest := by
      intro rest hrest hmem
      cases piece with
      | nil => exact hne rfl
      | cons c piece =>
        have htail : ['i', 'd', '/'] = piece ++ rest := (List.cons.inj hrest).2
        have hmem' : 'r' ∈ ['i', 'd', '/'] := htail ▸ List.mem_append_right _ hmem
        exact absurd hmem' (by decide)
    rcases exists_between hpiece hmarker with ⟨after, hafter, hid'⟩
    have hid : ∀ rest, id' = after ++ rest → 'r' ∉ rest := by
      intro rest hrest hmem
      have hchar := h'.idChars 'r' (hrest ▸ List.mem_append_right _ hmem)
      exact absurd hchar (by decide)
    rcases exists_between hid' hid with ⟨between, hbetween, hback'⟩
    exact ⟨between, by rw [hfront, hafter, hbetween], hback'⟩
  · rw [hfront', List.length_append] at hlength
    omega

/-- Where nothing is read in front of a marked id, that id is the first one. -/
theorem isFirst_of_silent {text front id back : List Char} (h : Reads none text front id back)
    (hsilent : scan none front = none) : IsFirst none text front := by
  intro front' id' back' h'
  by_contra hshorter
  rcases h.before h' (Nat.lt_of_not_le hshorter) with ⟨between, hfront, hback'⟩
  cases between with
  | nil =>
    -- The marker would stand right behind the other id, in the middle of a token.
    have hlast : front.getLast? = some (id'.getLast h'.nonempty) := by
      simp [hfront, List.getLast?_append, List.getLast?_eq_some_getLast h'.nonempty]
    have hstarts := h.starts
    rw [hlast] at hstarts
    have hapart : Text.isAlphanumeric (id'.getLast h'.nonempty) = false := hstarts
    have hchar := isAlphanumeric_of_isIdChar (h'.idChars _ (List.getLast_mem h'.nonempty))
    rw [hchar] at hapart
    cases hapart
  | cons c between =>
    -- The other id would be read in `front` alone.
    have hends : Apart (c :: between).head? := by
      have hends' := h'.ends
      rw [hback'] at hends'
      exact hends'
    exact scan_eq_none.1 hsilent front' id' (c :: between)
      ⟨hfront, h'.starts, h'.nonempty, h'.idChars, hends⟩

/-! ## User agents -/

/-- An id of upper-case letters and digits stands behind a marker, between `front` and `back`.
Neither a letter nor a digit stands right in front of the marker or right behind the id. -/
structure Marks (userAgent front id back : String) : Prop where
  text_eq : userAgent = front ++ "rid/" ++ id ++ back
  starts : ∀ c ∈ front.toList.getLast?, Text.isAlphanumeric c = false
  nonempty : id ≠ ""
  idChars : ∀ c ∈ id.toList, isIdChar c = true
  ends : ∀ c ∈ back.toList.head?, Text.isAlphanumeric c = false

theorem apart_iff {c : Option Char} : Apart c ↔ ∀ x ∈ c, Text.isAlphanumeric x = false := by
  cases c <;> simp [Apart]

theorem marks_iff {userAgent front id back : String} :
    Marks userAgent front id back ↔
      Reads none userAgent.toList front.toList id.toList back.toList := by
  have hmarker : "rid/".toList = marker := by decide
  constructor
  · intro h
    refine ⟨?_, ?_, ?_, h.idChars, apart_iff.2 h.ends⟩
    · rw [h.text_eq]
      simp [hmarker]
    · rw [Option.or_none]
      exact apart_iff.2 h.starts
    · simpa using h.nonempty
  · intro h
    refine ⟨?_, ?_, ?_, h.idChars, apart_iff.1 h.ends⟩
    · rw [← String.toList_inj, h.text_eq]
      simp [hmarker]
    · have hstarts := h.starts
      rw [Option.or_none] at hstarts
      exact apart_iff.1 hstarts
    · simpa using h.nonempty

theorem ofUserAgent?_eq_some {userAgent id : String} :
    ofUserAgent? userAgent = some id ↔ scan none userAgent.toList = some id.toList := by
  rw [ofUserAgent?, Option.map_eq_some_iff]
  constructor
  · rintro ⟨found, hfound, rfl⟩
    rw [hfound, String.toList_ofList]
  · exact fun h => ⟨id.toList, h, String.ofList_toList⟩

theorem ofUserAgent?_eq_none {userAgent : String} :
    ofUserAgent? userAgent = none ↔ scan none userAgent.toList = none := by
  rw [ofUserAgent?, Option.map_eq_none_iff]

/-- Readings of the characters are readings of the text. -/
theorem Reads.marks {userAgent : String} {front id back : List Char}
    (h : Reads none userAgent.toList front id back) :
    Marks userAgent (String.ofList front) (String.ofList id) (String.ofList back) :=
  marks_iff.2 (by simpa using h)

/-- In every text, the id that is read stands behind the first marker that marks one, and where no
marker does, none is read. Neither a text in front of a marked id, as long as no id is read in it
alone, nor what follows the id changes what is read. -/
theorem ofUserAgent?_exact (userAgent : String) :
    (∀ id, ofUserAgent? userAgent = some id ↔
      ∃ front back, Marks userAgent front id back ∧
        ∀ front' id' back', Marks userAgent front' id' back' → ¬front'.length < front.length) ∧
    (ofUserAgent? userAgent = none ↔ ¬∃ front id back, Marks userAgent front id back) ∧
    ∀ front id back, Marks userAgent front id back → ofUserAgent? front = none →
      ofUserAgent? userAgent = some id := by
  refine ⟨fun id => ?_, ?_, fun front id back hmarks hsilent => ?_⟩
  · rw [ofUserAgent?_eq_some, scan_eq_some]
    constructor
    · rintro ⟨front, back, hreads, hfirst⟩
      refine ⟨String.ofList front, String.ofList back, by simpa using hreads.marks, ?_⟩
      intro front' id' back' hmarks'
      have hlength := hfirst _ _ _ (marks_iff.1 hmarks')
      simpa [← String.length_toList] using hlength
    · rintro ⟨front, back, hmarks, hfirst⟩
      refine ⟨front.toList, back.toList, marks_iff.1 hmarks, ?_⟩
      intro front' id' back' hreads'
      have hlength := hfirst _ _ _ hreads'.marks
      simpa [← String.length_toList] using hlength
  · rw [ofUserAgent?_eq_none, scan_eq_none]
    constructor
    · rintro hnone ⟨front, id, back, hmarks⟩
      exact hnone _ _ _ (marks_iff.1 hmarks)
    · intro hnone front id back hreads
      exact hnone ⟨_, _, _, hreads.marks⟩
  · have hreads := marks_iff.1 hmarks
    have hfirst := isFirst_of_silent hreads (ofUserAgent?_eq_none.1 hsilent)
    exact ofUserAgent?_eq_some.2 (scan_eq_some.2 ⟨_, _, hreads, hfirst⟩)

/-- The letters of the marker in `hybrid/2.0` do not start a token. -/
theorem ofUserAgent?_exact_hybrid :
    ofUserAgent? "hybrid/2.0 rid/lower (" = none ∧
      Marks "hybrid/2.0 rid/lower (rid/A1-x) rid/B2" "hybrid/2.0 rid/lower (" "A1" "-x) rid/B2" ∧
      ofUserAgent? "hybrid/2.0 rid/lower (rid/A1-x) rid/B2" = some "A1" := by
  have hsilent : ofUserAgent? "hybrid/2.0 rid/lower (" = none := by decide +kernel
  have hmarks : Marks "hybrid/2.0 rid/lower (rid/A1-x) rid/B2" "hybrid/2.0 rid/lower (" "A1"
      "-x) rid/B2" := by
    have hlast : "hybrid/2.0 rid/lower (".toList.getLast? = some '(' := by decide +kernel
    have hnext : "-x) rid/B2".toList.head? = some '-' := by decide +kernel
    refine
      { text_eq := by decide +kernel
        starts := fun c hc => ?_
        nonempty := by decide
        idChars := List.all_eq_true.1 (by decide +kernel)
        ends := fun c hc => ?_ }
    · rw [hlast] at hc
      cases hc
      rfl
    · rw [hnext] at hc
      cases hc
      rfl
  rcases ofUserAgent?_exact "hybrid/2.0 rid/lower (rid/A1-x) rid/B2" with ⟨-, -, hread⟩
  exact ⟨hsilent, hmarks, hread _ _ _ hmarks hsilent⟩

end TraceAudit.RequestId
