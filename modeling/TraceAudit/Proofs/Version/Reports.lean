import TraceAudit.Proofs.Version.Decoration

/-!
# Reports of components

A component reports its version with a decoration of its own. `Plain` is a version text without
decoration, and `Plain.text` what it looks like:

    version ::= [ "v" ] digits "." digits [ "." digits [ "-" identifiers ] [ "+" identifiers ] ]

* `Decorated` lists what a component reports for a version text;
* `undecorate_decorated` says that of such a report the same is left as of the text itself;
* `decorated_read` says that both are read as the same version, or refused both.

What a decoration brings along is free text. It may hold what looks like another decoration.
-/

namespace TraceAudit
namespace Version

/-! ## Texts without decoration -/

/-- A run of digits, possibly with zeros in front or beyond 64 bits. -/
structure Digits where
  text : String
  isNumber : isNumber text.toList = true

/-- Identifiers of letters, digits and hyphens, with points between them. They may be empty, or have
zeros in front. -/
structure Identifiers where
  text : String
  chars : text.toList.all isIdentifierChar = true

/-- The third number of a version and what stands behind it. -/
structure PlainTail where
  patch : Digits
  pre : Option Identifiers
  build : Option Identifiers

/-- A version text without decoration, possibly behind a `v` and without a third number. -/
structure Plain where
  marked : Bool
  major : Digits
  minor : Digits
  tail : Option PlainTail

def PlainTail.text (p : PlainTail) : String :=
  "." ++ p.patch.text ++ p.pre.elim "" ("-" ++ ·.text) ++ p.build.elim "" ("+" ++ ·.text)

def Plain.text (t : Plain) : String :=
  (if t.marked then "v" else "") ++ (t.major.text ++ "." ++ t.minor.text) ++
    t.tail.elim "" PlainTail.text

theorem Digits.isDigit {d : Digits} {c : Char} (h : c ∈ d.text.toList) :
    Text.isDigit c = true := by
  have hnumber := d.isNumber
  simp only [Version.isNumber, Bool.and_eq_true, List.all_eq_true] at hnumber
  exact hnumber.2 c h

theorem Digits.exists_cons (d : Digits) :
    ∃ c rest, d.text.toList = c :: rest ∧ Text.isDigit c = true := by
  cases htext : d.text.toList with
  | nil =>
    have hnumber := d.isNumber
    rw [htext] at hnumber
    cases hnumber
  | cons c rest => exact ⟨c, rest, rfl, d.isDigit (by simp [htext])⟩

theorem isPrinted_of_all {text : List Char} (h : text.all (fun c => decide (IsPrinted c)) = true) :
    ∀ c ∈ text, IsPrinted c := by
  simpa using h

theorem isPrinted_of_mem_identifiers {mark : Char} (hmark : IsPrinted mark)
    (ids : Option Identifiers) :
    ∀ c ∈ (ids.elim "" (String.singleton mark ++ ·.text)).toList, IsPrinted c := by
  intro c hc
  cases ids with
  | none => cases hc
  | some i =>
    have hparts : c = mark ∨ c ∈ i.text.toList := by
      simpa [String.toList_append] using hc
    rcases hparts with rfl | hmem
    · exact hmark
    · exact isPrinted_of_isIdentifierChar (List.all_eq_true.1 i.chars c hmem)

theorem PlainTail.isPrinted (p : PlainTail) : ∀ c ∈ p.text.toList, IsPrinted c := by
  have hhyphen : IsPrinted '-' := by decide
  have hplus : IsPrinted '+' := by decide
  intro c hc
  simp only [PlainTail.text, String.toList_append, List.mem_append] at hc
  rcases hc with ((hpoint | hpatch) | hpre) | hbuild
  · have hc : c = '.' := by simpa using hpoint
    subst hc
    decide
  · exact isPrinted_of_isDigit (Digits.isDigit hpatch)
  · exact isPrinted_of_mem_identifiers hhyphen p.pre c hpre
  · exact isPrinted_of_mem_identifiers hplus p.build c hbuild

theorem Plain.isPrinted (t : Plain) : ∀ c ∈ t.text.toList, IsPrinted c := by
  intro c hc
  simp only [Plain.text, String.toList_append, List.mem_append] at hc
  rcases hc with (hmark | ((hmajor | hpoint) | hminor)) | htail
  · cases hmarked : t.marked with
    | false =>
      rw [hmarked] at hmark
      cases hmark
    | true =>
      have hc : c = 'v' := by simpa [hmarked] using hmark
      subst hc
      decide
  · exact isPrinted_of_isDigit (Digits.isDigit hmajor)
  · have hc : c = '.' := by simpa using hpoint
    subst hc
    decide
  · exact isPrinted_of_isDigit (Digits.isDigit hminor)
  · cases htext : t.tail with
    | none =>
      rw [htext] at htail
      cases htail
    | some p =>
      rw [htext] at htail
      exact p.isPrinted c htail

/-- The text starts with a digit or with the mark. -/
theorem Plain.head?_text (t : Plain) :
    ∃ c, t.text.toList.head? = some c ∧ (Text.isDigit c = true ∨ c = 'v') := by
  rcases t.major.exists_cons with ⟨d, digits, hdigits, hd⟩
  cases hmarked : t.marked with
  | true => exact ⟨'v', by simp [Plain.text, hmarked], Or.inr rfl⟩
  | false => exact ⟨d, by simp [Plain.text, hmarked, hdigits], Or.inl hd⟩

theorem Plain.head?_ne (t : Plain) {c : Char} (hdigit : Text.isDigit c = false) (hv : c ≠ 'v') :
    t.text.toList.head? ≠ some c := by
  rcases t.head?_text with ⟨d, hhead, hd⟩
  rw [hhead]
  rintro ⟨⟩
  rcases hd with hd | hd
  · rw [hdigit] at hd
    cases hd
  · exact hv hd

theorem Plain.trim_text (t : Plain) : Text.trim t.text.toList = t.text.toList :=
  Text.trim_eq_self fun c hc => isBlank_of_isPrinted (t.isPrinted c hc)

/-! ## Decorated texts -/

/-- A terminal control sequence for a colour. -/
structure Colour where
  codes : String
  chars : codes.toList.all (fun c => Text.isDigit c || c == ';') = true

/-- Control sequences, one behind the other. -/
def coloursText : List Colour → String
  | [] => ""
  | c :: rest => "\x1b[" ++ c.codes ++ "m" ++ coloursText rest

/-- The text between control sequences. -/
def coloured (before : List Colour) (text : String) (after : List Colour) : String :=
  coloursText before ++ text ++ coloursText after

/-- `Decorated text component raw` says that `component` reports `raw` for a version text. -/
inductive Decorated (text : String) : String → String → Prop
  | ddtrace : Decorated text "ruby" ("* ddtrace (" ++ text ++ ")")
  | datadog : Decorated text "ruby" ("* datadog (" ++ text ++ ")")
  | libddwaf : Decorated text "libddwaf" ("* libddwaf (" ++ text ++ ")")
  | revision (x : String) : Decorated text "java" (text ++ "~" ++ x)
  | snapshot : Decorated text "java" (text ++ "-SNAPSHOT")
  | commit (before after : List Colour) (x : String) :
      Decorated text "agent" ("Agent " ++ coloured before text after ++ " - Commit:" ++ " " ++ x)
  | build (before after : List Colour) (x : String) :
      Decorated text "agent" ("Agent " ++ coloured before text after ++ " - Meta:" ++ " " ++ x)
  | nightly : Decorated text "php" (text ++ "-nightly")
  | archive : ¬archive.toList <:+ text.toList →
      Decorated text "dotnet" ("datadog-dotnet-apm-" ++ text ++ archive)

/-! ## Cutting texts -/

section Cutting

variable {pattern : String}

theorem before_append_left {p : Char} {ps front : List Char} (hpattern : pattern.toList = p :: ps)
    (h : p ∉ front) (rest : List Char) :
    before pattern (front ++ rest) = front ++ before pattern rest := by
  rw [before, before, hpattern, Text.cutAt_append_left h]
  cases Text.cutAt (p :: ps) rest <;> rfl

theorem before_cons {c : Char} {rest : List Char} (h : ¬pattern.toList <+: c :: rest) :
    before pattern (c :: rest) = c :: before pattern rest := by
  rw [before, before, Text.cutAt_cons h]
  cases Text.cutAt pattern.toList rest <;> rfl

theorem before_append_self (hne : pattern.toList ≠ []) (rest : List Char) :
    before pattern (pattern.toList ++ rest) = [] := by
  rw [before, Text.cutAt_append_self hne]

theorem after_append_self (hne : pattern.toList ≠ []) (rest : List Char) :
    after pattern (pattern.toList ++ rest) = rest := by
  rw [after, Text.cutAt_append_self hne]

end Cutting

/-! ## Bullets -/

/-- A text in parentheses behind a bullet and a name. -/
def bulleted (name text : List Char) : List Char :=
  '*' :: ' ' :: (name ++ ' ' :: '(' :: (text ++ [')']))

theorem bullet?_bulleted {name : String} {c : Char} (hname : name.toList.head? = some c)
    (hc : Text.isBlank c = false) (text : List Char) :
    bullet? name (bulleted name.toList text) = some text := by
  have htrim : ∀ rest, Text.trimStart (' ' :: (name.toList ++ rest)) = name.toList ++ rest := by
    intro rest
    have hspace : Text.isBlank ' ' = true := rfl
    cases hchars : name.toList with
    | nil =>
      rw [hchars] at hname
      cases hname
    | cons d more =>
      rw [hchars] at hname
      cases hname
      simp [Text.trimStart, hspace, hc]
  have hstart : ∀ rest, name.toList.isPrefixOf? (name.toList ++ rest) = some rest := fun rest =>
    List.isPrefixOf?_eq_some_iff_append_eq.2 rfl
  have hsuffix : [')'].isSuffixOf? (text ++ [')']) = some text :=
    List.isSuffixOf?_eq_some_iff_append_eq.2 rfl
  have hstar : ∀ rest, ['*'].isPrefixOf? ('*' :: rest) = some rest := fun rest => rfl
  have hopen : ∀ rest, ['('].isPrefixOf? (Text.trimStart (' ' :: '(' :: rest)) = some rest :=
    fun rest => rfl
  simp only [bullet?, bulleted, hstar, htrim, hstart, hopen, hsuffix, Option.bind_eq_bind,
    Option.bind_some]

theorem trim_bulleted (name text : List Char) :
    Text.trim (bulleted name text) = bulleted name text := by
  have hlast : (bulleted name text).getLast? = some ')' := by
    have hsuffix : [')'] <:+ bulleted name text :=
      ⟨'*' :: ' ' :: (name ++ ' ' :: '(' :: text), by simp [bulleted]⟩
    exact Text.getLast?_of_suffix hsuffix (by simp)
  refine Text.trim_eq_self_of_ends ?_ ?_
  · rintro c ⟨⟩
    rfl
  · rw [hlast]
    rintro c ⟨⟩
    rfl

theorem undecorate_ddtrace (text : List Char) :
    undecorate "ruby" (bulleted "ddtrace".toList text) = text := by
  rw [undecorate, if_pos rfl, bullet?_bulleted rfl rfl]
  rfl

theorem undecorate_datadog (text : List Char) :
    undecorate "ruby" (bulleted "datadog".toList text) = text := by
  have hother : bullet? "ddtrace" (bulleted "datadog".toList text) = none := rfl
  rw [undecorate, if_pos rfl, hother, bullet?_bulleted rfl rfl]
  rfl

theorem undecorate_libddwaf (text : List Char) :
    undecorate "libddwaf" (bulleted "libddwaf".toList text) = text := by
  rw [undecorate, if_neg (by decide), if_pos rfl, bullet?_bulleted rfl rfl]
  rfl

/-! ## Colours -/

theorem dropColours_inside (c : Char) (rest : List Char) :
    dropColours true (c :: rest) = dropColours (!('@' ≤ c && c ≤ '~')) rest := by
  rw [dropColours.eq_def]
  simp

/-- Inside a sequence, digits and semicolons go on up to the letter at its end. -/
theorem dropColours_codes {codes : List Char}
    (h : codes.all (fun c => Text.isDigit c || c == ';') = true) (rest : List Char) :
    dropColours true (codes ++ 'm' :: rest) = dropColours false rest := by
  induction codes with
  | nil => rfl
  | cons c codes ih =>
    rw [List.all_cons, Bool.and_eq_true] at h
    have hinside : (!('@' ≤ c && c ≤ '~')) = true := by
      rcases Bool.or_eq_true_iff.1 h.1 with hdigit | hsemicolon
      · have hrange := Text.isDigit_iff.1 hdigit
        have hnot : ¬ '@' ≤ c := by
          rw [Text.char_le_iff]
          exact Nat.not_le.2 (Nat.lt_of_le_of_lt hrange.2 (by decide))
        simp [hnot]
      · have hc : c = ';' := by simpa using hsemicolon
        subst hc
        rfl
    rw [List.cons_append, dropColours_inside, hinside]
    exact ih h.2

theorem dropColours_coloursText (colours : List Colour) (rest : List Char) :
    dropColours false ((coloursText colours).toList ++ rest) = dropColours false rest := by
  induction colours with
  | nil => rfl
  | cons c colours ih =>
    calc
      dropColours false ((coloursText (c :: colours)).toList ++ rest)
          = dropColours true (c.codes.toList ++ 'm' :: ((coloursText colours).toList ++ rest)) := by
            simp [coloursText, dropColours]
      _ = dropColours false ((coloursText colours).toList ++ rest) := dropColours_codes c.chars _
      _ = dropColours false rest := ih

theorem dropColours_coloured (t : Plain) (front back : List Colour) :
    dropColours false (coloured front t.text back).toList = t.text.toList := by
  have hback : dropColours false (coloursText back).toList = [] := by
    simpa [dropColours] using dropColours_coloursText back []
  rw [coloured, String.toList_append, String.toList_append, List.append_assoc,
    dropColours_coloursText, dropColours_append t.isPrinted, hback, List.append_nil]

/-! ## Reports of the agent -/

/-- A mark of the agent is not found in front of a text without spaces, nor in the text. -/
theorem before_agent {pattern : String} {more s : List Char}
    (hpattern : pattern.toList = ' ' :: '-' :: more) (hspace : ' ' ∉ s)
    (hhead : ∃ c, s.head? = some c ∧ c ≠ '-') (rest : List Char) :
    before pattern ("Agent ".toList ++ (s ++ rest)) =
      "Agent ".toList ++ (s ++ before pattern rest) := by
  have hsplit : ∀ tail, "Agent ".toList ++ tail = "Agent".toList ++ ' ' :: tail := fun _ => rfl
  have hfollows : ¬pattern.toList <+: ' ' :: (s ++ rest) := by
    rcases hhead with ⟨c, hhead, hc⟩
    cases s with
    | nil => cases hhead
    | cons d s =>
      cases hhead
      rw [hpattern, List.cons_append, List.cons_prefix_cons, List.cons_prefix_cons]
      exact fun hstart => hc hstart.2.1.symm
  have hname : ' ' ∉ "Agent".toList := by decide
  rw [hsplit, hsplit, before_append_left hpattern hname, before_cons hfollows,
    before_append_left hpattern hspace]

/-- What the agent writes before the first of its marks, and what it writes behind it. -/
theorem undecorate_agent {s : List Char} (hspace : ' ' ∉ s)
    (hhead : ∃ c, s.head? = some c ∧ c ≠ '-') {pattern : String}
    (hpattern : pattern = " - Commit" ∨ pattern = " - Meta") (rest : List Char) :
    undecorate "agent" ("Agent ".toList ++ (s ++ (pattern.toList ++ rest))) =
      Text.dropEndWhile isAgentSuffix (dropColours false s) := by
  have hcommit : " - Commit".toList = ' ' :: '-' :: " Commit".toList := rfl
  have hmeta : " - Meta".toList = ' ' :: '-' :: " Meta".toList := rfl
  have hcut : before " - Meta" (before " - Commit"
      ("Agent ".toList ++ (s ++ (pattern.toList ++ rest)))) = "Agent ".toList ++ s := by
    rcases hpattern with rfl | rfl
    · have hnone : before " - Meta" [] = [] := rfl
      have hagain := before_agent hmeta hspace hhead []
      rw [hnone, List.append_nil] at hagain
      rw [before_agent hcommit hspace hhead, before_append_self (by decide), List.append_nil,
        hagain]
    · -- The free text may hold the other mark, which is then cut first.
      have hkept : before " - Commit" (" - Meta".toList ++ rest) =
          " - Meta".toList ++ before " - Commit" rest := by
        have hword : ' ' ∉ "Meta".toList := by decide
        have hsplit : ∀ tail,
            " - Meta".toList ++ tail = ' ' :: '-' :: ' ' :: ("Meta".toList ++ tail) :=
          fun _ => rfl
        rw [hsplit, hsplit, before_cons (by simp), before_cons (by simp), before_cons (by simp),
          before_append_left hcommit hword]
      rw [before_agent hcommit hspace hhead, hkept, before_agent hmeta hspace hhead,
        before_append_self (by decide), List.append_nil]
  have hafter : after "Agent " ("Agent ".toList ++ s) = s := after_append_self (by decide) s
  rw [undecorate, if_neg (by decide), if_neg (by decide), if_pos rfl]
  simp only [hcut, hafter]

theorem notMem_coloursText {colours : List Colour} : ' ' ∉ (coloursText colours).toList := by
  induction colours with
  | nil => simp [coloursText]
  | cons c colours ih =>
    have hcodes : ' ' ∉ c.codes.toList := by
      intro hmem
      have hcode := List.all_eq_true.1 c.chars ' ' hmem
      revert hcode
      decide
    simp [coloursText, hcodes, ih]

theorem notMem_coloured (t : Plain) (front back : List Colour) :
    ' ' ∉ (coloured front t.text back).toList := by
  have htext : ' ' ∉ t.text.toList := by
    intro hmem
    have hprinted := t.isPrinted ' ' hmem
    revert hprinted
    decide
  simp [coloured, String.toList_append, notMem_coloursText, htext]

/-- A coloured text starts with an escape or as the text does. -/
theorem head?_coloured (t : Plain) (front back : List Colour) :
    ∃ c, (coloured front t.text back).toList.head? = some c ∧ c ≠ '-' := by
  cases front with
  | nil =>
    rcases t.head?_text with ⟨c, hhead, hc⟩
    refine ⟨c, by simp [coloured, coloursText, hhead], ?_⟩
    rintro rfl
    rcases hc with hc | hc <;> cases hc
  | cons c front => exact ⟨'\x1b', by simp [coloured, coloursText], by decide⟩

theorem undecorate_trim_agent (t : Plain) (front back : List Colour) {pattern : String}
    (hpattern : pattern = " - Commit" ∨ pattern = " - Meta") (rest : List Char) :
    undecorate "agent" (Text.trim ("Agent ".toList ++
        ((coloured front t.text back).toList ++ (pattern.toList ++ ':' :: rest)))) =
      Text.dropEndWhile isAgentSuffix t.text.toList := by
  let start := "Agent ".toList ++ ((coloured front t.text back).toList ++ (pattern.toList ++ [':']))
  have htrim : Text.trim (start ++ rest) = start ++ Text.dropEndWhile Text.isBlank rest := by
    refine Text.trim_append (by simp [start]) ?_ ?_ rest
    · rintro c ⟨⟩
      rfl
    · have hsuffix : [':'] <:+ start := by
        refine ⟨"Agent ".toList ++ ((coloured front t.text back).toList ++ pattern.toList), ?_⟩
        simp only [start, List.append_assoc]
      rw [Text.getLast?_of_suffix hsuffix (by simp)]
      rintro c ⟨⟩
      rfl
  simp only [start, List.append_assoc, List.cons_append, List.nil_append] at htrim
  rw [htrim, undecorate_agent (notMem_coloured t front back) (head?_coloured t front back) hpattern,
    dropColours_coloured]

/-! ## Endings -/

/-- Behind a version text, a report is trimmed at its end only. -/
theorem trim_of_text (t : Plain) {ending : List Char} {c : Char} (hlast : ending.getLast? = some c)
    (hc : Text.isBlank c = false) (rest : List Char) :
    Text.trim (t.text.toList ++ (ending ++ rest)) =
      t.text.toList ++ (ending ++ Text.dropEndWhile Text.isBlank rest) := by
  have hne : ending ≠ [] := by
    rintro rfl
    cases hlast
  rw [← List.append_assoc, ← List.append_assoc]
  refine Text.trim_append (by simp [hne]) ?_ ?_ rest
  · rcases t.head?_text with ⟨d, hhead, -⟩
    rw [List.head?_append, hhead]
    rintro e ⟨⟩
    exact isBlank_of_isPrinted (t.isPrinted d (List.mem_of_head? hhead))
  · rw [List.getLast?_append_of_ne_nil _ hne, hlast]
    rintro e ⟨⟩
    exact hc

/-- A mark at the end is removed with the marks that the text itself holds. -/
theorem undecorate_trim_mark (t : Plain) {mark : String} (hmark : IsMark mark.toList)
    (hprinted : ∀ c ∈ mark.toList, IsPrinted c) (honce : '-' ∉ mark.toList.tail)
    {component : String}
    (hremoved : ∀ text : List Char, (∀ c ∈ text, IsPrinted c) → text.head? ≠ some 'd' →
      undecorate component text = Text.removeAll mark.toList text) :
    undecorate component (Text.trim (t.text ++ mark).toList) =
      Text.removeAll mark.toList t.text.toList := by
  have hwhole : ∀ c ∈ t.text.toList ++ mark.toList, IsPrinted c := by
    intro c hc
    rcases List.mem_append.1 hc with htext | hmem
    · exact t.isPrinted c htext
    · exact hprinted c hmem
  have hstart : (t.text.toList ++ mark.toList).head? ≠ some 'd' := by
    rcases t.head?_text with ⟨c, hhead, -⟩
    have hne := t.head?_ne (c := 'd') rfl (by decide)
    rw [hhead] at hne
    simpa [List.head?_append, hhead] using hne
  rw [String.toList_append, Text.trim_eq_self fun c hc => isBlank_of_isPrinted (hwhole c hc),
    hremoved _ hwhole hstart]
  cases hchars : mark.toList with
  | nil =>
    have hhyphen := hmark.hyphen
    rw [hchars] at hhyphen
    cases hhyphen
  | cons p ps =>
    have hp : p = '-' := by simpa [hchars] using hmark.hyphen
    rw [hchars, ← hp] at honce
    exact Text.removeAll_append_pattern honce t.text.toList

theorem trim_archive (t : Plain) :
    Text.trim ("datadog-dotnet-apm-" ++ t.text ++ archive).toList =
      ("datadog-dotnet-apm-" ++ t.text ++ archive).toList := by
  have hprinted : ∀ c ∈ ("datadog-dotnet-apm-" ++ t.text ++ archive).toList, IsPrinted c := by
    have hfront : ∀ c ∈ "datadog-dotnet-apm-".toList, IsPrinted c := isPrinted_of_all (by decide)
    have hending : ∀ c ∈ archive.toList, IsPrinted c := isPrinted_of_all (by decide)
    intro c hc
    simp only [String.toList_append, List.mem_append] at hc
    rcases hc with (hmem | hmem) | hmem
    · exact hfront c hmem
    · exact t.isPrinted c hmem
    · exact hending c hmem
  exact Text.trim_eq_self fun c hc => isBlank_of_isPrinted (hprinted c hc)

theorem undecorate_archive (text : List Char) :
    undecorate "dotnet" ("datadog-dotnet-apm-".toList ++ (text ++ archive.toList)) = text := by
  have hstart : "datadog-dotnet-apm-".toList.isPrefixOf?
      ("datadog-dotnet-apm-".toList ++ (text ++ archive.toList)) = some (text ++ archive.toList) :=
    List.isPrefixOf?_eq_some_iff_append_eq.2 rfl
  have hsuffix : ".tar.gz".toList.isSuffixOf? (text ++ archive.toList) = some text :=
    List.isSuffixOf?_eq_some_iff_append_eq.2 rfl
  rw [undecorate, if_neg (by decide), if_neg (by decide), if_neg (by decide), if_neg (by decide),
    if_pos rfl]
  simp only [hstart, hsuffix, Option.getD_some]

/-! ## No trace is left -/

/-- Of a decorated text a component leaves the same as of the text. -/
theorem undecorate_decorated {t : Plain} {component raw : String}
    (h : Decorated t.text component raw) :
    undecorate component (Text.trim raw.toList) = undecorate component t.text.toList := by
  rw [undecorate_of_isPrinted t.isPrinted (t.head?_ne (by decide) (by decide))]
  cases h with
  | ddtrace =>
    have hraw : ("* ddtrace (" ++ t.text ++ ")").toList =
        bulleted "ddtrace".toList t.text.toList := by
      simp [bulleted]
    rw [hraw, trim_bulleted, undecorate_ddtrace]
    rfl
  | datadog =>
    have hraw : ("* datadog (" ++ t.text ++ ")").toList =
        bulleted "datadog".toList t.text.toList := by
      simp [bulleted]
    rw [hraw, trim_bulleted, undecorate_datadog]
    rfl
  | libddwaf =>
    have hraw : ("* libddwaf (" ++ t.text ++ ")").toList =
        bulleted "libddwaf".toList t.text.toList := by
      simp [bulleted]
    rw [hraw, trim_bulleted, undecorate_libddwaf]
    rfl
  | revision x =>
    have hraw : (t.text ++ "~" ++ x).toList = t.text.toList ++ ("~".toList ++ x.toList) := by simp
    have hnone : '~' ∉ t.text.toList := fun hmem => absurd (t.isPrinted '~' hmem) (by decide)
    have hbefore : ∀ rest, before "~" (t.text.toList ++ ("~".toList ++ rest)) = t.text.toList := by
      intro rest
      rw [before_append_left rfl hnone, before_append_self (by decide), List.append_nil]
    rw [hraw, trim_of_text t rfl rfl, undecorate, if_neg (by decide), if_neg (by decide),
      if_neg (by decide), if_pos rfl, hbefore]
    rfl
  | snapshot =>
    have hprinted : ∀ c ∈ "-SNAPSHOT".toList, IsPrinted c := isPrinted_of_all (by decide)
    refine undecorate_trim_mark t isMark_snapshot hprinted (by decide) fun text htext hhead => ?_
    rw [undecorate_of_isPrinted htext hhead]
    rfl
  | commit front back x =>
    have hraw : ("Agent " ++ coloured front t.text back ++ " - Commit:" ++ " " ++ x).toList =
        "Agent ".toList ++ ((coloured front t.text back).toList ++
          (" - Commit".toList ++ ':' :: (" " ++ x).toList)) := by
      simp
    rw [hraw, undecorate_trim_agent t front back (Or.inl rfl)]
    rfl
  | build front back x =>
    have hraw : ("Agent " ++ coloured front t.text back ++ " - Meta:" ++ " " ++ x).toList =
        "Agent ".toList ++ ((coloured front t.text back).toList ++
          (" - Meta".toList ++ ':' :: (" " ++ x).toList)) := by
      simp
    rw [hraw, undecorate_trim_agent t front back (Or.inr rfl)]
    rfl
  | nightly =>
    have hprinted : ∀ c ∈ "-nightly".toList, IsPrinted c := isPrinted_of_all (by decide)
    refine undecorate_trim_mark t isMark_nightly hprinted (by decide) fun text htext hhead => ?_
    rw [undecorate_of_isPrinted htext hhead]
    rfl
  | archive hending =>
    have hnone : archive.toList.isSuffixOf? t.text.toList = none :=
      Text.isSuffixOf?_eq_none.2 hending
    rw [trim_archive, String.toList_append, String.toList_append, List.append_assoc,
      undecorate_archive]
    exact (congrArg (Option.getD · t.text.toList) hnone).symm

/-- A decorated text is read as the text itself is: as the same version, or not at all. -/
theorem decorated_read {t : Plain} {component raw : String} (h : Decorated t.text component raw) :
    (∃ v, ofReport component raw = .ok v ∧ ofReport component t.text = .ok v) ∨
      ofReport component raw = .error (.invalid raw component) ∧
        ofReport component t.text = .error (.invalid t.text component) := by
  have hsame : ofReport? component raw = ofReport? component t.text := by
    rw [ofReport?, ofReport?, undecorate_decorated h, t.trim_text]
  cases hread : ofReport? component t.text with
  | none =>
    rw [hread] at hsame
    exact Or.inr ⟨by rw [ofReport, hsame], by rw [ofReport, hread]⟩
  | some v =>
    rw [hread] at hsame
    exact Or.inl ⟨v, by rw [ofReport, hsame], by rw [ofReport, hread]⟩

/-- Behind a mark of the agent may stand what looks like another report. -/
theorem decorated_read_agent :
    ∃ v, ofReport "agent" "Agent \x1b[1;32m7.50.0-devel\x1b[0m - Meta: Agent 6 - Commit: ~" =
        .ok v ∧
      ofReport "agent" "7.50.0-devel" = .ok v ∧ v.render = "7.50.0" := by
  let pre : Identifiers := ⟨"devel", by decide⟩
  let t : Plain := ⟨false, ⟨"7", rfl⟩, ⟨"50", rfl⟩, some ⟨⟨"0", rfl⟩, some pre, none⟩⟩
  have htext : t.text = "7.50.0-devel" := by decide +kernel
  have hplain : ofReport "agent" "7.50.0-devel" = .ok ⟨7, 50, 0, none, none⟩ := by
    decide +kernel
  have hdecorated : Decorated t.text "agent"
      ("Agent " ++ coloured [⟨"1;32", rfl⟩] t.text [⟨"0", rfl⟩] ++ " - Meta:" ++ " " ++
        "Agent 6 - Commit: ~") :=
    .build _ _ _
  have hraw : "Agent " ++ coloured [⟨"1;32", rfl⟩] t.text [⟨"0", rfl⟩] ++ " - Meta:" ++ " " ++
      "Agent 6 - Commit: ~" =
      "Agent \x1b[1;32m7.50.0-devel\x1b[0m - Meta: Agent 6 - Commit: ~" := by
    decide +kernel
  rcases decorated_read hdecorated with ⟨v, hv, ht⟩ | ⟨-, ht⟩
  · rw [hraw] at hv
    rw [htext, hplain] at ht
    cases ht
    exact ⟨_, hv, hplain, by decide⟩
  · rw [htext, hplain] at ht
    cases ht

end Version
end TraceAudit
