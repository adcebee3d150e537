import Mathlib.Data.List.TakeWhile
import TraceAudit.Proofs.Text.Cutting
import TraceAudit.Proofs.Trace.Numeral
import TraceAudit.Version.Library

/-!
# How versions are spelled

* `Spells` says of a text that it spells a version out, `ofComplete?_eq_some` that the reader of
  complete versions accepts exactly these texts;
* `Valid` holds of every version that was read: `valid_of_ofText?`;
* `Valid.spells_render` says that the printed form of a valid version spells it, so that it is read
  back (`Valid.ofText?_render`), and `Valid.isPrinted` which characters it consists of;
* `Spells.ending_suffix` says how a spelling ends.
-/

namespace TraceAudit

/-! ## Digits and letters -/

namespace Text

theorem char_le_iff {a b : Char} : a ≤ b ↔ a.toNat ≤ b.toNat := by
  rw [Char.le_def, UInt32.le_iff_toNat_le]
  rfl

theorem isDigit_iff {c : Char} : isDigit c = true ↔ 48 ≤ c.toNat ∧ c.toNat ≤ 57 := by
  simp [isDigit, char_le_iff]

theorem isAsciiLetter_iff {c : Char} :
    isAsciiLetter c = true ↔
      (97 ≤ c.toNat ∧ c.toNat ≤ 122) ∨ (65 ≤ c.toNat ∧ c.toNat ≤ 90) := by
  simp [isAsciiLetter, char_le_iff]

theorem isAsciiLetter_of_isDigit {c : Char} (h : isDigit c = true) :
    isAsciiLetter c = false := by
  have hdigit := isDigit_iff.1 h
  have hnot : ¬isAsciiLetter c = true := fun hletter => by
    have hrange := isAsciiLetter_iff.1 hletter
    omega
  simpa using hnot

end Text

namespace Decimal

/-- A number consists of digits, possibly behind a plus sign. -/
theorem mem_of_u64? {text : List Char} {n : Nat} (h : u64? text = some n) {c : Char}
    (hc : c ∈ text) : c = '+' ∨ Text.isDigit c = true := by
  have hdigits : ∀ {digits m}, ofDigits? digits = some m → c ∈ digits →
      Text.isDigit c = true := by
    intro digits m hread hmem
    unfold ofDigits? at hread
    split at hread
    · rename_i hall
      exact List.all_eq_true.1 hall.2 c hmem
    · cases hread
  have hnatural := (u64?_eq_some.1 h).1
  unfold natural? at hnatural
  split at hnatural
  · rcases List.mem_cons.1 hc with heq | hmem
    · exact Or.inl heq
    · exact Or.inr (hdigits hnatural hmem)
  · exact Or.inr (hdigits hnatural hc)

theorem toList_repr_ne_nil (n : Nat) : n.repr.toList ≠ [] := by
  rw [Nat.toList_repr]
  exact Nat.toDigits_ne_nil

end Decimal

namespace Version

/-! ## Numbers -/

/-- The text does not go on with a digit. -/
def EndsNumber (text : List Char) : Prop := ∀ c rest, text = c :: rest → Text.isDigit c = false

theorem endsNumber_nil : EndsNumber [] := nofun

theorem endsNumber_cons {c : Char} (h : Text.isDigit c = false) (rest : List Char) :
    EndsNumber (c :: rest) := by
  intro d tail heq
  cases heq
  exact h

theorem EndsNumber.takeWhile {text : List Char} (h : EndsNumber text) :
    text.takeWhile Text.isDigit = [] := by
  cases text with
  | nil => rfl
  | cons c rest => simp [h c rest rfl]

theorem EndsNumber.dropWhile {text : List Char} (h : EndsNumber text) :
    text.dropWhile Text.isDigit = text := by
  cases text with
  | nil => rfl
  | cons c rest => simp [h c rest rfl]

theorem endsNumber_dropWhile (text : List Char) : EndsNumber (text.dropWhile Text.isDigit) := by
  intro c rest heq
  have hne : text.dropWhile Text.isDigit ≠ [] := by simp [heq]
  have hhead := List.head_dropWhile_not Text.isDigit hne
  simpa [heq] using hhead

/-- The digits write a number of 64 bits. -/
structure Writes (digits : List Char) (n : Nat) : Prop where
  allDigits : ∀ c ∈ digits, Text.isDigit c = true
  value : Decimal.u64? digits = some n

theorem writes_repr {n : Nat} (h : n < Word.count64) : Writes n.repr.toList n where
  allDigits := fun _ => Decimal.isDigit_of_mem_repr
  value := Decimal.u64?_repr h

theorem Writes.lt {digits : List Char} {n : Nat} (h : Writes digits n) : n < Word.count64 :=
  (Decimal.u64?_eq_some.1 h.value).2

theorem Writes.ne_nil {digits : List Char} {n : Nat} (h : Writes digits n) : digits ≠ [] := by
  rintro rfl
  cases h.value

theorem number?_eq_some {text rest : List Char} {n : Nat} :
    number? text = some (n, rest) ↔
      ∃ digits, text = digits ++ rest ∧ Writes digits n ∧ EndsNumber rest := by
  unfold number?
  constructor
  · intro h
    rcases Option.bind_eq_some_iff.1 h with ⟨m, hm, hpair⟩
    cases hpair
    refine ⟨text.takeWhile Text.isDigit, List.takeWhile_append_dropWhile.symm, ⟨?_, hm⟩, ?_⟩
    · intro c hc
      exact List.mem_takeWhile_imp hc
    · exact endsNumber_dropWhile text
  · rintro ⟨digits, rfl, hdigits, hrest⟩
    have htake : (digits ++ rest).takeWhile Text.isDigit = digits := by
      rw [List.takeWhile_append_of_pos hdigits.allDigits, hrest.takeWhile, List.append_nil]
    have hdrop : (digits ++ rest).dropWhile Text.isDigit = rest := by
      rw [List.dropWhile_append_of_pos hdigits.allDigits, hrest.dropWhile]
    rw [htake, hdrop, hdigits.value]
    rfl

theorem point?_eq_some {text rest : List Char} : point? text = some rest ↔ text = '.' :: rest := by
  unfold point?
  split
  · simp
  · rename_i hpoint
    constructor
    · exact nofun
    · intro h
      exact absurd h (hpoint rest)

/-! ## Spellings -/

/-- The characters of the pre-release. -/
def preText (v : Version) : List Char := v.pre.elim [] String.toList

/-- What holds of every version that was read. -/
structure Valid (v : Version) : Prop where
  major : v.major < Word.count64
  minor : v.minor < Word.count64
  patch : v.patch < Word.count64
  pre : ∀ p ∈ v.pre, isIdentifier p.toList = true
  build : ∀ b ∈ v.build, isIdentifier b.toList = true

/-- The text behind the numbers holds the pre-release and the build metadata of the version. -/
structure Continues (tail : List Char) (v : Version) : Prop where
  endsNumber : EndsNumber tail
  preText : dropSeparator (cutBuild tail).1 = v.preText
  buildText : (cutBuild tail).2.map String.ofList = v.build
  pre : ∀ p ∈ v.pre, isIdentifier p.toList = true
  build : ∀ b ∈ v.build, isIdentifier b.toList = true

/-- The text spells the version: three numbers with points in between, and what comes behind. -/
inductive Spells : List Char → Version → Prop
  | numbers {v : Version} {major minor patch tail : List Char} :
      Writes major v.major → Writes minor v.minor → Writes patch v.patch → Continues tail v →
      Spells (major ++ '.' :: (minor ++ '.' :: (patch ++ tail))) v

theorem Spells.valid {text : List Char} {v : Version} (h : Spells text v) : v.Valid := by
  cases h with
  | numbers hmajor hminor hpatch htail =>
    exact ⟨hmajor.lt, hminor.lt, hpatch.lt, htail.pre, htail.build⟩

/-- Numbers and points stand in front of what continues a spelling. -/
theorem Spells.exists_continues {text : List Char} {v : Version} (h : Spells text v) :
    ∃ numbers tail, text = numbers ++ tail ∧
      (∀ c ∈ numbers, Text.isDigit c = true ∨ c = '.') ∧ Continues tail v := by
  cases h with
  | @numbers _ major minor patch tail hmajor hminor hpatch htail =>
    refine ⟨major ++ '.' :: (minor ++ '.' :: patch), tail, by simp, ?_, htail⟩
    intro c hc
    simp only [List.mem_append, List.mem_cons] at hc
    rcases hc with hc | rfl | hc | rfl | hc
    · exact Or.inl (hmajor.allDigits c hc)
    · exact Or.inr rfl
    · exact Or.inl (hminor.allDigits c hc)
    · exact Or.inr rfl
    · exact Or.inl (hpatch.allDigits c hc)

theorem preText_ne_nil {v : Version} {p : String} (hpre : v.pre = some p)
    (h : isIdentifier p.toList = true) : v.preText ≠ [] := by
  rw [preText, hpre]
  rintro hnil
  rw [show p.toList = [] from hnil] at h
  cases h

/-- The version of three numbers and the text behind them. -/
def ofTail? (major minor patch : Nat) (tail : List Char) : Option Version :=
  if (cutBuild tail).2.all isIdentifier ∧
      (dropSeparator (cutBuild tail).1 = [] ∨ isIdentifier (dropSeparator (cutBuild tail).1)) then
    some
      { major
        minor
        patch
        pre := if dropSeparator (cutBuild tail).1 = [] then none
          else some (String.ofList (dropSeparator (cutBuild tail).1))
        build := (cutBuild tail).2.map String.ofList }
  else none

theorem ofComplete?_eq (text : List Char) :
    ofComplete? text = (number? text).bind fun first =>
      (point? first.2).bind fun text => (number? text).bind fun second =>
        (point? second.2).bind fun text => (number? text).bind fun third =>
          ofTail? first.1 second.1 third.1 third.2 := rfl

theorem continues_of_ofTail? {major minor patch : Nat} {tail : List Char} {v : Version}
    (hends : EndsNumber tail) (h : ofTail? major minor patch tail = some v) :
    (v.major = major ∧ v.minor = minor ∧ v.patch = patch) ∧ Continues tail v := by
  unfold ofTail? at h
  split at h
  · rename_i hparts
    cases h
    refine ⟨⟨rfl, rfl, rfl⟩, hends, ?_, rfl, ?_, ?_⟩
    · unfold preText
      split
      · rename_i hnil
        exact hnil
      · exact String.toList_ofList.symm
    · intro p hp
      split at hp
      · cases hp
      · rename_i hne
        cases hp
        simpa using hparts.2.resolve_left hne
    · intro b hb
      rcases Option.map_eq_some_iff.1 hb with ⟨text, htext, rfl⟩
      simpa [htext] using hparts.1
  · cases h

theorem Continues.ofTail? {tail : List Char} {v : Version} (h : Continues tail v) :
    ofTail? v.major v.minor v.patch tail = some v := by
  have hbuild : (cutBuild tail).2.all isIdentifier = true := by
    cases hcut : (cutBuild tail).2 with
    | none => rfl
    | some b =>
      have hsome : v.build = some (String.ofList b) := by
        rw [← h.buildText, hcut]
        rfl
      simpa using h.build _ hsome
  unfold Version.ofTail?
  rw [h.preText, h.buildText]
  cases hpre : v.pre with
  | none =>
    have hnil : v.preText = [] := by rw [Version.preText, hpre]; rfl
    simp [hnil, hbuild, ← hpre]
  | some p =>
    have htext : v.preText = p.toList := by rw [Version.preText, hpre]; rfl
    have hid : isIdentifier p.toList = true := h.pre p hpre
    have hne : p.toList ≠ [] := htext ▸ preText_ne_nil hpre hid
    simp [htext, hbuild, hid, hne, ← hpre]

/-- The reader of complete versions accepts the spellings of a version and nothing else. -/
theorem ofComplete?_eq_some {text : List Char} {v : Version} :
    ofComplete? text = some v ↔ Spells text v := by
  rw [ofComplete?_eq]
  constructor
  · -- Each step of the reader takes one part off the text.
    intro h
    rcases Option.bind_eq_some_iff.1 h with ⟨⟨major, text₁⟩, hmajor, h₁⟩
    rcases Option.bind_eq_some_iff.1 h₁ with ⟨text₂, hfirst, h₂⟩
    rcases Option.bind_eq_some_iff.1 h₂ with ⟨⟨minor, text₃⟩, hminor, h₃⟩
    rcases Option.bind_eq_some_iff.1 h₃ with ⟨text₄, hsecond, h₄⟩
    rcases Option.bind_eq_some_iff.1 h₄ with ⟨⟨patch, tail⟩, hpatch, hlast⟩
    rcases number?_eq_some.1 hmajor with ⟨a, rfl, ha, -⟩
    rcases number?_eq_some.1 hminor with ⟨b, rfl, hb, -⟩
    rcases number?_eq_some.1 hpatch with ⟨c, rfl, hc, hends⟩
    have hpoint₁ : text₁ = '.' :: (b ++ text₃) := point?_eq_some.1 hfirst
    have hpoint₂ : text₃ = '.' :: (c ++ tail) := point?_eq_some.1 hsecond
    rcases continues_of_ofTail? hends hlast with ⟨⟨rfl, rfl, rfl⟩, htail⟩
    rw [hpoint₁, hpoint₂]
    exact .numbers ha hb hc htail
  · intro h
    cases h with
    | @numbers _ a b c tail ha hb hc htail =>
      -- A number goes up to the point behind it, and the last one up to what is no digit.
      have hdot : ∀ rest, EndsNumber ('.' :: rest) := endsNumber_cons rfl
      have hfirst := number?_eq_some.2 ⟨a, rfl, ha, hdot (b ++ '.' :: (c ++ tail))⟩
      have hsecond := number?_eq_some.2 ⟨b, rfl, hb, hdot (c ++ tail)⟩
      have hthird := number?_eq_some.2 ⟨c, rfl, hc, htail.endsNumber⟩
      simp only [hfirst, hsecond, hthird, point?, Option.bind_some, htail.ofTail?]

/-! ## Marks and short versions -/

theorem Writes.dropMark {digits : List Char} {n : Nat} (h : Writes digits n) (rest : List Char) :
    dropMark (digits ++ rest) = digits ++ rest := by
  cases digits with
  | nil => exact absurd rfl h.ne_nil
  | cons c more =>
    have hc : c ≠ 'v' := by
      rintro rfl
      cases h.allDigits 'v' (by simp)
    unfold Version.dropMark
    split
    · rename_i heq
      exact absurd (List.cons.inj heq).1 hc
    · rfl

/-- A text with two points has more than two numbers. -/
theorem isMajorMinor_points (a b rest : List Char) :
    isMajorMinor (a ++ '.' :: (b ++ '.' :: rest)) = false := by
  have hpieces : 3 ≤ (Text.splitOn '.' (a ++ '.' :: (b ++ '.' :: rest))).length := by
    have hpos := fun text => List.length_pos_of_ne_nil (Text.splitOn_ne_nil '.' text)
    have ha := hpos a
    have hb := hpos b
    have hrest := hpos rest
    rw [Text.splitOn_append_cons, Text.splitOn_append_cons, List.length_append, List.length_append]
    omega
  unfold isMajorMinor
  split
  · rename_i heq
    rw [heq] at hpieces
    cases Nat.lt_irrefl _ hpieces
  · rfl

/-- A number and two points start a text that is read as it is. -/
theorem Writes.ofText?_eq {digits : List Char} {n : Nat} (h : Writes digits n)
    (b rest : List Char) :
    ofText? (digits ++ '.' :: (b ++ '.' :: rest)) =
      ofComplete? (digits ++ '.' :: (b ++ '.' :: rest)) := by
  rw [ofText?, h.dropMark, isMajorMinor_points]
  rfl

theorem Spells.ofText? {text : List Char} {v : Version} (h : Spells text v) :
    Version.ofText? text = some v := by
  have hread := ofComplete?_eq_some.2 h
  cases h with
  | numbers hmajor _ _ _ =>
    rw [hmajor.ofText?_eq]
    exact hread

/-- What is read is a spelling, after a mark and the missing number of a short version. -/
theorem spells_of_ofText? {text : List Char} {v : Version} (h : Version.ofText? text = some v) :
    Spells (if isMajorMinor (dropMark text) then dropMark text ++ ['.', '0'] else dropMark text)
      v :=
  ofComplete?_eq_some.1 h

theorem valid_of_ofText? {text : List Char} {v : Version} (h : Version.ofText? text = some v) :
    v.Valid :=
  (spells_of_ofText? h).valid

/-- A character that starts build metadata. -/
def startsBuild (c : Char) : Prop := c = '+' ∨ c = ' '

/-! ## Characters -/

/-- The characters of printed versions lie between the plus sign and the letter `z`. -/
def IsPrinted (c : Char) : Prop := 43 ≤ c.toNat ∧ c.toNat ≤ 122

instance : DecidablePred IsPrinted := fun c =>
  inferInstanceAs (Decidable (43 ≤ c.toNat ∧ c.toNat ≤ 122))

theorem isIdentifierChar_iff {c : Char} :
    isIdentifierChar c = true ↔
      Text.isAsciiLetter c = true ∨ Text.isDigit c = true ∨ c = '.' ∨ c = '-' := by
  simp [isIdentifierChar, Text.isAlphanumeric, or_assoc]

theorem isPrinted_of_isDigit {c : Char} (h : Text.isDigit c = true) : IsPrinted c := by
  have hrange := Text.isDigit_iff.1 h
  unfold IsPrinted
  omega

theorem isPrinted_of_isIdentifierChar {c : Char} (h : isIdentifierChar c = true) :
    IsPrinted c := by
  rcases isIdentifierChar_iff.1 h with hletter | hdigit | rfl | rfl
  · have hrange := Text.isAsciiLetter_iff.1 hletter
    unfold IsPrinted
    omega
  · exact isPrinted_of_isDigit hdigit
  · decide
  · decide

theorem isIdentifier_iff {text : List Char} :
    isIdentifier text = true ↔ text ≠ [] ∧ ∀ c ∈ text, isIdentifierChar c = true := by
  simp [isIdentifier]

theorem not_startsBuild {c : Char} (h : isIdentifierChar c = true) : ¬startsBuild c := by
  rintro (rfl | rfl) <;> cases h

/-! ## Printed forms -/

/-- The three numbers as they are printed. -/
def coreText (v : Version) : List Char :=
  v.major.repr.toList ++ '.' :: (v.minor.repr.toList ++ '.' :: v.patch.repr.toList)

/-- The pre-release behind its hyphen. -/
def preSuffix (v : Version) : List Char := v.pre.elim [] fun p => '-' :: p.toList

/-- The build metadata behind its plus sign. -/
def buildSuffix (v : Version) : List Char := v.build.elim [] fun b => '+' :: b.toList

theorem toList_render (v : Version) :
    v.render.toList = v.coreText ++ (v.preSuffix ++ v.buildSuffix) := by
  rcases v with ⟨major, minor, patch, pre, build⟩
  cases pre <;> cases build <;>
    simp [render, coreText, preSuffix, buildSuffix, toString, String.toList_append]

theorem mem_coreText {v : Version} {c : Char} (h : c ∈ v.coreText) :
    Text.isDigit c = true ∨ c = '.' := by
  simp only [coreText, List.mem_append, List.mem_cons] at h
  rcases h with hmajor | rfl | hminor | rfl | hpatch
  · exact Or.inl (Decimal.isDigit_of_mem_repr hmajor)
  · exact Or.inr rfl
  · exact Or.inl (Decimal.isDigit_of_mem_repr hminor)
  · exact Or.inr rfl
  · exact Or.inl (Decimal.isDigit_of_mem_repr hpatch)

theorem Valid.mem_preSuffix {v : Version} (h : v.Valid) {c : Char} (hc : c ∈ v.preSuffix) :
    isIdentifierChar c = true := by
  unfold preSuffix at hc
  cases hpre : v.pre with
  | none =>
    rw [hpre] at hc
    cases hc
  | some p =>
    rw [hpre] at hc
    rcases List.mem_cons.1 hc with rfl | hmem
    · rfl
    · exact (isIdentifier_iff.1 (h.pre p hpre)).2 c hmem

theorem Valid.mem_buildSuffix {v : Version} (h : v.Valid) {c : Char} (hc : c ∈ v.buildSuffix) :
    c = '+' ∨ isIdentifierChar c = true := by
  unfold buildSuffix at hc
  cases hbuild : v.build with
  | none =>
    rw [hbuild] at hc
    cases hc
  | some b =>
    rw [hbuild] at hc
    rcases List.mem_cons.1 hc with rfl | hmem
    · exact Or.inl rfl
    · exact Or.inr ((isIdentifier_iff.1 (h.build b hbuild)).2 c hmem)

theorem Valid.isPrinted {v : Version} (h : v.Valid) : ∀ c ∈ v.render.toList, IsPrinted c := by
  intro c hc
  rw [toList_render, List.mem_append, List.mem_append] at hc
  rcases hc with hcore | hpre | hbuild
  · rcases mem_coreText hcore with hdigit | rfl
    · exact isPrinted_of_isDigit hdigit
    · decide
  · exact isPrinted_of_isIdentifierChar (h.mem_preSuffix hpre)
  · rcases h.mem_buildSuffix hbuild with rfl | hchar
    · decide
    · exact isPrinted_of_isIdentifierChar hchar

/-! ## Endings -/

theorem cutBuild_cases (text : List Char) :
    cutBuild text = (text, none) ∨
      ∃ pre sep build, cutBuild text = (pre, some build) ∧ text = pre ++ sep :: build := by
  induction text with
  | nil => exact Or.inl rfl
  | cons c rest ih =>
    by_cases hc : c = '+' ∨ c = ' '
    · exact Or.inr ⟨[], c, rest, by rw [cutBuild, if_pos hc], rfl⟩
    · rcases ih with hnone | ⟨pre, sep, build, hcut, hrest⟩
      · left
        rw [cutBuild, if_neg hc, hnone]
      · right
        refine ⟨c :: pre, sep, build, ?_, ?_⟩
        · rw [cutBuild, if_neg hc, hcut]
        · rw [hrest, List.cons_append]

theorem dropSeparator_suffix (text : List Char) : dropSeparator text <:+ text := by
  unfold dropSeparator
  split
  · exact List.suffix_cons _ _
  · exact List.suffix_cons _ _
  · exact List.suffix_refl _

/-- The last part of a version behind its numbers, empty when there is none. -/
def ending (v : Version) : List Char := v.build.elim v.preText String.toList

theorem Continues.ending_suffix {tail : List Char} {v : Version} (h : Continues tail v) :
    v.ending <:+ tail := by
  have hpre := h.preText
  have hbuild := h.buildText
  rcases cutBuild_cases tail with hnone | ⟨pre, sep, build, hcut, htail⟩
  · rw [hnone] at hpre hbuild
    rw [ending, ← hbuild, ← hpre]
    exact dropSeparator_suffix tail
  · rw [hcut] at hbuild
    rw [ending, ← hbuild, htail]
    simpa using (List.suffix_cons sep build).trans (List.suffix_append pre (sep :: build))

/-- A spelling ends as the version does. -/
theorem Spells.ending_suffix {text : List Char} {v : Version} (h : Spells text v) :
    v.ending <:+ text := by
  rcases h.exists_continues with ⟨numbers, tail, rfl, -, htail⟩
  exact htail.ending_suffix.trans (List.suffix_append numbers tail)

/-- Without an ending, only the numbers are printed. -/
theorem Valid.render_of_ending_nil {v : Version} (h : v.Valid) (hending : v.ending = []) :
    v.render.toList = v.coreText := by
  rw [toList_render]
  unfold ending at hending
  unfold preSuffix buildSuffix
  cases hbuild : v.build with
  | none =>
    rw [hbuild] at hending
    cases hpre : v.pre with
    | none => simp
    | some p => exact absurd hending (preText_ne_nil hpre (h.pre p hpre))
  | some b =>
    rw [hbuild] at hending
    exact absurd hending (isIdentifier_iff.1 (h.build b hbuild)).1

/-! ## What is printed is read back -/

theorem cutBuild_append {front : List Char} (h : ∀ c ∈ front, ¬startsBuild c) (rest : List Char) :
    cutBuild (front ++ rest) = (front ++ (cutBuild rest).1, (cutBuild rest).2) := by
  induction front with
  | nil => rfl
  | cons c front ih =>
    have hc : ¬(c = '+' ∨ c = ' ') := h c (by simp)
    rw [List.cons_append, cutBuild, if_neg hc, ih fun d hd => h d (List.mem_cons_of_mem c hd)]
    rfl

theorem cutBuild_buildSuffix (v : Version) :
    cutBuild v.buildSuffix = ([], v.build.map String.toList) := by
  unfold buildSuffix
  cases v.build with
  | none => rfl
  | some b => rfl

theorem dropSeparator_preSuffix (v : Version) : dropSeparator v.preSuffix = v.preText := by
  unfold preSuffix preText
  cases v.pre with
  | none => rfl
  | some p => rfl

theorem endsNumber_suffixes (v : Version) : EndsNumber (v.preSuffix ++ v.buildSuffix) := by
  unfold preSuffix buildSuffix
  cases v.pre with
  | none =>
    cases v.build with
    | none => exact endsNumber_nil
    | some b => exact endsNumber_cons rfl _
  | some p => exact endsNumber_cons rfl _

theorem Valid.continues {v : Version} (h : v.Valid) :
    Continues (v.preSuffix ++ v.buildSuffix) v := by
  have hcut : cutBuild (v.preSuffix ++ v.buildSuffix) =
      (v.preSuffix, v.build.map String.toList) := by
    rw [cutBuild_append fun c hc => not_startsBuild (h.mem_preSuffix hc), cutBuild_buildSuffix,
      List.append_nil]
  refine ⟨endsNumber_suffixes v, ?_, ?_, h.pre, h.build⟩
  · rw [hcut]
    exact dropSeparator_preSuffix v
  · rw [hcut]
    simp [Function.comp_def]

/-- The printed form of a version spells it. -/
theorem Valid.spells_render {v : Version} (h : v.Valid) : Spells v.render.toList v := by
  rw [toList_render]
  simpa [coreText] using
    Spells.numbers (writes_repr h.major) (writes_repr h.minor) (writes_repr h.patch) h.continues

theorem Valid.ofText?_render {v : Version} (h : v.Valid) : ofText? v.render.toList = some v :=
  h.spells_render.ofText?

end Version
end TraceAudit
