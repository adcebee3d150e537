import TraceAudit.Proofs.Version.Decoration

/-!
# Semantic versions

`SemVer` is a version by the grammar of Semantic Versioning 2.0.0, and `SemVer.text` what it looks
like. Identifiers have points in between.

    version    ::= number "." number "." number [ "-" identifiers ] [ "+" identifiers ]

`SemVer.Lower` is the precedence of that standard. `semver_conformity` says that such texts are
read, that they are printed as they were, and that versions compare by precedence.
-/

namespace TraceAudit

/-! ## Grammar -/

/-- A letter, a digit or a hyphen. -/
def isWordChar (c : Char) : Bool := Text.isAlphanumeric c || c == '-'

/-- An identifier that is no number. -/
@[ext]
structure Alphanumeric where
  text : String
  chars : text.toList.all isWordChar = true
  notNumber : text.toList.all Text.isDigit = false

/-- An identifier of a pre-release. Numbers have no zeros in front. -/
inductive Identifier where
  | number (n : Nat)
  | word (w : Alphanumeric)

/-- An identifier of build metadata, which may be digits with zeros in front. -/
structure BuildIdentifier where
  text : String
  nonempty : text ≠ ""
  chars : text.toList.all isWordChar = true

/-- A semantic version. Without identifiers there is no pre-release, or no build metadata. -/
structure SemVer where
  major : Nat
  minor : Nat
  patch : Nat
  pre : List Identifier
  build : List BuildIdentifier

theorem Alphanumeric.exists_notDigit (w : Alphanumeric) :
    ∃ c ∈ w.text.toList, Text.isDigit c = false := by
  simpa using w.notNumber

def Identifier.text : Identifier → String
  | .number n => toString n
  | .word w => w.text

/-- Identifiers behind a mark, with points in between. -/
def identifiersText (mark : String) : List String → String
  | [] => ""
  | identifiers => mark ++ Text.join "." identifiers

namespace SemVer

def text (s : SemVer) : String :=
  toString s.major ++ "." ++ toString s.minor ++ "." ++ toString s.patch ++
    identifiersText "-" (s.pre.map Identifier.text) ++
    identifiersText "+" (s.build.map BuildIdentifier.text)

end SemVer

/-! ## Precedence -/

/-- Numbers are ordered by value and lie below the words, which are ordered by their characters. -/
inductive Identifier.Lower : Identifier → Identifier → Prop
  | numbers {m n : Nat} : m < n → Lower (.number m) (.number n)
  | numberWord {n : Nat} {w : Alphanumeric} : Lower (.number n) (.word w)
  | words {v w : Alphanumeric} :
      List.Lex (fun c d => c.toNat < d.toNat) v.text.toList w.text.toList →
        Lower (.word v) (.word w)

/-- A pre-release lies below the release, and below a pre-release whose identifiers are larger from
the left. -/
inductive PreLower : List Identifier → List Identifier → Prop
  | release {ids : List Identifier} : ids ≠ [] → PreLower ids []
  | identifiers {ids others : List Identifier} :
      ids ≠ [] → List.Lex Identifier.Lower ids others → PreLower ids others

namespace SemVer

/-- The precedence of semantic versions. Build metadata does not occur in it. -/
inductive Lower (a b : SemVer) : Prop
  | major : a.major < b.major → Lower a b
  | minor : a.major = b.major → a.minor < b.minor → Lower a b
  | patch : a.major = b.major → a.minor = b.minor → a.patch < b.patch → Lower a b
  | pre : a.major = b.major → a.minor = b.minor → a.patch = b.patch → PreLower a.pre b.pre →
      Lower a b

/-- Versions of equal precedence. -/
structure SamePrecedence (a b : SemVer) : Prop where
  major : a.major = b.major
  minor : a.minor = b.minor
  patch : a.patch = b.patch
  pre : a.pre = b.pre

end SemVer

/-! ## Comparisons that decide an order -/

/-- The result of a comparison tells which of three cases holds. -/
structure Decides (o : Ordering) (lower same higher : Prop) : Prop where
  lt : o = .lt ↔ lower
  eq : o = .eq ↔ same
  gt : o = .gt ↔ higher

theorem decides_nat (m n : Nat) : Decides (compare m n) (m < n) (m = n) (n < m) :=
  ⟨Nat.compare_eq_lt, Nat.compare_eq_eq, Nat.compare_eq_gt⟩

/-- A second comparison decides between those that are the same to the first. -/
theorem Decides.then {o o' : Ordering} {lower same higher lower' same' higher' : Prop}
    (h : Decides o lower same higher) (h' : Decides o' lower' same' higher') :
    Decides (o.then o') (lower ∨ same ∧ lower') (same ∧ same') (higher ∨ same ∧ higher') := by
  refine ⟨?_, ?_, ?_⟩
  · rw [Ordering.then_eq_lt, h.lt, h.eq, h'.lt]
  · rw [Ordering.then_eq_eq, h.eq, h'.eq]
  · rw [Ordering.then_eq_gt, h.gt, h.eq, h'.gt]

theorem Decides.congr {o : Ordering} {lower same higher lower' same' higher' : Prop}
    (h : Decides o lower same higher) (hlower : lower ↔ lower') (hsame : same ↔ same')
    (hhigher : higher ↔ higher') : Decides o lower' same' higher' :=
  ⟨h.lt.trans hlower, h.eq.trans hsame, h.gt.trans hhigher⟩

/-- The lexicographic comparison decides the lexicographic order. -/
theorem decides_compareLex {α β : Type} (cmp : β → β → Ordering) (f : α → β) {r : α → α → Prop}
    {as bs : List α}
    (h : ∀ a ∈ as, ∀ b ∈ bs, Decides (cmp (f a) (f b)) (r a b) (a = b) (r b a)) :
    Decides (List.compareLex cmp (as.map f) (bs.map f)) (List.Lex r as bs) (as = bs)
      (List.Lex r bs as) := by
  induction as generalizing bs with
  | nil =>
    cases bs with
    | nil => constructor <;> simp [List.compareLex]
    | cons b bs => constructor <;> simp [List.compareLex]
  | cons a as ih =>
    cases bs with
    | nil => constructor <;> simp [List.compareLex]
    | cons b bs =>
      -- The heads decide, and the tails only where the heads are the same.
      have hhead := h a (by simp) b (by simp)
      have htail := ih fun x hx y hy =>
        h x (List.mem_cons_of_mem a hx) y (List.mem_cons_of_mem b hy)
      rw [List.map_cons, List.map_cons, List.compareLex_cons_cons]
      refine (hhead.then htail).congr List.cons_lex_cons_iff.symm List.cons_eq_cons.symm ?_
      rw [List.cons_lex_cons_iff, eq_comm]

namespace Version

theorem decides_compareText (a b : List Char) :
    Decides (compareText a b) (List.Lex (fun c d => c.toNat < d.toNat) a b) (a = b)
      (List.Lex (fun c d => c.toNat < d.toNat) b a) := by
  have hchar : ∀ c ∈ a, ∀ d ∈ b,
      Decides (compareOn Char.toNat c d) (c.toNat < d.toNat) (c = d) (d.toNat < c.toNat) :=
    fun c _ d _ => (decides_nat c.toNat d.toNat).congr Iff.rfl Char.toNat_inj Iff.rfl
  have hlex := decides_compareLex (compareOn Char.toNat) id hchar
  rw [List.map_id, List.map_id] at hlex
  rw [compareText_eq_compareLex]
  exact hlex

end Version

namespace Identifier

/-- A number has 64 bits. -/
def Fits : Identifier → Prop
  | .number n => n < Word.count64
  | .word _ => True

theorem u64?_number {n : Nat} (h : (number n).Fits) :
    Decimal.u64? (number n).text.toList = some n :=
  Decimal.u64?_repr h

/-- An identifier with another character than digits is no number. -/
theorem u64?_word (w : Alphanumeric) : Decimal.u64? (word w).text.toList = none := by
  refine Option.eq_none_iff_forall_ne_some.2 fun n hn => ?_
  -- Another character in a number could only be a plus sign, which is not in the grammar.
  rcases w.exists_notDigit with ⟨c, hc, hnot⟩
  rcases Decimal.mem_of_u64? hn hc with rfl | hdigit
  · have hplus : isWordChar '+' = true := List.all_eq_true.1 w.chars '+' hc
    revert hplus
    decide
  · rw [hnot] at hdigit
    cases hdigit

theorem lower_numbers {m n : Nat} : (number m).Lower (number n) ↔ m < n := by
  constructor
  · intro h
    cases h with
    | numbers hlt => exact hlt
  · exact .numbers

theorem lower_words {v w : Alphanumeric} :
    (word v).Lower (word w) ↔
      List.Lex (fun c d => c.toNat < d.toNat) v.text.toList w.text.toList := by
  constructor
  · intro h
    cases h with
    | words hlex => exact hlex
  · exact .words

theorem not_lower_number {n : Nat} {w : Alphanumeric} : ¬(word w).Lower (number n) := nofun

theorem word_eq_iff {v w : Alphanumeric} :
    v.text.toList = w.text.toList ↔ (word v) = (word w) := by
  rw [String.toList_inj, word.injEq, Alphanumeric.ext_iff]

/-- The comparison of identifiers decides their precedence. -/
theorem decides_compareIdentifier {a b : Identifier} (ha : a.Fits) (hb : b.Fits) :
    Decides (Version.compareIdentifier a.text.toList b.text.toList) (a.Lower b) (a = b)
      (b.Lower a) := by
  -- What the reader takes for a number is a number, so the cases are those of the grammar.
  unfold Version.compareIdentifier
  cases a with
  | number m =>
    cases b with
    | number n =>
      rw [u64?_number ha, u64?_number hb]
      exact (decides_nat m n).congr lower_numbers.symm (number.injEq m n ▸ Iff.rfl)
        lower_numbers.symm
    | word w =>
      rw [u64?_number ha, u64?_word w]
      constructor <;> simp [Lower.numberWord, not_lower_number]
  | word v =>
    cases b with
    | number n =>
      rw [u64?_word v, u64?_number hb]
      constructor <;> simp [Lower.numberWord, not_lower_number]
    | word w =>
      rw [u64?_word v, u64?_word w]
      exact (Version.decides_compareText _ _).congr lower_words.symm word_eq_iff lower_words.symm

theorem isWordChar_of_mem {a : Identifier} {c : Char} (h : c ∈ a.text.toList) :
    isWordChar c = true := by
  cases a with
  | number n =>
    have hdigit : Text.isDigit c = true := Decimal.isDigit_of_mem_repr h
    simp [isWordChar, Text.isAlphanumeric, hdigit]
  | word w => exact List.all_eq_true.1 w.chars c h

theorem text_ne_nil (a : Identifier) : a.text.toList ≠ [] := by
  cases a with
  | number n => exact Decimal.toList_repr_ne_nil n
  | word w =>
    rcases w.exists_notDigit with ⟨c, hc, -⟩
    exact List.ne_nil_of_mem hc

end Identifier

/-! ## Pre-releases -/

theorem preLower_iff {as bs : List Identifier} :
    PreLower as bs ↔ as ≠ [] ∧ (bs = [] ∨ List.Lex Identifier.Lower as bs) := by
  constructor
  · intro h
    cases h with
    | release hne => exact ⟨hne, Or.inl rfl⟩
    | identifiers hne hlex => exact ⟨hne, Or.inr hlex⟩
  · rintro ⟨hne, rfl | hlex⟩
    · exact .release hne
    · exact .identifiers hne hlex

/-- Identifiers as a version keeps them. -/
def joined : List String → Option String
  | [] => none
  | identifiers => some (Text.join "." identifiers)

theorem splitOn_identifiers {ids : List Identifier} (hne : ids ≠ []) :
    Text.splitOn '.' (Text.join "." (ids.map Identifier.text)).toList =
      ids.map fun a => a.text.toList := by
  have hpoint : ∀ text ∈ ids.map Identifier.text, '.' ∉ text.toList := by
    intro text htext hmem
    rcases List.mem_map.1 htext with ⟨a, -, rfl⟩
    have hchar := Identifier.isWordChar_of_mem hmem
    revert hchar
    decide
  have hsplit := Text.splitOn_join (by simpa using hne) hpoint
  rw [List.map_map] at hsplit
  exact hsplit

theorem decides_comparePre {as bs : List Identifier} (has : ∀ a ∈ as, a.Fits)
    (hbs : ∀ b ∈ bs, b.Fits) :
    Decides (Version.comparePre (joined (as.map Identifier.text)) (joined (bs.map Identifier.text)))
      (PreLower as bs) (as = bs) (PreLower bs as) := by
  cases as with
  | nil =>
    cases bs with
    | nil => constructor <;> simp [joined, Version.comparePre, preLower_iff]
    | cons b bs => constructor <;> simp [joined, Version.comparePre, preLower_iff]
  | cons a as =>
    cases bs with
    | nil => constructor <;> simp [joined, Version.comparePre, preLower_iff]
    | cons b bs =>
      have hlex := decides_compareLex Version.compareIdentifier
        (fun x : Identifier => x.text.toList) fun x hx y hy =>
          Identifier.decides_compareIdentifier (has x hx) (hbs y hy)
      rw [← splitOn_identifiers (List.cons_ne_nil a as),
        ← splitOn_identifiers (List.cons_ne_nil b bs),
        ← Version.compareIdentifiers_eq_compareLex] at hlex
      exact hlex.congr (by simp [preLower_iff]) Iff.rfl (by simp [preLower_iff])

/-! ## Reading and comparing -/

theorem isIdentifierChar_of_isWordChar {c : Char} (h : isWordChar c = true) :
    Version.isIdentifierChar c = true := by
  rcases Bool.or_eq_true_iff.1 h with halphanumeric | hhyphen
  · simp [Version.isIdentifierChar, halphanumeric]
  · simp [Version.isIdentifierChar, hhyphen]

theorem isIdentifier_joined {texts : List String}
    (h : ∀ text ∈ texts, text.toList ≠ [] ∧ ∀ c ∈ text.toList, isWordChar c = true) :
    ∀ p ∈ joined texts, Version.isIdentifier p.toList = true := by
  intro p hp
  cases texts with
  | nil => cases hp
  | cons first rest =>
    cases hp
    refine Version.isIdentifier_iff.2 ⟨?_, fun c hc => ?_⟩
    · exact Text.join_ne_nil (h first (by simp)).1 rest
    · rcases Text.mem_join hc with hpoint | ⟨text, htext, hmem⟩
      · have hc : c = '.' := by simpa using hpoint
        subst hc
        rfl
      · exact isIdentifierChar_of_isWordChar ((h text htext).2 c hmem)

namespace SemVer

/-- All numbers have 64 bits. -/
structure Fits (s : SemVer) : Prop where
  major : s.major < Word.count64
  minor : s.minor < Word.count64
  patch : s.patch < Word.count64
  pre : ∀ a ∈ s.pre, a.Fits

/-- The version that the text stands for. -/
def version (s : SemVer) : Version where
  major := s.major
  minor := s.minor
  patch := s.patch
  pre := joined (s.pre.map Identifier.text)
  build := joined (s.build.map BuildIdentifier.text)

theorem render_version (s : SemVer) : s.version.render = s.text := by
  rcases s with ⟨major, minor, patch, pre, build⟩
  cases pre with
  | nil => cases build <;> rfl
  | cons a pre => cases build <;> rfl

theorem Fits.valid {s : SemVer} (h : s.Fits) : s.version.Valid := by
  refine ⟨h.major, h.minor, h.patch, isIdentifier_joined ?_, isIdentifier_joined ?_⟩
  · intro text htext
    rcases List.mem_map.1 htext with ⟨a, -, rfl⟩
    exact ⟨a.text_ne_nil, fun c hc => Identifier.isWordChar_of_mem hc⟩
  · intro text htext
    rcases List.mem_map.1 htext with ⟨a, -, rfl⟩
    exact ⟨by simpa using a.nonempty, List.all_eq_true.1 a.chars⟩

/-- Precedence is decided by the first number that differs, and then by the pre-release. -/
theorem lower_iff {a b : SemVer} :
    a.Lower b ↔
      a.major < b.major ∨ a.major = b.major ∧
        (a.minor < b.minor ∨ a.minor = b.minor ∧
          (a.patch < b.patch ∨ a.patch = b.patch ∧ PreLower a.pre b.pre)) := by
  constructor
  · intro h
    cases h with
    | major hlt => exact Or.inl hlt
    | minor hmajor hlt => exact Or.inr ⟨hmajor, Or.inl hlt⟩
    | patch hmajor hminor hlt => exact Or.inr ⟨hmajor, Or.inr ⟨hminor, Or.inl hlt⟩⟩
    | pre hmajor hminor hpatch hpre =>
      exact Or.inr ⟨hmajor, Or.inr ⟨hminor, Or.inr ⟨hpatch, hpre⟩⟩⟩
  · rintro (hlt | ⟨hmajor, hlt | ⟨hminor, hlt | ⟨hpatch, hpre⟩⟩⟩)
    · exact .major hlt
    · exact .minor hmajor hlt
    · exact .patch hmajor hminor hlt
    · exact .pre hmajor hminor hpatch hpre

theorem samePrecedence_iff {a b : SemVer} :
    a.SamePrecedence b ↔
      a.major = b.major ∧ a.minor = b.minor ∧ a.patch = b.patch ∧ a.pre = b.pre := by
  constructor
  · rintro ⟨hmajor, hminor, hpatch, hpre⟩
    exact ⟨hmajor, hminor, hpatch, hpre⟩
  · rintro ⟨hmajor, hminor, hpatch, hpre⟩
    exact ⟨hmajor, hminor, hpatch, hpre⟩

/-- Versions compare by precedence. -/
theorem decides_compare {a b : SemVer} (ha : a.Fits) (hb : b.Fits) :
    Decides (a.version.compare b.version) (a.Lower b) (a.SamePrecedence b) (b.Lower a) := by
  have hnumbers := (decides_nat a.major b.major).then <| (decides_nat a.minor b.minor).then <|
    (decides_nat a.patch b.patch).then <| decides_comparePre ha.pre hb.pre
  refine hnumbers.congr lower_iff.symm samePrecedence_iff.symm ?_
  rw [lower_iff, eq_comm, eq_comm (a := b.minor), eq_comm (a := b.patch)]

end SemVer

namespace Version

/-- The components that decorate their versions. -/
def decorating : List String := ["ruby", "libddwaf", "agent", "java", "dotnet", "php"]

theorem undecorate_plain {component : String} (h : component ∉ decorating) (text : List Char) :
    undecorate component text = text := by
  simp only [decorating, List.mem_cons, List.not_mem_nil, or_false, not_or] at h
  rcases h with ⟨hruby, hwaf, hagent, hjava, hdotnet, hphp⟩
  unfold undecorate
  rw [if_neg hruby, if_neg hwaf, if_neg hagent, if_neg hjava, if_neg hdotnet, if_neg hphp]

/-- What is printed is read back for a component without decoration. -/
theorem Valid.ofReport_render {v : Version} (h : v.Valid) {component : String}
    (hplain : component ∉ decorating) : ofReport component v.render = .ok v := by
  have hread : ofReport? component v.render = some v := by
    rw [h.ofReport?_render, undecorate_plain hplain]
    exact h.ofText?_render
  rw [ofReport, hread]

/-- Semantic versions whose numbers have 64 bits are read, printed as they were and compared by
precedence. -/
theorem semver_conformity {component : String} (hplain : component ∉ decorating) {a b : SemVer}
    (ha : a.Fits) (hb : b.Fits) :
    ∃ v w, ofReport component a.text = .ok v ∧ ofReport component b.text = .ok w ∧
      v.render = a.text ∧ w.render = b.text ∧
      (v.compare w = .lt ↔ a.Lower b) ∧
      (v.compare w = .eq ↔ a.SamePrecedence b) ∧
      (v.compare w = .gt ↔ b.Lower a) := by
  have hdecides := SemVer.decides_compare ha hb
  refine ⟨a.version, b.version, ?_, ?_, a.render_version, b.render_version, hdecides.lt,
    hdecides.eq, hdecides.gt⟩
  · rw [← a.render_version]
    exact ha.valid.ofReport_render hplain
  · rw [← b.render_version]
    exact hb.valid.ofReport_render hplain

/-- A number lies below a word, and build metadata does not count. -/
theorem semver_conformity_alpha :
    ∃ v w, ofReport "python" "1.0.0-alpha.1" = .ok v ∧
      ofReport "python" "1.0.0-alpha.beta+exp.007" = .ok w ∧ v.compare w = .lt := by
  let alpha : Identifier := .word ⟨"alpha", by decide, by decide⟩
  let beta : Identifier := .word ⟨"beta", by decide, by decide⟩
  let exp : BuildIdentifier := ⟨"exp", by decide, by decide⟩
  let seven : BuildIdentifier := ⟨"007", by decide, by decide⟩
  let a : SemVer := ⟨1, 0, 0, [alpha, .number 1], []⟩
  let b : SemVer := ⟨1, 0, 0, [alpha, beta], [exp, seven]⟩
  have hone : 1 < Word.count64 := by decide
  have ha : a.Fits := ⟨by decide, by decide, by decide, by simp [a, alpha, Identifier.Fits, hone]⟩
  have hb : b.Fits := ⟨by decide, by decide, by decide, by simp [b, alpha, beta, Identifier.Fits]⟩
  have hlower : a.Lower b :=
    .pre rfl rfl rfl (.identifiers (List.cons_ne_nil _ _) (.cons (.rel .numberWord)))
  have htext : a.text = "1.0.0-alpha.1" ∧ b.text = "1.0.0-alpha.beta+exp.007" := by
    decide +kernel
  have hplain : "python" ∉ decorating := by decide
  rcases semver_conformity hplain ha hb with ⟨v, w, hv, hw, -, -, hlt, -⟩
  rw [htext.1] at hv
  rw [htext.2] at hw
  exact ⟨v, w, hv, hw, hlt.2 hlower⟩

end Version

end TraceAudit
