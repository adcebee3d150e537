import TraceAudit.Proofs.Version.Order

/-!
# Decorations and printed versions

A printed version goes through `undecorate` when it is read for a component.

* `undecorate_of_isPrinted` lists the decorations that a printed text can be taken to have;
* `dropEndWhile_isAgentSuffix_render` says that a version of the agent does not have its decoration;
* `Cut` describes what another decoration may take along, and `Cut.reads_equal_iff` says when an
  equal version is read from the rest: `IsMark.reads_equal_iff` for java and php, which remove a
  mark everywhere, and `archive_reads_equal_iff` for dotnet, which removes an ending.
-/

namespace TraceAudit
namespace Version

/-! ## Decorations of printed texts -/

theorem cutAt_of_isPrinted {pattern text : List Char} (h : ∀ c ∈ text, IsPrinted c)
    (hpattern : ∃ c ∈ pattern, ¬IsPrinted c) : Text.cutAt pattern text = none := by
  rcases hpattern with ⟨c, hmem, hc⟩
  exact Text.cutAt_eq_none.2 fun hpart => hc (h c (hpart.subset hmem))

theorem before_of_isPrinted {pattern : String} {text : List Char} (h : ∀ c ∈ text, IsPrinted c)
    (hpattern : ∃ c ∈ pattern.toList, ¬IsPrinted c) : before pattern text = text := by
  rw [before, cutAt_of_isPrinted h hpattern]

theorem after_of_isPrinted {pattern : String} {text : List Char} (h : ∀ c ∈ text, IsPrinted c)
    (hpattern : ∃ c ∈ pattern.toList, ¬IsPrinted c) : after pattern text = text := by
  rw [after, cutAt_of_isPrinted h hpattern]

theorem bullet?_of_isPrinted {name : String} {text : List Char} (h : ∀ c ∈ text, IsPrinted c) :
    bullet? name text = none := by
  have hstar : ['*'].isPrefixOf? text = none := by
    refine Text.isPrefixOf?_eq_none.2 fun hstart => ?_
    have hprinted : IsPrinted '*' := h '*' (hstart.subset (by simp))
    exact absurd hprinted (by decide)
  rw [bullet?, hstar]
  rfl

/-- There are no colours in a printed start. -/
theorem dropColours_append {text : List Char} (h : ∀ c ∈ text, IsPrinted c) (rest : List Char) :
    dropColours false (text ++ rest) = text ++ dropColours false rest := by
  induction text with
  | nil => rfl
  | cons c text ih =>
    have hescape : c ≠ '\x1b' := by
      rintro rfl
      have hprinted : IsPrinted '\x1b' := h '\x1b' (by simp)
      exact absurd hprinted (by decide)
    have htext := ih fun d hd => h d (List.mem_cons_of_mem c hd)
    simp [dropColours, hescape, htext]

theorem dropColours_of_isPrinted {text : List Char} (h : ∀ c ∈ text, IsPrinted c) :
    dropColours false text = text := by
  simpa [dropColours] using dropColours_append h []

theorem isBlank_of_isPrinted {c : Char} (h : IsPrinted c) : Text.isBlank c = false := by
  unfold IsPrinted at h
  simp only [Text.isBlank, Bool.or_eq_false_iff, Bool.and_eq_false_iff, decide_eq_false_iff_not,
    beq_eq_false_iff_ne]
  omega

/-- What a component leaves of a printed text that is no name of an archive. -/
theorem undecorate_of_isPrinted {text : List Char} (h : ∀ c ∈ text, IsPrinted c)
    (hstart : text.head? ≠ some 'd') (component : String) :
    undecorate component text =
      if component = "agent" then Text.dropEndWhile isAgentSuffix text
      else if component = "java" then Text.removeAll "-SNAPSHOT".toList text
      else if component = "dotnet" then (".tar.gz".toList.isSuffixOf? text).getD text
      else if component = "php" then Text.removeAll "-nightly".toList text
      else text := by
  -- The patterns have characters that are never printed, or do not start as the text does.
  have hagent : after "Agent " (before " - Meta" (before " - Commit" text)) = text := by
    rw [before_of_isPrinted h ⟨' ', by decide, by decide⟩,
      before_of_isPrinted h ⟨' ', by decide, by decide⟩,
      after_of_isPrinted h ⟨' ', by decide, by decide⟩]
  have hjava : before "~" text = text := before_of_isPrinted h ⟨'~', by decide, by decide⟩
  have hdotnet : ("datadog-dotnet-apm-".toList.isPrefixOf? text).getD text = text := by
    have hnot : ¬"datadog-dotnet-apm-".toList <+: text := by
      rintro ⟨rest, rfl⟩
      exact hstart rfl
    rw [Text.isPrefixOf?_eq_none.2 hnot]
    rfl
  unfold undecorate
  by_cases hruby : component = "ruby"
  · subst hruby
    simp [bullet?_of_isPrinted h]
  · by_cases hwaf : component = "libddwaf"
    · subst hwaf
      simp [bullet?_of_isPrinted h]
    · rw [if_neg hruby, if_neg hwaf]
      simp only [hagent, dropColours_of_isPrinted h, hjava, hdotnet]

/-! ## Printed versions -/

/-- A printed version starts with a digit. -/
theorem isDigit_of_mem_head?_render (v : Version) :
    ∀ c ∈ v.render.toList.head?, Text.isDigit c = true := by
  intro c hc
  rw [toList_render, coreText, List.append_assoc] at hc
  cases hmajor : v.major.repr.toList with
  | nil => exact absurd hmajor (Decimal.toList_repr_ne_nil v.major)
  | cons d rest =>
    rw [hmajor] at hc
    cases hc
    exact Decimal.isDigit_of_mem_repr (n := v.major) (by simp [hmajor])

theorem head?_render_ne (v : Version) : v.render.toList.head? ≠ some 'd' := by
  intro h
  cases isDigit_of_mem_head?_render v 'd' h

/-- The printed form ends as any spelling does, or in a digit. -/
theorem Spells.getLast?_render {text : List Char} {v : Version} (h : Spells text v)
    {p : Char → Prop} (hdigit : ∀ c, Text.isDigit c = true → p c)
    (hlast : ∀ c ∈ text.getLast?, p c) :
    ∀ c ∈ v.render.toList.getLast?, p c := by
  intro c hc
  by_cases hending : v.ending = []
  · -- Nothing but the numbers is printed, whatever stands behind them in the text.
    have hpatch : v.patch.repr.toList <:+ v.coreText := by
      refine ⟨v.major.repr.toList ++ '.' :: (v.minor.repr.toList ++ ['.']), ?_⟩
      simp [coreText]
    rw [h.valid.render_of_ending_nil hending,
      Text.getLast?_of_suffix hpatch (Decimal.toList_repr_ne_nil v.patch)] at hc
    exact hdigit c (Decimal.isDigit_of_mem_repr (List.mem_of_getLast? hc))
  · rw [Text.getLast?_of_suffix h.valid.spells_render.ending_suffix hending] at hc
    rw [Text.getLast?_of_suffix h.ending_suffix hending] at hlast
    exact hlast c hc

theorem dropMark_suffix (text : List Char) : dropMark text <:+ text := by
  unfold dropMark
  split
  · exact List.suffix_cons _ _
  · exact List.suffix_refl _

/-- What was read from a text prints with the end of this text, or with a digit at the end. -/
theorem getLast?_render_of_ofText? {text : List Char} {v : Version} (h : ofText? text = some v)
    {p : Char → Prop} (hdigit : ∀ c, Text.isDigit c = true → p c)
    (hlast : ∀ c ∈ text.getLast?, p c) :
    ∀ c ∈ v.render.toList.getLast?, p c := by
  refine (spells_of_ofText? h).getLast?_render hdigit fun c hc => ?_
  by_cases hshort : isMajorMinor (dropMark text) = true
  · -- The missing number was completed with a zero.
    rw [if_pos hshort, List.getLast?_append_of_ne_nil _ (by simp)] at hc
    cases hc
    exact hdigit '0' rfl
  · rw [if_neg hshort] at hc
    have hne : dropMark text ≠ [] := by
      intro hnil
      rw [hnil] at hc
      cases hc
    rw [← Text.getLast?_of_suffix (dropMark_suffix text) hne] at hc
    exact hlast c hc

theorem isAgentSuffix_of_isDigit {c : Char} (h : Text.isDigit c = true) :
    isAgentSuffix c = false := by
  have hletter : Text.isAsciiLetter c = false := Text.isAsciiLetter_of_isDigit h
  have hhyphen : c ≠ '-' := by
    rintro rfl
    cases h
  simp [isAgentSuffix, hletter, hhyphen]

/-- A version that the agent reported has no letters or hyphens at the end of its printed form. -/
theorem dropEndWhile_isAgentSuffix_render {raw : String} {v : Version}
    (h : ofReport? "agent" raw = some v) :
    Text.dropEndWhile isAgentSuffix v.render.toList = v.render.toList := by
  refine Text.dropEndWhile_eq_self ?_
  refine getLast?_render_of_ofText? (p := fun c => isAgentSuffix c = false) h
    (fun c hc => isAgentSuffix_of_isDigit hc) ?_
  exact Text.getLast?_dropEndWhile _

theorem Valid.trim_render {v : Version} (h : v.Valid) :
    Text.trim v.render.toList = v.render.toList :=
  Text.trim_eq_self fun c hc => isBlank_of_isPrinted (h.isPrinted c hc)

/-- A printed version is read for a component from what the component leaves of it. -/
theorem Valid.ofReport?_render {v : Version} (h : v.Valid) (component : String) :
    ofReport? component v.render = ofText? (undecorate component v.render.toList) := by
  rw [ofReport?, h.trim_render]

theorem valid_of_ofReport? {component raw : String} {v : Version}
    (h : ofReport? component raw = some v) : v.Valid :=
  valid_of_ofText? h

/-! ## What is left of a printed version -/

theorem not_startsBuild_of_numbers {c : Char} (h : Text.isDigit c = true ∨ c = '.') :
    ¬startsBuild c := by
  rcases h with hdigit | rfl
  · exact not_startsBuild (isIdentifierChar_iff.2 (Or.inr (Or.inl hdigit)))
  · exact not_startsBuild rfl

theorem isAsciiLetter_of_numbers {c : Char} (h : Text.isDigit c = true ∨ c = '.') :
    Text.isAsciiLetter c = false := by
  rcases h with hdigit | rfl
  · exact Text.isAsciiLetter_of_isDigit hdigit
  · rfl

theorem letters_dropSeparator (text : List Char) : letters (dropSeparator text) = letters text := by
  unfold dropSeparator
  split <;> rfl

/-- In front of the build metadata, the letters of a spelling are those of the pre-release. -/
theorem Spells.letters_cutBuild {text : List Char} {v : Version} (h : Spells text v) :
    letters (cutBuild text).1 = letters v.preText := by
  rcases h.exists_continues with ⟨numbers, tail, rfl, hnumbers, htail⟩
  have hzero : letters numbers = 0 :=
    letters_eq_zero fun c hc => isAsciiLetter_of_numbers (hnumbers c hc)
  rw [cutBuild_append fun c hc => not_startsBuild_of_numbers (hnumbers c hc)]
  calc
    letters (numbers ++ (cutBuild tail).1) = letters numbers + letters (cutBuild tail).1 :=
      letters_append numbers _
    _ = letters (dropSeparator (cutBuild tail).1) := by
      rw [hzero, Nat.zero_add, letters_dropSeparator]
    _ = letters v.preText := by rw [htail.preText]

theorem Spells.build_cutBuild {text : List Char} {v : Version} (h : Spells text v) :
    (cutBuild text).2.map String.ofList = v.build := by
  rcases h.exists_continues with ⟨numbers, tail, rfl, hnumbers, htail⟩
  rw [cutBuild_append fun c hc => not_startsBuild_of_numbers (hnumbers c hc)]
  exact htail.buildText

/-- A text that starts with the numbers of a version is read as it is. -/
theorem Valid.ofText?_coreText_append {v : Version} (h : v.Valid) (tail : List Char) :
    ofText? (v.coreText ++ tail) = ofComplete? (v.coreText ++ tail) := by
  have hread := (writes_repr h.major).ofText?_eq v.minor.repr.toList (v.patch.repr.toList ++ tail)
  simpa [coreText] using hread

theorem letters_coreText (v : Version) : letters v.coreText = 0 :=
  letters_eq_zero fun _ hc => isAsciiLetter_of_numbers (mem_coreText hc)

theorem letters_preSuffix (v : Version) : letters v.preSuffix = letters v.preText := by
  rw [← dropSeparator_preSuffix, letters_dropSeparator]

/-- `pre` is what is left of the pre-release behind its hyphen, and `build` of build metadata. -/
structure Cut (v : Version) (pre : List Char) (build : Option String) : Prop where
  sublist : pre.Sublist v.preSuffix
  /-- A pre-release that was cut has lost letters. -/
  lost : pre ≠ v.preSuffix → letters pre < letters v.preSuffix
  build : ∀ b ∈ build, ∀ c ∈ b.toList, isIdentifierChar c = true

variable {v w : Version} {pre : List Char} {build : Option String}

/-- The text that a cut leaves. -/
def cutText (v : Version) (pre : List Char) (build : Option String) : List Char :=
  v.coreText ++ (pre ++ { v with build }.buildSuffix)

theorem Cut.cutBuild (hv : v.Valid) (h : Cut v pre build) :
    cutBuild (v.cutText pre build) = (v.coreText ++ pre, build.map String.toList) := by
  have hcore : ∀ c ∈ v.coreText, ¬startsBuild c := fun c hc =>
    not_startsBuild_of_numbers (mem_coreText hc)
  have hpre : ∀ c ∈ pre, ¬startsBuild c := fun c hc =>
    not_startsBuild (hv.mem_preSuffix (h.sublist.subset hc))
  rw [cutText, cutBuild_append hcore, cutBuild_append hpre, cutBuild_buildSuffix]
  simp

/-- What is left of a printed version is read as an equal version if and only if the pre-release is
whole and the build metadata is not empty. -/
theorem Cut.reads_equal_iff (hv : v.Valid) (h : Cut v pre build) :
    (∃ w, ofText? (v.cutText pre build) = some w ∧ v.compare w = .eq) ↔
      pre = v.preSuffix ∧ ∀ b ∈ build, b ≠ "" := by
  constructor
  · rintro ⟨w, hread, hcompare⟩
    have hspells : Spells (v.cutText pre build) w := by
      rw [cutText, hv.ofText?_coreText_append] at hread
      exact ofComplete?_eq_some.1 hread
    have hletters := hspells.letters_cutBuild
    have hbuild := hspells.build_cutBuild
    rw [h.cutBuild hv] at hletters hbuild
    constructor
    · by_contra hne
      -- Equal versions may differ in zeros, but not in the number of letters.
      have hlost := h.lost hne
      have hsame := letters_eq_of_compare_eq hcompare
      rw [letters_append, letters_coreText, Nat.zero_add] at hletters
      rw [letters_preSuffix] at hlost
      omega
    · rintro b hb rfl
      have hid := hspells.valid.build "" (by rw [← hbuild, Option.mem_def.1 hb]; rfl)
      cases hid
  · rintro ⟨rfl, hbuild⟩
    have hw : Valid { v with build } := by
      refine ⟨hv.major, hv.minor, hv.patch, hv.pre, fun b hb => isIdentifier_iff.2 ⟨?_, ?_⟩⟩
      · simpa using hbuild b hb
      · exact h.build b hb
    have hrender : v.cutText v.preSuffix build = ({ v with build } : Version).render.toList :=
      (toList_render { v with build }).symm
    exact ⟨{ v with build }, hrender ▸ hw.ofText?_render, compare_withBuild v build⟩

/-! ## A mark that is removed everywhere -/

/-- A word with a hyphen in front. -/
structure IsMark (mark : List Char) : Prop where
  hyphen : mark.head? = some '-'
  plus : '+' ∉ mark
  word : 0 < letters mark

theorem IsMark.ne_nil {mark : List Char} (h : IsMark mark) : mark ≠ [] := by
  rintro rfl
  cases h.hyphen

/-- Where the mark occurs, letters are removed. -/
theorem IsMark.letters_removeAll {mark text : List Char} (h : IsMark mark)
    (hpresent : mark <:+: text) : letters (Text.removeAll mark text) < letters text := by
  have hlost : letters (Text.removeAll mark text) + letters mark ≤ letters text :=
    (Text.removal_removeAll h.ne_nil text).countP_add_le hpresent h.ne_nil Text.isAsciiLetter
  have hpos := h.word
  omega

/-- The mark is not part of the pre-release behind its hyphen, and not all of build metadata. -/
structure Without (mark : String) (v : Version) : Prop where
  pre : ¬mark.toList <:+: v.preSuffix
  build : ∀ b ∈ v.build, Text.removeAll mark.toList b.toList ≠ []

/-- The build metadata without the mark. -/
def unmarkedBuild (mark : List Char) (v : Version) : Option String :=
  v.build.map fun b => String.ofList (Text.removeAll mark b.toList)

theorem IsMark.removeAll_render {mark : List Char} (h : IsMark mark) (v : Version) :
    Text.removeAll mark v.render.toList =
      v.cutText (Text.removeAll mark v.preSuffix) (v.unmarkedBuild mark) := by
  have hcore : ∀ rest,
      Text.removeAll mark (v.coreText ++ rest) = v.coreText ++ Text.removeAll mark rest := by
    intro rest
    have hhyphen : '-' ∉ v.coreText := by
      intro hmem
      rcases mem_coreText hmem with hdigit | hpoint
      · cases hdigit
      · cases hpoint
    cases mark with
    | nil => exact absurd rfl h.ne_nil
    | cons c more =>
      have hc : c = '-' := Option.some.inj h.hyphen
      subst hc
      exact Text.removeAll_append_left hhyphen rest
  rw [toList_render, hcore, cutText, unmarkedBuild, buildSuffix, buildSuffix]
  cases v.build with
  | none => simp
  | some b =>
    -- The plus sign is no part of the mark, so both sides lose it on their own.
    have hsplit := Text.removeAll_append_cons h.plus h.ne_nil v.preSuffix b.toList
    simpa using hsplit

theorem IsMark.cut {mark : List Char} (h : IsMark mark) {v : Version} (hv : v.Valid) :
    Cut v (Text.removeAll mark v.preSuffix) (v.unmarkedBuild mark) := by
  refine ⟨Text.removeAll_sublist h.ne_nil v.preSuffix, fun hne => ?_, fun b hb c hc => ?_⟩
  · by_contra hkept
    have habsent : ¬mark <:+: v.preSuffix := fun hpresent => hkept (h.letters_removeAll hpresent)
    exact hne (Text.removeAll_eq_self h.ne_nil habsent)
  · rcases Option.map_eq_some_iff.1 hb with ⟨own, hown, rfl⟩
    have hsub := Text.removeAll_sublist h.ne_nil own.toList
    rw [String.toList_ofList] at hc
    exact (isIdentifier_iff.1 (hv.build own hown)).2 c (hsub.subset hc)

theorem IsMark.reads_equal_iff {mark : String} (h : IsMark mark.toList) {v : Version}
    (hv : v.Valid) :
    (∃ w, ofText? (Text.removeAll mark.toList v.render.toList) = some w ∧ v.compare w = .eq) ↔
      Without mark v := by
  rw [h.removeAll_render, (h.cut hv).reads_equal_iff hv]
  constructor
  · rintro ⟨hpre, hbuild⟩
    refine ⟨fun hpresent => ?_, fun b hb hnil => ?_⟩
    · have hlost := h.letters_removeAll hpresent
      rw [hpre] at hlost
      exact Nat.lt_irrefl _ hlost
    · refine hbuild "" ?_ rfl
      rw [unmarkedBuild, Option.mem_def.1 hb, Option.map_some, hnil]
      rfl
  · rintro ⟨hpre, hbuild⟩
    refine ⟨Text.removeAll_eq_self h.ne_nil hpre, fun b hb => ?_⟩
    rcases Option.map_eq_some_iff.1 hb with ⟨own, hown, rfl⟩
    simpa using hbuild own hown

theorem isMark_snapshot : IsMark "-SNAPSHOT".toList := ⟨by decide, by decide, by decide⟩

theorem isMark_nightly : IsMark "-nightly".toList := ⟨by decide, by decide, by decide⟩

/-! ## The ending of an archive -/

/-- The ending of the name of an archive. -/
def archive : String := ".tar.gz"

/-- The ending is not at the end of a version without build metadata, and not all of build
metadata. -/
structure WithoutEnding (v : Version) : Prop where
  pre : v.build = none → ¬archive.toList <:+ v.preText
  build : ∀ b ∈ v.build, b ≠ archive

theorem letters_archive : letters archive.toList = 5 := by decide

/-- The ending is found at the end of build metadata. -/
theorem archive_suffix_build {b : String} (hbuild : v.build = some b)
    (h : archive.toList <:+ v.render.toList) : archive.toList <:+ b.toList := by
  have hrender : v.render.toList = (v.coreText ++ v.preSuffix) ++ '+' :: b.toList := by
    rw [toList_render, buildSuffix, hbuild, List.append_assoc]
    rfl
  rw [hrender] at h
  exact Text.suffix_of_suffix_append_cons (by decide) h

/-- Without build metadata, the ending is found at the end of the pre-release. -/
theorem archive_suffix_pre (hbuild : v.build = none) (h : archive.toList <:+ v.render.toList) :
    ∃ p, v.pre = some p ∧ archive.toList <:+ p.toList := by
  cases hpre : v.pre with
  | none =>
    -- The numbers have no letters.
    have hrender : v.render.toList = v.coreText := by
      simp [toList_render, preSuffix, buildSuffix, hpre, hbuild]
    have hle : letters archive.toList ≤ letters v.coreText := by
      rw [← hrender]
      exact h.sublist.countP_le
    rw [letters_archive, letters_coreText] at hle
    omega
  | some p =>
    have hrender : v.render.toList = v.coreText ++ '-' :: p.toList := by
      simp [toList_render, preSuffix, buildSuffix, hpre, hbuild]
    rw [hrender] at h
    exact ⟨p, rfl, Text.suffix_of_suffix_append_cons (by decide) h⟩

/-- Without build metadata, the ending takes letters of the pre-release along. -/
theorem archive_front_pre (hv : v.Valid) (hbuild : v.build = none) {front : List Char}
    (hfront : front ++ archive.toList = v.render.toList) :
    ¬∃ w, ofText? front = some w ∧ v.compare w = .eq := by
  rcases archive_suffix_pre hbuild ⟨front, hfront⟩ with ⟨p, hpre, rest, hrest⟩
  have hsuffix : v.preSuffix = '-' :: rest ++ archive.toList := by
    rw [preSuffix, hpre, List.cons_append, hrest]
    rfl
  have htext : front = v.cutText ('-' :: rest) none := by
    refine (List.append_left_inj archive.toList).1 ?_
    rw [hfront, toList_render, buildSuffix, hbuild, hsuffix, cutText, buildSuffix]
    simp
  have hlost : letters ('-' :: rest) < letters v.preSuffix := by
    rw [hsuffix, letters_append, letters_archive]
    omega
  have hcut : Cut v ('-' :: rest) none := by
    refine ⟨?_, fun _ => hlost, ?_⟩
    · rw [hsuffix]
      exact List.sublist_append_left _ _
    · intro b hb
      cases hb
  rw [htext, hcut.reads_equal_iff hv]
  rintro ⟨hsame, -⟩
  rw [hsame] at hlost
  exact Nat.lt_irrefl _ hlost

/-- Otherwise it takes build metadata only, which does not count unless nothing is left of it. -/
theorem archive_front_build (hv : v.Valid) {b : String} (hbuild : v.build = some b)
    {front : List Char} (hfront : front ++ archive.toList = v.render.toList) :
    (∃ w, ofText? front = some w ∧ v.compare w = .eq) ↔ b ≠ archive := by
  rcases archive_suffix_build hbuild ⟨front, hfront⟩ with ⟨rest, hrest⟩
  have htext : front = v.cutText v.preSuffix (some (String.ofList rest)) := by
    refine (List.append_left_inj archive.toList).1 ?_
    rw [hfront, toList_render, buildSuffix, hbuild, cutText, buildSuffix]
    simp [hrest]
  have hcut : Cut v v.preSuffix (some (String.ofList rest)) := by
    refine ⟨List.Sublist.refl _, fun hne => absurd rfl hne, ?_⟩
    rintro own ⟨⟩ c hc
    rw [String.toList_ofList] at hc
    refine (isIdentifier_iff.1 (hv.build b hbuild)).2 c ?_
    rw [← hrest]
    exact List.mem_append_left _ hc
  rw [htext, hcut.reads_equal_iff hv]
  constructor
  · rintro ⟨-, hrest'⟩ rfl
    have hnil : rest = [] := by simpa using hrest
    exact hrest' _ rfl (by simp [hnil])
  · intro hne
    refine ⟨rfl, ?_⟩
    rintro own ⟨⟩ hnil
    have hrest' : rest = [] := by simpa using hnil
    rw [hrest', List.nil_append] at hrest
    exact hne (String.toList_inj.1 hrest.symm)

theorem archive_reads_equal_iff (hv : v.Valid) :
    (∃ w, ofText? ((archive.toList.isSuffixOf? v.render.toList).getD v.render.toList) = some w ∧
      v.compare w = .eq) ↔ v.WithoutEnding := by
  have hending := hv.spells_render.ending_suffix
  unfold ending at hending
  cases hsuffix : archive.toList.isSuffixOf? v.render.toList with
  | none =>
    have hnot : ¬archive.toList <:+ v.render.toList := Text.isSuffixOf?_eq_none.1 hsuffix
    constructor
    · intro _
      refine ⟨fun hbuild hpre => ?_, fun b hb heq => ?_⟩
      · rw [hbuild] at hending
        exact hnot (hpre.trans hending)
      · rw [Option.mem_def.1 hb, heq] at hending
        exact hnot hending
    · intro _
      exact ⟨v, hv.ofText?_render, compare_self v⟩
  | some front =>
    have hfront := List.isSuffixOf?_eq_some_iff_append_eq.1 hsuffix
    rw [Option.getD_some]
    cases hbuild : v.build with
    | none =>
      rcases archive_suffix_pre hbuild ⟨front, hfront⟩ with ⟨p, hpre, hp⟩
      have hpreText : archive.toList <:+ v.preText := by
        rw [preText, hpre]
        exact hp
      constructor
      · intro hreads
        exact absurd hreads (archive_front_pre hv hbuild hfront)
      · intro hwithout
        exact absurd hpreText (hwithout.pre hbuild)
    | some b =>
      rw [archive_front_build hv hbuild hfront]
      constructor
      · intro hne
        refine ⟨fun hnone => ?_, fun own hown => ?_⟩
        · rw [hbuild] at hnone
          cases hnone
        · rw [hbuild] at hown
          cases hown
          exact hne
      · intro hwithout
        exact hwithout.build b hbuild

end Version
end TraceAudit
