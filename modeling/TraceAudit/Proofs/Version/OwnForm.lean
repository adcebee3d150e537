import TraceAudit.Proofs.Version.Decoration

/-!
# Versions and their own printed form

The printed form of a version is read again when a library under test is compared with itself. What
a component takes for decoration is then removed a second time.

* `KeepsItsForm` says that nothing of the pre-release is removed, and not all of build metadata;
* `returns_iff_keepsItsForm` says that exactly then an equal version is read;
* `own_form_answers` gives the answers to the three questions. The decorations of java, php and
  dotnet can be spelled so that they are overlooked at first: `snapshot_own_form`.
-/

namespace TraceAudit
namespace Version

variable {v : Version}

/-- What the component takes for decoration is no part of the printed version, apart from build
metadata of which something is left. -/
def KeepsItsForm (component : String) (v : Version) : Prop :=
  if component = "java" then v.Without "-SNAPSHOT"
  else if component = "dotnet" then v.WithoutEnding
  else if component = "php" then v.Without "-nightly"
  else True

/-- A version that was read for a component is read back from its printed form, up to build
metadata, if and only if it keeps its form. -/
theorem returns_iff_keepsItsForm {component raw : String} (h : ofReport? component raw = some v) :
    (∃ w, ofReport? component v.render = some w ∧ v.compare w = .eq) ↔
      v.KeepsItsForm component := by
  have hv := valid_of_ofReport? h
  have hself : ∃ w, ofText? v.render.toList = some w ∧ v.compare w = .eq :=
    ⟨v, hv.ofText?_render, compare_self v⟩
  rw [hv.ofReport?_render, undecorate_of_isPrinted hv.isPrinted (head?_render_ne v)]
  unfold KeepsItsForm
  by_cases hagent : component = "agent"
  · subst hagent
    simpa [dropEndWhile_isAgentSuffix_render h] using hself
  · rw [if_neg hagent]
    by_cases hjava : component = "java"
    · rw [if_pos hjava, if_pos hjava]
      exact isMark_snapshot.reads_equal_iff hv
    · rw [if_neg hjava, if_neg hjava]
      by_cases hdotnet : component = "dotnet"
      · rw [if_pos hdotnet, if_pos hdotnet]
        exact archive_reads_equal_iff hv
      · rw [if_neg hdotnet, if_neg hdotnet]
        by_cases hphp : component = "php"
        · rw [if_pos hphp, if_pos hphp]
          exact isMark_nightly.reads_equal_iff hv
        · simpa [hphp] using hself

theorem ofReport_eq_ok {component raw : String} :
    ofReport component raw = .ok v ↔ ofReport? component raw = some v := by
  unfold ofReport
  cases ofReport? component raw <;> simp

end Version

/-! ## Questions about the own version -/

namespace LibraryVersion

/-- The answers of a library to its own printed form: this version, and not an older one. -/
structure KnowsItself (l : LibraryVersion) : Prop where
  satisfies : l.satisfies l.render = .ok true
  atLeast : l.atLeast l.render = .ok true
  olderThan : l.olderThan l.render = .ok false

theorem ofReport_some_ok {library raw : String} {l : LibraryVersion}
    (h : ofReport library (some raw) = .ok l) :
    '@' ∉ library.toList ∧
      ∃ v, Version.ofReport? library raw = some v ∧ l = ⟨some library, some v⟩ := by
  unfold ofReport at h
  split at h
  · cases h
  · rename_i hat
    have hname : '@' ∉ library.toList := by simpa using hat
    cases hread : Version.ofReport library raw with
    | error e =>
      simp only [hread] at h
      cases h
    | ok v =>
      simp only [hread] at h
      cases h
      exact ⟨hname, v, Version.ofReport_eq_ok.1 hread, rfl⟩

/-- The questions come back as the name and the version that were printed. -/
theorem splitOnce_render {library : String} (h : '@' ∉ library.toList) (v : Version) :
    Text.splitOnce '@' (LibraryVersion.render ⟨some library, some v⟩).toList =
      some (library.toList, v.render.toList) := by
  have hrender : (LibraryVersion.render ⟨some library, some v⟩).toList =
      library.toList ++ '@' :: v.render.toList := by
    simp [LibraryVersion.render, String.toList_append]
  rw [hrender]
  exact Text.splitOnce_append h

theorem compareWith_own (library version : String) (v : Version) :
    compareWith ⟨some library, some v⟩ library version =
      (Version.ofReport library version).map fun w => some (v.compare w) := by
  have his : LibraryVersion.is ⟨some library, some v⟩ library = true := by simp [LibraryVersion.is]
  rw [compareWith, if_pos his]
  cases Version.ofReport library version <;> rfl

section

variable {library : String} (h : '@' ∉ library.toList) (v : Version)
include h

theorem satisfies_own :
    LibraryVersion.satisfies ⟨some library, some v⟩ (LibraryVersion.render ⟨some library, some v⟩) =
      (Version.ofReport library v.render).map fun w => v.compare w == .eq := by
  simp only [LibraryVersion.satisfies, splitOnce_render h, String.ofList_toList, compareWith_own]
  cases Version.ofReport library v.render <;> rfl

theorem atLeast_own :
    LibraryVersion.atLeast ⟨some library, some v⟩ (LibraryVersion.render ⟨some library, some v⟩) =
      (Version.ofReport library v.render).map fun w =>
        v.compare w == .eq || v.compare w == .gt := by
  simp only [LibraryVersion.atLeast, splitQuestion, splitOnce_render h, String.ofList_toList,
    bind, Except.bind, compareWith_own]
  cases Version.ofReport library v.render <;> rfl

theorem olderThan_own :
    LibraryVersion.olderThan ⟨some library, some v⟩ (LibraryVersion.render ⟨some library, some v⟩) =
      (Version.ofReport library v.render).map fun w => v.compare w == .lt := by
  simp only [LibraryVersion.olderThan, splitQuestion, splitOnce_render h, String.ofList_toList,
    bind, Except.bind, compareWith_own]
  cases Version.ofReport library v.render <;> rfl

theorem knowsItself_iff :
    KnowsItself ⟨some library, some v⟩ ↔
      ∃ w, Version.ofReport library v.render = .ok w ∧ v.same w = true := by
  constructor
  · -- One answer is enough to know that the printed form was read as an equal version.
    intro hknows
    have hanswer := hknows.satisfies
    rw [satisfies_own h] at hanswer
    cases hread : Version.ofReport library v.render with
    | error e =>
      rw [hread] at hanswer
      cases hanswer
    | ok w =>
      rw [hread] at hanswer
      exact ⟨w, rfl, Except.ok.inj hanswer⟩
  · rintro ⟨w, hread, hsame⟩
    have hcompare : v.compare w = .eq := by simpa [Version.same] using hsame
    refine ⟨?_, ?_, ?_⟩
    · rw [satisfies_own h, hread, Except.map, hcompare]
      rfl
    · rw [atLeast_own h, hread, Except.map, hcompare]
      rfl
    · rw [olderThan_own h, hread, Except.map, hcompare]
      rfl

end

/-- A library that reported a version recognises its own printed form if and only if the version
keeps its form, which is the same as being read back as an equal version. -/
theorem own_form_answers {library raw : String} {l : LibraryVersion}
    (h : ofReport library (some raw) = .ok l) :
    ∃ v, l = ⟨some library, some v⟩ ∧
      (l.KnowsItself ↔ v.KeepsItsForm library) ∧
      ((∃ w, Version.ofReport library v.render = .ok w ∧ v.same w = true) ↔
        v.KeepsItsForm library) := by
  rcases ofReport_some_ok h with ⟨hname, v, hread, rfl⟩
  have hreturns : (∃ w, Version.ofReport library v.render = .ok w ∧ v.same w = true) ↔
      v.KeepsItsForm library := by
    rw [← Version.returns_iff_keepsItsForm hread]
    simp [Version.ofReport_eq_ok, Version.same]
  refine ⟨v, rfl, ?_, hreturns⟩
  rw [knowsItself_iff hname, hreturns]

/-- A snapshot that java spells with a hyphen keeps its form. -/
theorem own_form_answers_hyphen :
    KnowsItself ⟨some "java", some ⟨1, 30, 0, none, some "b7"⟩⟩ := by
  have hread : ofReport "java" (some "1.30.0-SNAPSHOT+b7~9ab3f") =
      .ok ⟨some "java", some ⟨1, 30, 0, none, some "b7"⟩⟩ := by decide +kernel
  have hform : Version.KeepsItsForm "java" ⟨1, 30, 0, none, some "b7"⟩ := by
    refine ⟨by decide, ?_⟩
    rintro b ⟨⟩
    decide
  rcases own_form_answers hread with ⟨v, heq, hknows, -⟩
  cases heq
  exact hknows.2 hform

/-- The java decoration behind a point is overlooked when it is read and removed when it is
printed. -/
theorem snapshot_own_form :
    ∃ l, ofReport "java" (some "1.2.3.SNAPSHOT") = .ok l ∧
      l.render = "java@1.2.3-SNAPSHOT" ∧
      l.satisfies l.render = .ok false ∧
      l.atLeast l.render = .ok false ∧
      l.olderThan l.render = .ok true :=
  ⟨⟨some "java", some ⟨1, 2, 3, some "SNAPSHOT", none⟩⟩, by decide +kernel, by decide +kernel,
    by decide +kernel, by decide +kernel, by decide +kernel⟩

end LibraryVersion
end TraceAudit
