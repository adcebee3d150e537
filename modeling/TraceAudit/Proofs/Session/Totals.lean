import TraceAudit.Proofs.Session.TapLines
import TraceAudit.Proofs.Text.Distinct

/-!
# Totals of a report

Verdicts are counted, grouped by test and listed as test points.

* `SessionReport.ByTest` says what it takes to group verdicts, `SessionReport.byTest_groups` that
  reports do;
* `SessionReport.mem_failedTests` says which tests failed;
* `TapReport.failureCount_ofReport` counts the points that are not ok, and
  `TapReport.ends_with_zero_iff` finds that count at the end of the text.
-/

namespace TraceAudit

namespace SessionReport

/-- Groups that verdicts fall into by their tests. -/
structure ByTest (verdicts : List Verdict) (groups : List (String × List Verdict)) : Prop where
  ascending : (groups.map (·.1)).Pairwise (· < ·)
  covered : (groups.flatMap (·.2)).Perm verdicts
  own : ∀ g ∈ groups, g.2 ≠ [] ∧ ∀ v ∈ g.2, v.testId = g.1
  inOrder : ∀ g ∈ groups, g.2.Sublist verdicts

/-- Items that are picked key by key are all picked, and none of them twice. -/
theorem flatMap_filter_perm {α β : Type} [BEq β] [LawfulBEq β] (key : α → β) {keys : List β}
    (hnodup : keys.Nodup) {items : List α} (hkeys : ∀ item ∈ items, key item ∈ keys) :
    (keys.flatMap fun k => items.filter (key · == k)).Perm items := by
  induction keys generalizing items with
  | nil =>
    have hnone : items = [] :=
      List.eq_nil_iff_forall_not_mem.2 fun item hitem => List.not_mem_nil (hkeys item hitem)
    rw [hnone]
    exact List.Perm.refl _
  | cons k rest ih =>
    rcases List.nodup_cons.1 hnodup with ⟨hnotMem, hrest⟩
    -- What is not picked by the first key is picked by the others.
    have hleft : ∀ item ∈ items.filter (!key · == k), key item ∈ rest := by
      intro item hitem
      rcases List.mem_filter.1 hitem with ⟨hmem, hne⟩
      exact (List.mem_cons.1 (hkeys item hmem)).resolve_left (by simpa using hne)
    have hothers := ih hrest hleft
    have hsame : (rest.flatMap fun l => (items.filter (!key · == k)).filter (key · == l)) =
        rest.flatMap fun l => items.filter (key · == l) := by
      refine List.flatMap_congr fun l hl => ?_
      rw [List.filter_filter]
      refine List.filter_congr fun item _ => ?_
      by_cases hkey : key item = l
      · have hne : l ≠ k := fun heq => hnotMem (heq ▸ hl)
        simp [hkey, hne]
      · simp [hkey]
    rw [hsame] at hothers
    exact (hothers.append_left _).trans (List.filter_append_perm (key · == k) items)

variable (r : SessionReport)

theorem passed_add_failed : r.passed + r.failed = r.total := by
  have hsplit := List.length_eq_countP_add_countP Verdict.isPassed (l := r.verdicts)
  rw [passed, failed, total, hsplit]
  simp

theorem byTest_groups : ByTest r.verdicts r.byTest := by
  have hkeys : r.byTest.map (·.1) = Text.distinct (r.verdicts.map (·.testId)) := by
    rw [byTest, List.map_map]
    exact List.map_id _
  have hascending := Text.pairwise_distinct (r.verdicts.map (·.testId))
  refine ⟨by rwa [hkeys], ?_, fun g hg => ?_, fun g hg => ?_⟩
  · rw [byTest, List.flatMap_map]
    refine flatMap_filter_perm Verdict.testId (hascending.imp fun hlt => ne_of_lt hlt) ?_
    intro v hv
    exact Text.mem_distinct.2 (List.mem_map_of_mem hv)
  · rcases List.mem_map.1 hg with ⟨testId, htest, rfl⟩
    rcases List.mem_map.1 (Text.mem_distinct.1 htest) with ⟨v, hv, hid⟩
    refine ⟨List.ne_nil_of_mem (List.mem_filter.2 ⟨hv, by simpa using hid⟩), fun w hw => ?_⟩
    simpa using (List.mem_filter.1 hw).2
  · rcases List.mem_map.1 hg with ⟨testId, -, rfl⟩
    exact List.filter_sublist

theorem failedTests_ascending : r.failedTests.Pairwise (· < ·) :=
  r.byTest_groups.ascending.sublist (List.filter_sublist.map Prod.fst)

theorem mem_failedTests {testId : String} :
    testId ∈ r.failedTests ↔ ∃ v ∈ r.verdicts, v.testId = testId ∧ v.isPassed = false := by
  rw [failedTests, List.mem_map]
  constructor
  · rintro ⟨g, hg, rfl⟩
    rcases List.mem_filter.1 hg with ⟨hgroup, hany⟩
    rcases List.any_eq_true.1 hany with ⟨v, hv, hfailed⟩
    refine ⟨v, (r.byTest_groups.inOrder g hgroup).subset hv, ?_, by simpa using hfailed⟩
    exact (r.byTest_groups.own g hgroup).2 v hv
  · rintro ⟨v, hv, rfl, hfailed⟩
    -- The verdict is in the group of its test.
    have hcovered := r.byTest_groups.covered.mem_iff.2 hv
    rcases List.mem_flatMap.1 hcovered with ⟨g, hg, hmem⟩
    refine ⟨g, List.mem_filter.2 ⟨hg, ?_⟩, ((r.byTest_groups.own g hg).2 v hmem).symm⟩
    exact List.any_eq_true.2 ⟨v, hmem, by simpa using hfailed⟩

end SessionReport

namespace TapReport

/-- A report has a point that is not ok for every verdict that is no pass, for every interface that
is listed as corrupt and for every failure of the engine. -/
theorem failureCount_ofReport (r : SessionReport) :
    (ofReport r).failureCount = r.failed + r.corrupt.length + r.errors.length := by
  have hcorrupt := List.countP_eq_length (p := fun _ : String × List CorruptEntry => true)
    (l := r.corrupt)
  have herrors := List.countP_eq_length (p := fun _ : String => true) (l := r.errors)
  simp only [implies_true, iff_true] at hcorrupt herrors
  rw [failureCount, ofReport, List.countP_append, List.countP_append, List.countP_map,
    List.countP_map, List.countP_map]
  exact congrArg₂ (· + ·) (congrArg (r.failed + ·) hcorrupt) herrors

theorem render_ends (t : TapReport) :
    ∃ front : List Char,
      t.render.toList = front ++ ("# fail  ".toList ++ t.failureCount.repr.toList) ++ ['\n'] := by
  have hlines : t.textLines =
      ("TAP version 14" :: s!"1..{t.points.length}" :: pointLines 1 t.points ++
        [s!"# tests {t.points.length}", s!"# pass  {t.points.length - t.failureCount}"]) ++
      [s!"# fail  {t.failureCount}"] :=
    (List.append_assoc _ [_, _] [_]).symm
  rw [render, hlines, List.map_append, String.join_append, String.toList_append, List.map_singleton]
  refine ⟨_, (congrArg (_ ++ ·) ?_).trans (List.append_assoc _ _ _).symm⟩
  simp [String.join, toString]

/-- No digit is a blank, so no longer number ends in a blank and a zero. -/
theorem ends_with_zero_iff (t : TapReport) :
    "# fail  0\n".toList <:+ t.render.toList ↔ t.failureCount = 0 := by
  rcases t.render_ends with ⟨front, hrender⟩
  have hnumber := Decimal.natural?_repr t.failureCount
  have hdigit : ∀ c ∈ t.failureCount.repr.toList, Text.isDigit c = true :=
    fun c => Decimal.isDigit_of_mem_repr
  rw [hrender]
  constructor
  · rintro ⟨before, hsame⟩
    have hended : ((before ++ "# fail ".toList ++ [' ']) ++ ['0']) ++ ['\n'] =
        ((front ++ "# fail  ".toList) ++ t.failureCount.repr.toList) ++ ['\n'] := by
      simpa using hsame
    have hline := (List.append_inj' hended rfl).1
    rcases List.eq_nil_or_concat t.failureCount.repr.toList with hnil | ⟨others, last, hdigits⟩
    · rw [hnil] at hnumber
      cases hnumber
    · rw [hdigits, List.concat_eq_append, ← List.append_assoc] at hline
      rcases List.append_inj' hline rfl with ⟨hfront, hlast⟩
      rcases List.eq_nil_or_concat others with rfl | ⟨more, c, rfl⟩
      · -- The number has one digit.
        rw [hdigits, ← (List.cons.inj hlast).1] at hnumber
        exact (Option.some.inj hnumber).symm
      · rw [List.concat_eq_append, ← List.append_assoc] at hfront
        have hblank : ' ' = c := (List.cons.inj (List.append_inj' hfront rfl).2).1
        have hmem : c ∈ t.failureCount.repr.toList := by simp [hdigits]
        have hc := hdigit c hmem
        rw [← hblank] at hc
        cases hc
  · intro hzero
    refine ⟨front, ?_⟩
    rw [hzero, List.append_assoc]
    rfl

end TapReport
end TraceAudit
