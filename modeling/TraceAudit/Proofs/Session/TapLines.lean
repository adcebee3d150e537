import TraceAudit.Proofs.Session.Failures
import TraceAudit.Proofs.Text.Cutting
import TraceAudit.Proofs.Trace.Numeral
import TraceAudit.Session.Finish
import TraceAudit.Session.Tap

/-!
# The lines of a report

A report is read line by line, and texts of tests, payloads and parsers are embedded in it at many
places.

* `IsTap` says which lines the text of a report has;
* `TapReport.splitOn_render`: the lines of the text are those of its parts, and only a title may
  give several lines;
* `isTap_iff`: the text has the right lines just if no title goes on with a line that is no comment.
-/

namespace TraceAudit

/-! ## What is asked of the text -/

/-- The line tells how a test point went. -/
def isStatus (line : List Char) : Bool :=
  "ok ".toList.isPrefixOf line || "not ok ".toList.isPrefixOf line

/-- The line is a comment, on a test point or on the whole. -/
def isComment (line : List Char) : Bool :=
  "  # ".toList.isPrefixOf line || "# ".toList.isPrefixOf line

/-- The start of the line of a point. -/
def statusOf (passed : Bool) (number : Nat) : String :=
  (if passed then "ok" else "not ok") ++ s!" {number} "

/-- The number of points of a report: the verdicts, the interfaces with corrupt log entries and the
failures of the engine. -/
def SessionReport.pointCount (r : SessionReport) : Nat :=
  r.verdicts.length + (r.corrupt.countP fun c => !c.2.isEmpty) + r.errors.length

/-- There is a verdict at this place, counted from zero, and it is a pass. -/
def SessionReport.passesAt (r : SessionReport) (k : Nat) : Bool :=
  r.verdicts[k]?.any Verdict.isPassed

/-- The text ends with a line feed, and the lines behind the version and the plan are `body`: for
each point one line, in order, that has its number and tells whether it is a passed verdict, and
besides only comments. -/
structure IsTap (r : SessionReport) (text : String) (body : List (List Char)) : Prop where
  lines : Text.splitOn '\n' text.toList =
    "TAP version 14".toList :: s!"1..{r.pointCount}".toList :: body ++ [[]]
  kinds : ∀ line ∈ body, isStatus line = true ∨ isComment line = true
  count : (body.filter isStatus).length = r.pointCount
  numbered : ∀ k line, (body.filter isStatus)[k]? = some line →
    (statusOf (r.passesAt k) (k + 1)).toList <+: line

theorem isStatus_of_isComment {line : List Char} (h : isComment line = true) :
    isStatus line = false := by
  cases line with
  | nil => rfl
  | cons c rest =>
    -- A comment starts with a blank or with its mark, and the line of a point with neither.
    have hstart : c = ' ' ∨ c = '#' := by
      simp only [isComment, Bool.or_eq_true, List.isPrefixOf_iff_prefix] at h
      rcases h with h | h
      · exact Or.inl (List.cons_prefix_cons.1 h).1.symm
      · exact Or.inr (List.cons_prefix_cons.1 h).1.symm
    rcases hstart with rfl | rfl <;> rfl

/-! ## The lines of a point -/

/-- The lines of texts each of which is ended by a line feed. -/
def linesOf (texts : List String) : List (List Char) :=
  texts.flatMap fun text => Text.splitOn '\n' text.toList

theorem linesOf_append (a b : List String) : linesOf (a ++ b) = linesOf a ++ linesOf b :=
  List.flatMap_append

theorem linesOf_of_notMem {texts : List String} (h : ∀ text ∈ texts, '\n' ∉ text.toList) :
    linesOf texts = texts.map String.toList := by
  induction texts with
  | nil => rfl
  | cons text rest ih =>
    rw [linesOf, List.flatMap_cons, Text.splitOn_of_not_mem (h text List.mem_cons_self)]
    exact congrArg (text.toList :: ·) (ih fun text htext => h text (List.mem_cons_of_mem _ htext))

theorem newline_notMem_toDigits (n : Nat) : '\n' ∉ Nat.toDigits 10 n := by
  intro h
  have hdigit := Decimal.isDigit_of_mem_repr (n := n) (by simpa using h)
  exact absurd hdigit (by decide)

namespace TestPoint

/-- The lines with which a title goes on. -/
def overflow (p : TestPoint) : List (List Char) := (Text.splitOn '\n' p.title.toList).tail

/-- The line of the point itself. -/
def heading (number : Nat) (p : TestPoint) : List Char :=
  (statusOf p.ok number ++ "- ").toList ++ (Text.splitOn '\n' p.title.toList).headD []

theorem isStatus_heading (number : Nat) (p : TestPoint) :
    isStatus (p.heading number) = true := by
  unfold heading statusOf isStatus
  cases p.ok <;> simp [toString]

theorem noteLines_comment {p : TestPoint} {text : String} (h : text ∈ p.noteLines) :
    '\n' ∉ text.toList ∧ isComment text.toList = true := by
  rcases List.mem_flatMap.1 h with ⟨note, -, h⟩
  rcases List.mem_map.1 h with ⟨line, hline, rfl⟩
  have hline' := Text.notMem_of_mem_lines hline
  simp only [String.toList_append, String.toList_ofList]
  exact ⟨by simpa using hline', rfl⟩

theorem linesOf_lines (number : Nat) (p : TestPoint) :
    linesOf (p.lines number) =
      p.heading number :: (p.overflow ++ p.noteLines.map String.toList) := by
  have hfront : '\n' ∉ (statusOf p.ok number ++ "- ").toList := by
    unfold statusOf
    cases p.ok <;> simp [toString, newline_notMem_toDigits]
  have htitle :
      (let status := if p.ok then "ok" else "not ok"
       s!"{status} {number} - {p.title}").toList =
      (statusOf p.ok number ++ "- ").toList ++ p.title.toList := by
    simp [statusOf, toString]
  have hnotes := linesOf_of_notMem fun text h => (noteLines_comment (p := p) h).1
  rw [lines, linesOf, List.flatMap_cons, htitle, Text.splitOn_append_left hfront]
  exact congrArg (p.heading number :: ·) (congrArg (p.overflow ++ ·) hnotes)

/-- The lines of a point that look like lines of points. -/
theorem filter_lines (number : Nat) (p : TestPoint) :
    (linesOf (p.lines number)).filter isStatus =
      p.heading number :: p.overflow.filter isStatus := by
  have hnotes : (p.noteLines.map String.toList).filter isStatus = [] := by
    refine List.filter_eq_nil_iff.2 fun line hline => ?_
    rcases List.mem_map.1 hline with ⟨text, htext, rfl⟩
    simp [isStatus_of_isComment (noteLines_comment htext).2]
  rw [linesOf_lines, List.filter_cons_of_pos (p.isStatus_heading number), List.filter_append,
    hnotes, List.append_nil]

end TestPoint

/-! ## The lines of all points -/

namespace TapReport

theorem linesOf_pointLines (number : Nat) (p : TestPoint) (rest : List TestPoint) :
    linesOf (pointLines number (p :: rest)) =
      linesOf (p.lines number) ++ linesOf (pointLines (number + 1) rest) :=
  linesOf_append _ _

/-- Besides one line for each point, only titles give lines that look like lines of points. -/
theorem length_filter_pointLines (number : Nat) (points : List TestPoint) :
    ((linesOf (pointLines number points)).filter isStatus).length =
      points.length + ((points.flatMap TestPoint.overflow).filter isStatus).length := by
  induction points generalizing number with
  | nil => rfl
  | cons p rest ih =>
    rw [linesOf_pointLines, List.filter_append, TestPoint.filter_lines, List.length_append, ih,
      List.flatMap_cons, List.filter_append, List.length_append, List.length_cons,
      List.length_cons]
    omega

theorem mem_pointLines {number : Nat} {points : List TestPoint} {line : List Char}
    (h : line ∈ linesOf (pointLines number points)) :
    isStatus line = true ∨ isComment line = true ∨ ∃ p ∈ points, line ∈ p.overflow := by
  induction points generalizing number with
  | nil => cases h
  | cons p rest ih =>
    rw [linesOf_pointLines, TestPoint.linesOf_lines] at h
    rcases List.mem_append.1 h with h | h
    · rcases List.mem_cons.1 h with rfl | h
      · exact Or.inl (p.isStatus_heading number)
      · rcases List.mem_append.1 h with h | h
        · exact Or.inr (Or.inr ⟨p, List.mem_cons_self, h⟩)
        · rcases List.mem_map.1 h with ⟨text, htext, rfl⟩
          exact Or.inr (Or.inl (TestPoint.noteLines_comment htext).2)
    · rcases ih h with h | h | ⟨q, hq, h⟩
      · exact Or.inl h
      · exact Or.inr (Or.inl h)
      · exact Or.inr (Or.inr ⟨q, List.mem_cons_of_mem p hq, h⟩)

theorem overflow_subset (number : Nat) {points : List TestPoint} {p : TestPoint}
    (hp : p ∈ points) : p.overflow ⊆ linesOf (pointLines number points) := by
  intro line hline
  induction points generalizing number with
  | nil => cases hp
  | cons q rest ih =>
    rw [linesOf_pointLines]
    rcases List.mem_cons.1 hp with rfl | hp
    · refine List.mem_append_left _ ?_
      rw [TestPoint.linesOf_lines]
      exact List.mem_cons_of_mem _ (List.mem_append_left _ hline)
    · exact List.mem_append_right _ (ih (number + 1) hp)

/-- Where titles go on with comments only, the lines of the points are numbered one by one. -/
theorem getElem?_pointLines {number : Nat} {points : List TestPoint}
    (h : ∀ p ∈ points, ∀ line ∈ p.overflow, isComment line = true) {k : Nat} {line : List Char}
    (hline : ((linesOf (pointLines number points)).filter isStatus)[k]? = some line) :
    ∃ p, points[k]? = some p ∧ line = p.heading (number + k) := by
  induction points generalizing number k with
  | nil => cases hline
  | cons p rest ih =>
    have hnone : p.overflow.filter isStatus = [] := by
      refine List.filter_eq_nil_iff.2 fun line hmem => ?_
      simp [isStatus_of_isComment (h p List.mem_cons_self line hmem)]
    rw [linesOf_pointLines, List.filter_append, TestPoint.filter_lines, hnone] at hline
    cases k with
    | zero => exact ⟨p, rfl, (Option.some.inj hline).symm⟩
    | succ k =>
      rcases ih (fun q hq => h q (List.mem_cons_of_mem p hq)) (k := k) hline with ⟨q, hq, rfl⟩
      exact ⟨q, hq, by rw [Nat.add_assoc, Nat.add_comm 1 k]⟩

/-! ## The whole text -/

/-- The lines behind the points. -/
def summary (t : TapReport) : List String :=
  [ s!"# tests {t.points.length}",
    s!"# pass  {t.points.length - t.failureCount}",
    s!"# fail  {t.failureCount}" ]

theorem summary_comment {t : TapReport} {text : String} (h : text ∈ t.summary) :
    '\n' ∉ text.toList ∧ isComment text.toList = true := by
  simp only [summary, List.mem_cons, List.not_mem_nil, or_false] at h
  rcases h with rfl | rfl | rfl <;> simp [isComment, toString, newline_notMem_toDigits]

/-- The lines behind the version and the plan. -/
def body (t : TapReport) : List (List Char) :=
  linesOf (pointLines 1 t.points) ++ t.summary.map String.toList

theorem splitOn_render (t : TapReport) :
    Text.splitOn '\n' t.render.toList =
      "TAP version 14".toList :: s!"1..{t.points.length}".toList :: t.body ++ [[]] := by
  have hended : t.render.toList = (t.textLines.map String.toList).flatMap (· ++ ['\n']) := by
    simp [render, String.toList_join, List.flatMap_map]
  have hsummary := linesOf_of_notMem fun text h => (summary_comment (t := t) h).1
  have hplan : '\n' ∉ (s!"1..{t.points.length}").toList := by
    simp [toString, newline_notMem_toDigits]
  have hlines : linesOf t.textLines =
      "TAP version 14".toList :: s!"1..{t.points.length}".toList :: t.body := by
    have htext : t.textLines =
        ["TAP version 14", s!"1..{t.points.length}"] ++ (pointLines 1 t.points ++ t.summary) := rfl
    rw [htext, linesOf_append, linesOf_append, hsummary, linesOf_of_notMem]
    · rfl
    · intro text h
      rcases List.mem_cons.1 h with rfl | h
      · decide
      · rw [List.mem_singleton.1 h]
        exact hplan
  rw [hended, Text.splitOn_ended, List.flatMap_map, ← linesOf, hlines]

theorem filter_body (t : TapReport) :
    t.body.filter isStatus = (linesOf (pointLines 1 t.points)).filter isStatus := by
  have hsummary : (t.summary.map String.toList).filter isStatus = [] := by
    refine List.filter_eq_nil_iff.2 fun line hline => ?_
    rcases List.mem_map.1 hline with ⟨text, htext, rfl⟩
    simp [isStatus_of_isComment (summary_comment htext).2]
  rw [body, List.filter_append, hsummary, List.append_nil]

/-! ## The points of a report -/

section Points

variable (r : SessionReport)

theorem length_points :
    (ofReport r).points.length = r.verdicts.length + r.corrupt.length + r.errors.length := by
  simp [ofReport, Nat.add_assoc]

theorem length_points_eq_iff :
    (ofReport r).points.length = r.pointCount ↔ ∀ c ∈ r.corrupt, c.2 ≠ [] := by
  have hall := List.countP_eq_length (p := fun c : String × List CorruptEntry => !c.2.isEmpty)
    (l := r.corrupt)
  rw [length_points, SessionReport.pointCount]
  constructor
  · intro h c hc
    have hc' := hall.1 (by omega) c hc
    simpa using hc'
  · intro h
    have hcount := hall.2 fun c hc => by simpa using h c hc
    omega

/-- A point passes just if it is the one of a passed verdict. -/
theorem ok_of_getElem? {k : Nat} {p : TestPoint} (h : (ofReport r).points[k]? = some p) :
    p.ok = r.passesAt k := by
  have hpoints : (ofReport r).points = r.verdicts.map TestPoint.ofVerdict ++
      ((r.corrupt.map fun c => TestPoint.ofCorrupt r.detail c.1 c.2) ++
        r.errors.map TestPoint.ofError) := List.append_assoc _ _ _
  rw [hpoints] at h
  by_cases hk : k < r.verdicts.length
  · rw [List.getElem?_append_left (by simpa using hk), List.getElem?_map] at h
    rcases Option.map_eq_some_iff.1 h with ⟨v, hv, rfl⟩
    rw [SessionReport.passesAt, hv]
    rfl
  · have hnone : r.verdicts[k]? = none := List.getElem?_eq_none (Nat.le_of_not_lt hk)
    rw [List.getElem?_append_right (by simpa using hk)] at h
    rw [SessionReport.passesAt, hnone]
    -- No other point is ok.
    rcases List.mem_append.1 (List.mem_of_getElem? h) with hmem | hmem
    · rcases List.mem_map.1 hmem with ⟨c, -, rfl⟩
      rfl
    · rcases List.mem_map.1 hmem with ⟨e, -, rfl⟩
      rfl

end Points

end TapReport

/-! ## Which reports have the right lines -/

theorem plan_inj {n m : Nat} (h : (s!"1..{n}").toList = (s!"1..{m}").toList) : n = m := by
  have hrepr : n.repr.toList = m.repr.toList := by simpa [toString] using h
  have hnumber := Decimal.natural?_repr n
  rw [hrepr, Decimal.natural?_repr m] at hnumber
  exact (Option.some.inj hnumber).symm

/-- A report has the right lines just if all interfaces that it lists have corrupt log entries and
titles that go on behind a line feed go on with comments. -/
theorem isTap_iff (r : SessionReport) :
    (∃ body, IsTap r (TapReport.ofReport r).render body) ↔
      (∀ c ∈ r.corrupt, c.2 ≠ []) ∧
        ∀ p ∈ (TapReport.ofReport r).points, ∀ line ∈ p.overflow, isComment line = true := by
  let t := TapReport.ofReport r
  have hlength := TapReport.length_filter_pointLines 1 t.points
  rw [← TapReport.filter_body] at hlength
  constructor
  · rintro ⟨body, h⟩
    have hsame := t.splitOn_render.symm.trans h.lines
    rw [List.cons_append, List.cons_append, List.cons_append, List.cons_append, List.cons.injEq,
      List.cons.injEq] at hsame
    rcases hsame with ⟨-, hplan, hbody⟩
    -- By the plan there are as many lines of points as points, so titles give no more of them.
    have hcount : t.points.length = r.pointCount := plan_inj hplan
    have hbody' : t.body = body := List.append_cancel_right hbody
    rw [hbody', h.count, ← hcount] at hlength
    have hnone : (t.points.flatMap TestPoint.overflow).filter isStatus = [] :=
      List.length_eq_zero_iff.1 (by omega)
    refine ⟨(TapReport.length_points_eq_iff r).1 hcount, fun p hp line hline => ?_⟩
    -- The line is one of the text, and it does not look like the line of a point.
    have hmem : line ∈ body := by
      rw [← hbody']
      exact List.mem_append_left _ (TapReport.overflow_subset 1 hp hline)
    have hnot := List.filter_eq_nil_iff.1 hnone line (List.mem_flatMap.2 ⟨p, hp, hline⟩)
    exact (h.kinds line hmem).resolve_left hnot
  · rintro ⟨hentries, hcomments⟩
    have hcount : t.points.length = r.pointCount :=
      (TapReport.length_points_eq_iff r).2 hentries
    have hnone : (t.points.flatMap TestPoint.overflow).filter isStatus = [] := by
      refine List.filter_eq_nil_iff.2 fun line hline => ?_
      rcases List.mem_flatMap.1 hline with ⟨p, hp, hline⟩
      simp [isStatus_of_isComment (hcomments p hp line hline)]
    refine ⟨t.body, ?_, ?_, ?_, ?_⟩
    · rw [← hcount]
      exact t.splitOn_render
    · intro line hline
      rcases List.mem_append.1 hline with hline | hline
      · rcases TapReport.mem_pointLines hline with h | h | ⟨p, hp, h⟩
        · exact Or.inl h
        · exact Or.inr h
        · exact Or.inr (hcomments p hp line h)
      · rcases List.mem_map.1 hline with ⟨text, htext, rfl⟩
        exact Or.inr (TapReport.summary_comment htext).2
    · rw [hlength, hnone, hcount]
      rfl
    · intro k line hline
      rw [TapReport.filter_body] at hline
      rcases TapReport.getElem?_pointLines hcomments hline with ⟨p, hp, rfl⟩
      rw [← TapReport.ok_of_getElem? r hp, Nat.add_comm k 1, TestPoint.heading,
        String.toList_append, List.append_assoc]
      exact List.prefix_append _ _

/-! ## Reports of sessions -/

theorem Source.newline_notMem_name (source : Source) : '\n' ∉ source.name.toList := by
  cases source with
  | buddy n => simp [name, toString, newline_notMem_toDigits]
  | _ => decide

/-- Where the interfaces that a report lists are named like sources and have corrupt log entries,
only the titles of verdicts count. -/
theorem isTap_of_verdicts {r : SessionReport}
    (hcorrupt : ∀ c ∈ r.corrupt, '\n' ∉ c.1.toList ∧ c.2 ≠ [])
    (hverdicts : ∀ v ∈ r.verdicts, '\n' ∉ v.testId.toList ∧ '\n' ∉ v.description.toList) :
    ∃ body, IsTap r (TapReport.ofReport r).render body := by
  refine (isTap_iff r).2 ⟨fun c hc => (hcorrupt c hc).2, fun p hp line hline => ?_⟩
  -- No title has a line feed.
  have htitle : '\n' ∉ p.title.toList := by
    simp only [TapReport.ofReport, List.mem_append, List.mem_map] at hp
    rcases hp with (⟨v, hv, rfl⟩ | ⟨c, hc, rfl⟩) | ⟨e, -, rfl⟩
    · rcases hverdicts v hv with ⟨htest, hdescription⟩
      simp [TestPoint.ofVerdict, toString, htest, hdescription, v.interface.newline_notMem_name]
    · simp [TestPoint.ofCorrupt, toString, (hcorrupt c hc).1, newline_notMem_toDigits]
    · simp [TestPoint.ofError]
  rw [TestPoint.overflow, Text.splitOn_of_not_mem htitle] at hline
  cases hline

end TraceAudit
