import TraceAudit.Proofs.CommandLine.ExitStatus
import TraceAudit.Proofs.Validator.ArrivalOrder

/-!
# The lines that are printed

The checks that a command registers have titles of one line, so the text that it prints on its
session has the right lines, whatever the log files hold.

* `Session.mem_waiting_register` says what waits for a verdict after a registration, and
  `Command.Evaluates.oneLine` that a command gives verdicts with titles of one line only;
* `tap_lines` tells for all reports which have the right lines, and takes sessions and commands
  together.
-/

namespace TraceAudit

/-- Neither the id of the test nor what it asserts goes over several lines. -/
def Receipt.OneLine (r : Receipt) : Prop := '\n' ∉ r.testId.toList ∧ '\n' ∉ r.description.toList

/-! ## Sessions -/

namespace Session

theorem Started.waiting_eq_nil {s : Session} (h : s.Started) : waiting s.ledgers = [] := by
  rcases h.ledgers with ⟨sources, -, hledgers, -⟩
  rw [waiting, hledgers, List.flatMap_map]
  exact List.flatMap_eq_nil_iff.2 fun _ _ => rfl

/-- After a registration, what waits is of the test and the assertion that were given, or waited
before. -/
theorem mem_waiting_register {s t : Session} {source : Source} {testId : String}
    {assertion : Assertion} {id : Nat} (h : s.register source testId assertion = .ok (t, id))
    {r : Receipt} (hr : r ∈ waiting t.ledgers) :
    r ∈ waiting s.ledgers ∨ r.testId = testId ∧ r.description = assertion.describe := by
  rw [register, on] at h
  cases hfind : s.interface? source with
  | none =>
    rw [hfind] at h
    cases h
  | some i =>
    cases hclosed : i.closed with
    | true => simp [hfind, Interface.register, hclosed, bind, Except.bind] at h
    | false =>
      simp only [hfind, Interface.register, hclosed, bind, Except.bind] at h
      cases h
      rcases List.mem_flatMap.1 hr with ⟨l, hl, hr⟩
      rcases mem_ledgers_setInterface hl with rfl | ⟨hl, -⟩
      · -- The queue of the interface is the one from before, with one validator more.
        rcases List.mem_map.1 hr with ⟨v, hv, rfl⟩
        rcases List.mem_append.1 hv with hv | hv
        · have hi : i.ledger ∈ s.ledgers := List.mem_map_of_mem (interface?_mem hfind).1
          exact Or.inl (List.mem_flatMap.2 ⟨i.ledger, hi, List.mem_map_of_mem hv⟩)
        · rw [List.mem_singleton.1 hv]
          exact Or.inr ⟨rfl, rfl⟩
      · exact Or.inl (List.mem_flatMap.2 ⟨l, hl, hr⟩)

theorem oneLine_finish {s : Session} (disk : Disk) (h : s.Complete)
    (hwaiting : ∀ r ∈ waiting s.ledgers, r.OneLine) :
    ∀ v ∈ (s.finish disk).verdicts, v.receipt.OneLine := by
  intro v hv
  have hdistinct : (s.ledgers.map (·.source)).Nodup := by
    rw [ledgers, List.map_map]
    exact h.distinct
  -- The verdicts of a report are those on what waits when the session ends.
  have hreceipt := List.mem_map_of_mem (f := Verdict.receipt) hv
  rw [finish_receipts s disk hdistinct] at hreceipt
  exact hwaiting v.receipt hreceipt

/-- A report names interfaces like their sources, and lists as corrupt only those that have corrupt
log entries. -/
theorem isTap_finish {s : Session} (disk : Disk)
    (hverdicts : ∀ v ∈ (s.finish disk).verdicts, v.receipt.OneLine) :
    ∃ body, IsTap (s.finish disk) (TapReport.ofReport (s.finish disk)).render body := by
  refine isTap_of_verdicts (fun c hc => ?_) hverdicts
  rcases mem_corruptByName hc with ⟨i, -, rfl, hentries⟩
  exact ⟨i.source.newline_notMem_name, hentries⟩

end Session

/-! ## Commands -/

namespace Command

theorem describe_sessionChecks {scenario : Scenario} {allowed : List String}
    {check : Source × Assertion} (h : check ∈ sessionChecks scenario allowed) :
    '\n' ∉ check.2.describe.toList := by
  simp only [sessionChecks, List.mem_append, List.mem_map, List.mem_cons] at h
  rcases h with ⟨source, -, rfl⟩ | rfl | h
  · exact (by decide : '\n' ∉ "schema conformance".toList)
  · exact (by decide : '\n' ∉ "trace id uniqueness".toList)
  · split at h
    · simp only [List.mem_cons, List.not_mem_nil, or_false] at h
      rcases h with rfl | rfl <;> decide
    · cases h

/-- All verdicts of a command are on the checks of a run. -/
theorem Evaluates.oneLine {disk : Disk} {command : Command} {session : Session}
    (h : Evaluates disk command session) :
    ∀ v ∈ (session.finish disk).verdicts, v.receipt.OneLine := by
  rcases h.opened with ⟨opened, allowed, hstarted, hchecks⟩
  refine Session.oneLine_finish disk h.complete ?_
  refine registerChecks_invariant (P := fun s => ∀ r ∈ Session.waiting s.ledgers, r.OneLine)
    ?_ ?_ hchecks
  · -- Nothing waits at the start.
    rw [hstarted.waiting_eq_nil]
    exact fun r hr => nomatch hr
  · intro check hcheck s t id hs hregister r hr
    rcases Session.mem_waiting_register hregister hr with hr | ⟨htest, hdescription⟩
    · exact hs r hr
    · rw [Receipt.OneLine, htest, hdescription]
      exact ⟨by decide, describe_sessionChecks hcheck⟩

end Command

/-! ## Together -/

/-- The text of a report has the right lines just if each interface that the report lists has
corrupt log entries and no title goes on, behind a line feed, with a line that is no comment. Where
neither a test id nor a description of a verdict has a line feed, the text of the report of a
session has the right lines: whatever the messages, the observed values, the corrupt log entries and
the failures of the engine are, each of their lines is a comment. So everything that a command
prints as text on the session that it evaluates has the right lines; where it comes to no session,
it prints nothing. -/
theorem tap_lines :
    (∀ r : SessionReport, (∃ body, IsTap r (TapReport.ofReport r).render body) ↔
      (∀ c ∈ r.corrupt, c.2 ≠ []) ∧
        ∀ p ∈ (TapReport.ofReport r).points, ∀ line ∈ p.overflow, isComment line = true) ∧
    (∀ (s : Session) (disk : Disk),
      let r := s.finish disk
      (∀ v ∈ r.verdicts, '\n' ∉ v.testId.toList ∧ '\n' ∉ v.description.toList) →
      ∃ body, IsTap r (TapReport.ofReport r).render body) ∧
    ∀ (disk : Disk) (command : Command), command.isEvaluation = true →
      ∀ reporting : Reporting, reporting.form = .text →
        (∀ session, Command.Evaluates disk command session →
          ∃ body, IsTap (session.finish disk) (command.run disk reporting).out body) ∧
        ((∀ session, ¬Command.Evaluates disk command session) →
          (command.run disk reporting).out = "") := by
  refine ⟨isTap_iff, fun s disk hverdicts => Session.isTap_finish disk hverdicts, ?_⟩
  intro disk command hcommand reporting hform
  constructor
  · intro session hsession
    -- The command prints the text of the report, which it gets from the session.
    rw [(Command.run_of_evaluates hsession reporting).2, Command.reportOn, hform]
    exact Session.isTap_finish disk hsession.oneLine
  · -- A failure only tells of its cause, on the error output.
    intro hnone
    rcases Command.run_of_not_evaluates hcommand hnone reporting with ⟨message, hrun⟩
    rw [hrun]
    rfl

/-- A session in which a check of one test complains, in two lines, about a span. -/
def complainedInLines : Session :=
  ((Session.Course.start (Session.inMemory default {}) Disk.empty).run
    [ .append .library (recordWithSpan 1 "A"),
      .register .library "a, b"
        (.spanCheck none "no span at all" fun _ => .error "a span\nnot ok 2 - b") ]).session

/-- The lines of a complaint become comments, and so does what the run with the stray line prints on
that line. -/
theorem tap_lines_complained :
    let r := complainedInLines.finish Disk.empty
    (∀ v ∈ r.verdicts, '\n' ∉ v.testId.toList ∧ '\n' ∉ v.description.toList) ∧
      (∃ v ∈ r.verdicts, v.outcome.message?.any (·.toList.contains '\n') = true) ∧
      (∃ body, IsTap r (TapReport.ofReport r).render body) ∧
      ∃ session body, Command.Evaluates Command.strayLine Command.watchRun session ∧
        IsTap (session.finish Command.strayLine)
          (Command.watchRun.run Command.strayLine ⟨.text, false⟩).out body := by
  intro r
  have hverdicts : ∀ v ∈ r.verdicts,
      '\n' ∉ v.testId.toList ∧ '\n' ∉ v.description.toList := by
    decide +kernel
  have htext := tap_lines.2.1 complainedInLines Disk.empty hverdicts
  have hprinted := (tap_lines.2.2 Command.strayLine Command.watchRun rfl ⟨.text, false⟩ rfl).1
  rcases Command.evaluates_strayLine with ⟨session, hsession, -⟩
  rcases hprinted session hsession with ⟨body, hbody⟩
  exact ⟨hverdicts, by decide +kernel, htext, session, body, hsession, hbody⟩

/-- A session in which one test asks for unique trace ids. -/
def askedBy (testId : String) : Session :=
  ((Session.Course.start (Session.inMemory default {}) Disk.empty).run
    [.register .library testId .uniqueTraceIds]).session

/-- The id of a test breaks the line of its point, and what stands behind the line feed looks like
the line of another point, that failed. -/
theorem title_breaks_line :
    let r := (askedBy "a\nnot ok 2 - b").finish Disk.empty
    (TapReport.ofReport r).render =
        "TAP version 14\n1..1\nok 1 - a\nnot ok 2 - b: [library] trace id uniqueness\n" ++
          "# tests 1\n# pass  1\n# fail  0\n" ∧
      ¬∃ body, IsTap r (TapReport.ofReport r).render body := by
  intro r
  refine ⟨by decide +kernel, fun h => ?_⟩
  have hcomments := ((isTap_iff r).1 h).2
  have hoverflow : ∃ p ∈ (TapReport.ofReport r).points, ∃ line ∈ p.overflow,
      isComment line = false := by
    decide +kernel
  rcases hoverflow with ⟨p, hp, line, hline, hnot⟩
  rw [hcomments p hp line hline] at hnot
  cases hnot

end TraceAudit
