import TraceAudit.Proofs.Session.Totals

/-!
# Reports and exit statuses

Whether a session went well is told by its report, by the text of its test points and by the exit
status of the command that evaluates it.

* `Session.Tells` is what a report and its other forms say of a session, and `Session.finish_tells`
  that they all say the same;
* `Command.Evaluates` says which session a command evaluates, and `Command.run_of_evaluates` that it
  reports on that session;
* `Command.status_agrees_with_report` takes sessions and commands together.
-/

namespace TraceAudit

/-! ## Sessions -/

namespace Session

/-- What a report says of a session that is finished, in all forms of the report. -/
structure Tells (s : Session) (disk : Disk) (report : SessionReport) : Prop where
  total : report.total = report.verdicts.length
  split : report.passed + report.failed = report.total
  groups : SessionReport.ByTest report.verdicts report.byTest
  ascending : report.failedTests.Pairwise (· < ·)
  failedTests : ∀ testId, testId ∈ report.failedTests ↔
    ∃ v ∈ report.verdicts, v.testId = testId ∧ v.outcome ≠ .passed
  /-- Interfaces with corrupt log entries are listed, each of them once. -/
  corrupt : report.corrupt.Perm
    (((s.teardown disk).session.interfaces.filter fun i => !i.corruptEntries.isEmpty).map fun i =>
      (i.source.name, i.corruptEntries))
  /-- Waits that fail are noted, and then what cannot be settled. -/
  errors : report.errors =
    s.sayings s.scenario.teardownOrder (fun i => i.waitNotes disk s.engine s.cancelled) ++
      s.sayings s.scenario.sources (fun i => i.settleNotes disk s.engine s.cancelled)
  /-- Each interface that is listed as corrupt gives one point that is not ok. -/
  points : (TapReport.ofReport report).failureCount =
    report.failed + report.corrupt.length + report.errors.length
  success : report.isSuccess = true ↔ s.GoesWell disk
  count : (TapReport.ofReport report).failureCount = 0 ↔ s.GoesWell disk
  text : "# fail  0\n".toList <:+ (TapReport.ofReport report).render.toList ↔ s.GoesWell disk
  status : ∀ reporting, (Command.reportOn reporting report).status = 0 ↔ s.GoesWell disk

/-- Points and counters agree on whether all is well. -/
theorem failureCount_eq_zero_iff {s : Session} (disk : Disk) :
    (TapReport.ofReport (s.finish disk)).failureCount = 0 ↔
      (s.finish disk).isSuccess = true := by
  rw [TapReport.failureCount_ofReport, SessionReport.isSuccess, Bool.and_eq_true, Bool.and_eq_true,
    beq_iff_eq, beq_iff_eq, List.isEmpty_iff, ← corrupt_eq_nil_iff, ← List.length_eq_zero_iff,
    ← List.length_eq_zero_iff]
  omega

end Session

namespace Command

theorem status_reportOn (reporting : Reporting) (report : SessionReport) :
    (reportOn reporting report).status = Response.statusOf report.isSuccess := by
  rw [reportOn]
  cases reporting.form <;> rfl

theorem status_reportOn_eq_zero_iff (reporting : Reporting) (report : SessionReport) :
    (reportOn reporting report).status = 0 ↔ report.isSuccess = true := by
  rw [status_reportOn, Response.statusOf]
  split <;> simp [*]

end Command

namespace Session

theorem finish_tells {s : Session} (disk : Disk) (h : s.Complete) :
    s.Tells disk (s.finish disk) := by
  have hsuccess := isSuccess_finish disk h
  have hcount := (failureCount_eq_zero_iff disk).trans hsuccess
  refine
    { total := rfl
      split := (s.finish disk).passed_add_failed
      groups := (s.finish disk).byTest_groups
      ascending := (s.finish disk).failedTests_ascending
      failedTests := fun testId => ?_
      corrupt := corruptByName_perm (teardown_distinct disk h)
      errors := teardown_errors disk h
      points := TapReport.failureCount_ofReport (s.finish disk)
      success := hsuccess
      count := hcount
      text := (TapReport.ends_with_zero_iff _).trans hcount
      status := fun reporting =>
        (Command.status_reportOn_eq_zero_iff reporting _).trans hsuccess }
  rw [SessionReport.mem_failedTests]
  refine exists_congr fun v => and_congr_right fun _ => and_congr_right fun _ => ?_
  rw [Ne, ← v.isPassed_iff, Bool.not_eq_true]

end Session

/-! ## Commands -/

namespace Command

/-- The session that a command evaluates, with its checks registered. -/
inductive Evaluates (disk : Disk) : Command → Session → Prop
  | replay {logFolder : String} {options : ConfigOptions} {config : Config} {scenario : Scenario}
      {opened session : Session} :
      disk.isFolder logFolder = true → prepare disk options = .ok (config, scenario) →
      Session.replay disk scenario config.engine logFolder = .ok opened →
      registerChecks opened config.allowedErrors = .ok session →
      Evaluates disk (.replay logFolder options) session
  | watch {logFolder : String} {options : ConfigOptions} {config : Config} {scenario : Scenario}
      {session : Session} :
      prepare disk options = .ok (config, scenario) →
      registerChecks (Session.live scenario config.engine logFolder) config.allowedErrors =
        .ok session →
      Evaluates disk (.watch logFolder options) session

/-- The command is one that evaluates a session. -/
def isEvaluation : Command → Bool
  | .replay .. | .watch .. => true
  | .validate .. | .inspect .. | .spans .. => false

/-- What each of the checks keeps when it is registered holds after all of them. -/
theorem registerChecks_invariant {P : Session → Prop} {opened session : Session}
    {allowed : List String} (hopened : P opened)
    (hregister : ∀ check ∈ sessionChecks opened.scenario allowed, ∀ s t id, P s →
      s.register check.1 sessionTest check.2 = .ok (t, id) → P t)
    (h : registerChecks opened allowed = .ok session) : P session := by
  rw [registerChecks] at h
  -- The checks are those of the scenario at the start, which no registration changes.
  generalize sessionChecks opened.scenario allowed = checks at h hregister
  induction checks generalizing opened with
  | nil =>
    cases h
    exact hopened
  | cons check rest ih =>
    rcases List.forall_mem_cons.1 hregister with ⟨hcheck, hrest⟩
    rw [List.foldlM_cons] at h
    cases hpair : opened.register check.1 sessionTest check.2 with
    | error e => simp [hpair, Except.map, bind, Except.bind] at h
    | ok pair =>
      simp only [hpair, Except.map, bind, Except.bind] at h
      exact ih (hcheck opened pair.1 pair.2 hopened hpair) h hrest

/-- A session that is evaluated was opened before, and its checks were registered first. -/
theorem Evaluates.opened {disk : Disk} {command : Command} {session : Session}
    (h : Evaluates disk command session) :
    ∃ (opened : Session) (allowed : List String), opened.Started ∧
      registerChecks opened allowed = .ok session := by
  cases h with
  | replay _ _ hopened hchecks => exact ⟨_, _, Session.Started.replay hopened, hchecks⟩
  | watch _ hchecks => exact ⟨_, _, Session.Started.live _ _ _, hchecks⟩

theorem Evaluates.complete {disk : Disk} {command : Command} {session : Session}
    (h : Evaluates disk command session) : session.Complete := by
  rcases h.opened with ⟨opened, allowed, hstarted, hchecks⟩
  exact registerChecks_invariant hstarted.complete (fun _ _ _ _ _ hs hon => hs.on hon) hchecks

/-- A command that evaluates a session prints the report on it, and ends with the status of that
report. -/
theorem run_of_evaluates {disk : Disk} {command : Command} {session : Session}
    (h : Evaluates disk command session) (reporting : Reporting) :
    (command.run disk reporting).status =
        (reportOn reporting (session.finish disk)).status ∧
      (command.run disk reporting).out = (reportOn reporting (session.finish disk)).out := by
  cases h with
  | replay hfolder hprepare hopened hchecks =>
    simp only [run, replayFolder, requireFolder, hfolder, if_true, hprepare, hopened, conclude,
      hchecks, Except.mapError, bind, Except.bind, orFailure, and_self]
  | watch hprepare hchecks =>
    simp only [run, watchFolder, hprepare, conclude, hchecks, Except.mapError, bind, Except.bind,
      orFailure, and_self]

theorem registerChecks_of_conclude {disk : Disk} {reporting : Reporting} {opened : Session}
    {allowed : List String} {response : Response}
    (h : conclude disk reporting opened allowed = .ok response) :
    ∃ session, registerChecks opened allowed = .ok session := by
  rw [conclude] at h
  cases hchecks : registerChecks opened allowed with
  | error e => simp [hchecks, Except.mapError, bind, Except.bind] at h
  | ok session => exact ⟨session, rfl⟩

theorem evaluates_of_replayFolder {disk : Disk} {reporting : Reporting} {logFolder : String}
    {options : ConfigOptions} {response : Response}
    (h : replayFolder disk reporting logFolder options = .ok response) :
    ∃ session, Evaluates disk (.replay logFolder options) session := by
  rw [replayFolder, requireFolder] at h
  by_cases hfolder : disk.isFolder logFolder = true
  · rw [if_pos hfolder] at h
    cases hprepare : prepare disk options with
    | error e => simp [hprepare, bind, Except.bind] at h
    | ok prepared =>
      simp only [hprepare, bind, Except.bind] at h
      cases hopened : Session.replay disk prepared.2 prepared.1.engine logFolder with
      | error e => simp [hopened, Except.mapError] at h
      | ok opened =>
        simp only [hopened, Except.mapError] at h
        rcases registerChecks_of_conclude h with ⟨session, hchecks⟩
        exact ⟨session, .replay hfolder hprepare hopened hchecks⟩
  · simp [hfolder, bind, Except.bind] at h

theorem evaluates_of_watchFolder {disk : Disk} {reporting : Reporting} {logFolder : String}
    {options : ConfigOptions} {response : Response}
    (h : watchFolder disk reporting logFolder options = .ok response) :
    ∃ session, Evaluates disk (.watch logFolder options) session := by
  rw [watchFolder] at h
  cases hprepare : prepare disk options with
  | error e => simp [hprepare, bind, Except.bind] at h
  | ok prepared =>
    simp only [hprepare, bind, Except.bind] at h
    cases hconclude : conclude disk reporting (Session.live prepared.2 prepared.1.engine logFolder)
        prepared.1.allowedErrors with
    | error e => simp [hconclude] at h
    | ok concluded =>
      rcases registerChecks_of_conclude hconclude with ⟨session, hchecks⟩
      exact ⟨session, .watch hprepare hchecks⟩

/-- A command that comes to no session fails. -/
theorem run_of_not_evaluates {disk : Disk} {command : Command}
    (hcommand : command.isEvaluation = true) (h : ∀ session, ¬Evaluates disk command session)
    (reporting : Reporting) :
    ∃ message, command.run disk reporting = Response.failure reporting message := by
  cases command with
  | replay logFolder options =>
    cases hrun : replayFolder disk reporting logFolder options with
    | error e => exact ⟨s!"error: {e}", by rw [run, hrun, orFailure]⟩
    | ok response =>
      rcases evaluates_of_replayFolder hrun with ⟨session, hsession⟩
      exact absurd hsession (h session)
  | watch logFolder options =>
    cases hrun : watchFolder disk reporting logFolder options with
    | error e => exact ⟨s!"error: {e}", by rw [run, hrun, orFailure]⟩
    | ok response =>
      rcases evaluates_of_watchFolder hrun with ⟨session, hsession⟩
      exact absurd hsession (h session)
  | _ => cases hcommand

/-- Whatever was done with a session before: its report, the text of its test points and the exit
status that goes with them agree on whether everything went well. The commands that evaluate a
session end with this status, and with a failure where they come to no session. -/
theorem status_agrees_with_report (disk : Disk) :
    (∀ s : Session, s.Started → ∀ actions : List Session.Action,
      let c := (Session.Course.start s disk).run actions
      c.session.Tells c.disk (c.session.finish c.disk)) ∧
    ∀ command : Command, command.isEvaluation = true → ∀ reporting : Reporting,
      (∀ session, Evaluates disk command session →
        let report := session.finish disk
        session.Tells disk report ∧
          ((command.run disk reporting).status = 0 ↔ session.GoesWell disk) ∧
          (reporting.form = .text →
            (command.run disk reporting).out = (TapReport.ofReport report).render)) ∧
      ((∀ session, ¬Evaluates disk command session) →
        (command.run disk reporting).status = 1) := by
  refine ⟨fun s hs actions => ?_, fun command hcommand reporting => ⟨?_, ?_⟩⟩
  · have hstart : (Session.Course.start s disk).session.Complete := hs.complete
    exact Session.finish_tells _ (hstart.run actions)
  · intro session hsession report
    have htells := Session.finish_tells disk hsession.complete
    rcases run_of_evaluates hsession reporting with ⟨hstatus, hout⟩
    refine ⟨htells, ?_, fun hform => ?_⟩
    · rw [hstatus]
      exact htells.status reporting
    · rw [hout, reportOn, hform]
  · intro hnone
    rcases run_of_not_evaluates hcommand hnone reporting with ⟨message, hrun⟩
    rw [hrun]
    rfl

/-- The folder of a run in which the library sent nothing but a line that is no record. -/
def strayLine : Disk :=
  Disk.empty.append "run/interfaces/library/a.log" (Utf8.ofString "stray\n") 5

/-- A test registers a check before the session looks at the folder. -/
def strayCourse : Session.Course :=
  (Session.Course.start (Session.live default {} "run") strayLine).run
    [.register .library "ids" .uniqueTraceIds]

def watchRun : Command := .watch "run" ⟨none, none, none, none, []⟩

/-- The scenario that is under test where nothing is configured. -/
def unnamedScenario : Scenario :=
  { name := "DEFAULT", library := LibraryVersion.unknown, weblogVariant := none,
    agentVersion := none, features := [], buddies := 0 }

/-- Where nothing is configured, the run comes to its session. All checks pass, and only the stray
line gives a point that is not ok. -/
theorem evaluates_strayLine :
    ∃ session, Evaluates strayLine watchRun session ∧
      let report := session.finish strayLine
      (∀ v ∈ report.verdicts, v.outcome = .passed) ∧ report.errors = [] ∧
        (TapReport.ofReport report).failureCount = 1 := by
  have hprepare : prepare strayLine ⟨none, none, none, none, []⟩ = .ok ({}, unnamedScenario) := by
    decide +kernel
  have hstory : (registerChecks (Session.live unnamedScenario {} "run") []).toOption.any
      (fun session =>
        let report := session.finish strayLine
        report.verdicts.all Verdict.isPassed && report.errors.isEmpty &&
          (TapReport.ofReport report).failureCount == 1) = true := by
    decide +kernel
  cases hchecks : registerChecks (Session.live unnamedScenario {} "run") [] with
  | error e =>
    rw [hchecks] at hstory
    cases hstory
  | ok session =>
    simp only [hchecks, Except.toOption, Option.any_some, Bool.and_eq_true, List.all_eq_true,
      List.isEmpty_iff, beq_iff_eq] at hstory
    rcases hstory with ⟨⟨hpassed, herrors⟩, hcount⟩
    exact ⟨session, .watch hprepare hchecks, fun v hv => v.isPassed_iff.1 (hpassed v hv), herrors,
      hcount⟩

/-- All checks pass, and only the stray line is left to tell of: one point that is not ok. -/
theorem status_agrees_with_report_stray :
    strayCourse.session.Tells strayCourse.disk
      (strayCourse.session.finish strayCourse.disk) ∧
    ∃ session, Evaluates strayLine watchRun session ∧
      let report := session.finish strayLine
      (∀ v ∈ report.verdicts, v.outcome = .passed) ∧ report.errors = [] ∧
      (TapReport.ofReport report).failureCount = 1 ∧ ¬session.GoesWell strayLine ∧
      ∀ reporting : Reporting, (watchRun.run strayLine reporting).status ≠ 0 := by
  rcases evaluates_strayLine with ⟨session, hsession, hpassed, herrors, hcount⟩
  have hcourse := (status_agrees_with_report strayLine).1 _ (.live default {} "run")
    [.register .library "ids" .uniqueTraceIds]
  have hcommand := (status_agrees_with_report strayLine).2 watchRun rfl
  have hill : ¬session.GoesWell strayLine := by
    intro hwell
    rw [((hcommand ⟨.text, false⟩).1 session hsession).1.count.2 hwell] at hcount
    cases hcount
  refine ⟨hcourse, session, hsession, hpassed, herrors, hcount, hill, fun reporting hstatus => ?_⟩
  exact hill (((hcommand reporting).1 session hsession).2.1.1 hstatus)

end Command
end TraceAudit
