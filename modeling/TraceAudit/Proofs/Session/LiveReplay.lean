import TraceAudit.Proofs.Session.Preparation
import TraceAudit.Proofs.Session.Teardown
import TraceAudit.Proofs.Store.Resumption
import TraceAudit.Proofs.Validator.WaitOutcome

/-!
# Live and replayed sessions

A session over the folder of a finished run can be live, and then it reads the folder when it is
finished, or a replay, which reads the folder at once. Both give the same.

* `Interface.live_visited` takes a live interface through its wait and its `settle`: it ends up with
  the records of a load;
* `Interface.Agrees` is what a live interface and a replayed one have in common, and
  `Session.reports_agree` what reports over such interfaces have in common;
* `Session.live_eq_replay` compares the reports.
-/

namespace TraceAudit

namespace Interface

open Session (Action)

/-! ## Reading the folder -/

theorem pushAll_frame (i : Interface) (records : List Record) :
    i.SameData { i.pushAll records with records := i.records } ∧
      (i.pushAll records).exceptions = i.exceptions := by
  induction records generalizing i with
  | nil => exact ⟨⟨rfl, rfl, rfl⟩, rfl⟩
  | cons record rest ih =>
    rcases ih (i.push record) with ⟨hdata, hexceptions⟩
    exact ⟨⟨hdata.mode, rfl, hdata.store⟩, hexceptions⟩

/-- Records are numbered by those that are there. -/
theorem records_pushAll {i j : Interface} (h : i.records = j.records) (records : List Record) :
    (i.pushAll records).records = (j.pushAll records).records := by
  induction records generalizing i j with
  | nil => exact h
  | cons record rest ih =>
    apply ih
    simp only [push, h]

theorem takeStaged_frame (i : Interface) (store : Store) :
    (i.takeStaged store).mode = i.mode ∧ (i.takeStaged store).store = some store.drain.1 ∧
      (i.takeStaged store).exceptions = i.exceptions := by
  rcases pushAll_frame { i with store := some store.drain.1 } store.drain.2 with
    ⟨hdata, hexceptions⟩
  exact ⟨hdata.mode, hdata.store, hexceptions⟩

theorem source_takeStaged (i : Interface) (store : Store) :
    (i.takeStaged store).source = i.source :=
  congrArg Ledger.source (i.ledger_takeStaged store)

theorem records_takeStaged (i : Interface) (store : Store) :
    (i.takeStaged store).records = (i.pushAll store.staged).records :=
  records_pushAll (i := { i with store := some store.drain.1 }) (j := i) rfl store.staged

/-- Records that are taken in two steps are numbered as if they were taken at once. -/
theorem records_takeStaged_behind {i j between : Interface} (h : i.records = j.records)
    (first last : Store) (hbetween : between.records = (i.takeStaged first).records) :
    (between.takeStaged last).records =
      (j.takeStaged (last.behind first.staged)).records := by
  have hfirst : between.records = (j.pushAll first.staged).records := by
    rw [hbetween, records_takeStaged]
    exact records_pushAll h first.staged
  calc
    (between.takeStaged last).records
      = (between.pushAll last.staged).records := records_takeStaged between last
    _ = ((j.pushAll first.staged).pushAll last.staged).records :=
        records_pushAll hfirst last.staged
    _ = (j.pushAll (first.staged ++ last.staged)).records := by
        simp only [pushAll, List.foldl_append]
    _ = (j.takeStaged (last.behind first.staged)).records :=
        (records_takeStaged j (last.behind first.staged)).symm

theorem wait_live {i : Interface} {store polled : Store} {disk : Disk} {n : Nat}
    (hmode : i.mode = .live) (hstore : i.store = some store)
    (hpoll : store.poll disk = (polled, .ok n)) (engine : EngineSettings) (budgetMs : Nat) :
    i.wait disk engine budgetMs false =
      ({ i.takeStaged polled with lastWait := some (ending engine budgetMs polled) },
        .ok (ending engine budgetMs polled)) := by
  simp [wait, hmode, hstore, hpoll]

theorem settle_live {i : Interface} {store settled : Store} {disk : Disk} {n : Nat}
    (hmode : i.mode = .live) (hstore : i.store = some store)
    (hsettled : store.pollThenFlush disk = (settled, .ok n)) :
    i.settle disk = (i.takeStaged settled, .ok settled.staged.length) := by
  simp [settle, hmode, hstore, hsettled, Except.map]

/-! ## Both ways to read the folder -/

/-- An interface over what a load of the log files gives. -/
def replayed (disk : Disk) (logFolder : String) (source : Source) : Interface :=
  (fresh source .replay none).takeStaged ((Store.forLogFolder logFolder source).load disk).1

theorem origin_replayed (disk : Disk) (logFolder : String) (source : Source) :
    (replayed disk logFolder source).source = source ∧
      (replayed disk logFolder source).mode = .replay := by
  have hmode := (takeStaged_frame (fresh source .replay none)
    ((Store.forLogFolder logFolder source).load disk).1).1
  exact ⟨source_takeStaged _ _, hmode⟩

/-- Where a replay is opened, it is of its source, and nobody writes its log files. -/
theorem origin_of_replay {disk : Disk} {source : Source} {logFolder : String} {i : Interface}
    (h : Interface.replay disk source logFolder = .ok i) :
    i.source = source ∧ i.mode = .replay := by
  rcases Session.replay_eq_ok h with ⟨store, rfl⟩
  exact ⟨source_takeStaged _ _, (takeStaged_frame (fresh source .replay none) store).1⟩

/-- Where an interface has its data from makes no difference to registrations. -/
theorem alike_replayed (disk : Disk) (logFolder : String) (source : Source) :
    (Interface.live source logFolder).Alike (replayed disk logFolder source) := by
  have hledger := ledger_takeStaged (fresh source .replay none)
    ((Store.forLogFolder logFolder source).load disk).1
  have hexceptions := (takeStaged_frame (fresh source .replay none)
    ((Store.forLogFolder logFolder source).load disk).1).2.2
  exact ⟨hledger.symm, hexceptions.symm⟩

/-- What a live interface and a replayed one have in common. -/
structure Agrees (i j : Interface) : Prop where
  alike : i.Alike j
  records : i.records = j.records
  store : i.store = j.store

section Load

variable {disk : Disk} {logFolder : String} {source : Source} {n : Nat}
  (hload : ((Store.forLogFolder logFolder source).load disk).2 = .ok n)

include hload

theorem replay_eq :
    Interface.replay disk source logFolder = .ok (replayed disk logFolder source) := by
  unfold Interface.replay replayed
  generalize (Store.forLogFolder logFolder source).load disk = loaded at hload ⊢
  rcases loaded with ⟨store, result⟩
  have hresult : result = .ok n := hload
  rw [hresult]

/-- A live interface that took nothing yet reads the folder by its wait and by `settle`, and has
what a load gives in the end, however long the wait may take. -/
theorem live_visited {i : Interface} (hmode : i.mode = .live)
    (hstore : i.store = some (Store.forLogFolder logFolder source)) (hrecords : i.records = [])
    (engine : EngineSettings) (budgetMs : Nat) :
    let waited := i.wait disk engine budgetMs false
    let settled := waited.1.settle disk
    (∃ outcome, waited.2 = .ok outcome ∧ (outcome = .quiescent ∨ outcome = .timedOut)) ∧
      (∃ count, settled.2 = .ok count) ∧ settled.1.exceptions = i.exceptions ∧
      settled.1.records = (replayed disk logFolder source).records ∧
      settled.1.store = (replayed disk logFolder source).store := by
  intro waited settled
  rcases Store.load_resumed hload with ⟨⟨m, hpoll⟩, ⟨k, hflush⟩, hloaded⟩
  generalize hfirst : ((Store.fresh source (Store.folderOf logFolder source)).poll disk).1 = polled
    at hflush hloaded
  generalize hlast : (polled.drain.1.pollThenFlush disk).1 = rest at hloaded
  -- The wait takes the records of the poll.
  have hwaited : waited =
      ({ i.takeStaged polled with lastWait := some (ending engine budgetMs polled) },
        .ok (ending engine budgetMs polled)) :=
    wait_live hmode hstore (Prod.ext hfirst hpoll) engine budgetMs
  rcases takeStaged_frame i polled with ⟨hmodeFirst, hstoreFirst, hexceptionsFirst⟩
  -- Settling takes those of the flush, since there is nothing new to poll.
  have hsettled : settled = (waited.1.takeStaged rest, .ok rest.staged.length) := by
    have hmode' : waited.1.mode = .live := by
      rw [hwaited]
      exact hmodeFirst.trans hmode
    have hstore' : waited.1.store = some polled.drain.1 := by
      rw [hwaited]
      exact hstoreFirst
    exact settle_live hmode' hstore' (Prod.ext hlast hflush)
  rcases takeStaged_frame waited.1 rest with ⟨-, hstoreLast, hexceptionsLast⟩
  have hreplayed : replayed disk logFolder source =
      (fresh source .replay none).takeStaged (rest.behind polled.staged) := by
    rw [replayed, Store.forLogFolder, hloaded]
  rw [hsettled, hreplayed]
  refine ⟨⟨ending engine budgetMs polled, ?_, ?_⟩, ⟨rest.staged.length, rfl⟩, ?_, ?_, ?_⟩
  · rw [hwaited]
  · rw [ending]
    split
    · exact Or.inl rfl
    · exact Or.inr rfl
  · rw [hexceptionsLast, hwaited]
    exact hexceptionsFirst
  · have hbetween : waited.1.records = (i.takeStaged polled).records := by
      rw [hwaited]
    exact records_takeStaged_behind hrecords polled rest hbetween
  · exact hstoreLast.trans (takeStaged_frame _ (rest.behind polled.staged)).2.1.symm

/-- After the same registrations, a live interface ends up with the data of a replayed one. -/
theorem live_settled {actions : List Action}
    (hprepares : ∀ action ∈ actions, action.prepares = true) (engine : EngineSettings)
    (budgetMs : Nat) :
    let i := (Interface.live source logFolder).afterAll actions
    let waited := i.wait disk engine budgetMs false
    let settled := waited.1.settle disk
    (∃ outcome, waited.2 = .ok outcome ∧ (outcome = .quiescent ∨ outcome = .timedOut)) ∧
      (∃ count, settled.2 = .ok count) ∧
      settled.1.Agrees ((replayed disk logFolder source).afterAll actions) := by
  intro i waited settled
  rcases afterAll_prepares (alike_replayed disk logFolder source) hprepares with
    ⟨halike, hlive, hreplayed⟩
  rcases live_visited hload hlive.mode hlive.store hlive.records engine budgetMs with
    ⟨houtcome, hcount, hexceptions, hrecords, hstore⟩
  have hledger : settled.1.ledger = i.ledger :=
    calc
      settled.1.ledger = waited.1.ledger := ledger_settle waited.1 disk
      _ = i.ledger := ledger_wait i disk engine budgetMs false
  exact ⟨houtcome, hcount, ⟨hledger.trans halike.ledger, hexceptions.trans halike.exceptions⟩,
    hrecords.trans hreplayed.records.symm, hstore.trans hreplayed.store.symm⟩

end Load

end Interface

namespace Session

/-! ## Reports -/

/-- Interfaces that agree get the same verdicts, but for the words on missing data. -/
theorem plain_verdictsOf (s : Session) {i j : Interface} (h : i.Agrees j) :
    (s.verdictsOf i).map Verdict.plain = (s.verdictsOf j).map Verdict.plain := by
  have hqueue : i.queue = j.queue := congrArg Ledger.queue h.alike.ledger
  have hevidence : i.evidence s.scenario s.engine.timingFallback =
      { j.evidence s.scenario s.engine.timingFallback with wait := i.lastWait.getD .complete } := by
    simp only [Interface.evidence, h.records, h.alike.exceptions]
  simp only [verdictsOf, Interface.abandon, Interface.evaluate, hqueue, hevidence]
  split
  · rfl
  · rw [List.map_map, List.map_map]
    apply List.map_congr_left
    intro v _
    exact v.evaluate_wait _ _

/-- What an interface took from its log files: its records, and the pieces that give none. -/
def taken (i : Interface) : Source × List Record × List CorruptEntry :=
  (i.source, i.records, i.corruptEntries)

theorem taken_of_agrees {i j : Interface} (h : i.Agrees j) : taken i = taken j := by
  have hsource : i.source = j.source := congrArg Ledger.source h.alike.ledger
  simp only [taken, Interface.corruptEntries, hsource, h.records, h.store]

theorem corruptByName_eq (interfaces : List Interface) :
    corruptByName interfaces =
      Members.ofList (((interfaces.map taken).filter fun t => !t.2.2.isEmpty).map fun t =>
        (t.1.name, t.2.2)) := by
  rw [corruptByName, List.filter_map, List.map_map]
  rfl

/-- Where the interfaces of two sessions agree, source by source, the reports agree. -/
theorem reports_agree {sources : List Source} {f g : Source → Interface}
    (h : ∀ source ∈ sources, (f source).Agrees (g source)) (s : Session) :
    ((sources.map f).flatMap s.verdictsOf).map Verdict.plain =
        ((sources.map g).flatMap s.verdictsOf).map Verdict.plain ∧
      (sources.map f).map taken = (sources.map g).map taken ∧
      corruptByName (sources.map f) = corruptByName (sources.map g) := by
  have htaken : (sources.map f).map taken = (sources.map g).map taken := by
    rw [List.map_map, List.map_map]
    exact List.map_congr_left fun source hsource => taken_of_agrees (h source hsource)
  refine ⟨?_, htaken, ?_⟩
  · rw [List.flatMap_map, List.flatMap_map, List.map_flatMap, List.map_flatMap]
    exact List.flatMap_congr fun source hsource => plain_verdictsOf s (h source hsource)
  · rw [corruptByName_eq, corruptByName_eq, htaken]

/-! ## Live and replayed -/

theorem mapM_ok {α β ε : Type} {f : α → Except ε β} {g : α → β} {xs : List α}
    (h : ∀ x ∈ xs, f x = .ok (g x)) : xs.mapM f = .ok (xs.map g) := by
  induction xs with
  | nil => rfl
  | cons x rest ih =>
    have hrest := ih fun y hy => h y (List.mem_cons_of_mem x hy)
    simp only [List.mapM_cons, h x List.mem_cons_self, hrest, bind, Except.bind]
    rfl

section LiveReplay

variable {disk : Disk} {scenario : Scenario} {logFolder : String}
  (hload : ∀ source ∈ scenario.sources,
    ∃ n, ((Store.forLogFolder logFolder source).load disk).2 = .ok n)

include hload

/-- A replay has all interfaces that a load gives. -/
theorem replay_session (engine : EngineSettings) (hfolder : disk.isFolder logFolder = true)
    (hjournal : ∃ journal, Journal.load disk logFolder = .ok journal) :
    ∃ s, Session.replay disk scenario engine logFolder = .ok s ∧ s.scenario = scenario ∧
      s.engine = engine ∧ s.cancelled = false ∧
      s.interfaces = scenario.sources.map (Interface.replayed disk logFolder) := by
  rcases hjournal with ⟨journal, hjournal⟩
  have hinterfaces : scenario.sources.mapM (Interface.replay disk · logFolder) =
      .ok (scenario.sources.map (Interface.replayed disk logFolder)) := by
    refine mapM_ok fun source hsource => ?_
    rcases hload source hsource with ⟨n, hn⟩
    exact Interface.replay_eq hn
  rw [Session.replay, if_pos hfolder, hinterfaces, hjournal]
  exact ⟨_, rfl, rfl, rfl, rfl, rfl⟩

/-- A live session reads the folder when it is finished, and meets no error. -/
theorem live_teardown (engine : EngineSettings) {actions : List Action}
    (hprepares : ∀ action ∈ actions, action.prepares = true) :
    let live := ((Course.start (Session.live scenario engine logFolder) disk).run actions).session
    (∃ last : Source → Interface,
      (live.teardown disk).session.interfaces = scenario.sources.map last ∧
      ∀ source ∈ scenario.sources,
        (last source).Agrees ((Interface.replayed disk logFolder source).afterAll actions)) ∧
      (live.teardown disk).session.verdictsOf =
        (Session.live scenario engine logFolder).verdictsOf ∧
      Clean (fun outcome => outcome = .quiescent ∨ outcome = .timedOut) (live.teardown disk) := by
  intro live
  have hcomplete : (Session.live scenario engine logFolder).Complete :=
    complete_of_sources (Interface.live · logFolder) rfl fun _ => rfl
  rcases prepared_session hprepares hcomplete disk with ⟨calls, hprepared⟩
  have hinterfaces : live.interfaces = scenario.sources.map fun source =>
      (Interface.live source logFolder).afterAll actions :=
    (congrArg Session.interfaces hprepared).trans List.map_map
  have hengine : live.engine = engine := congrArg Session.engine hprepared
  have hcancelled : live.cancelled = false := congrArg Session.cancelled hprepared
  rcases teardown_visits disk (prepared_complete hprepares hcomplete disk)
    (fun outcome => outcome = .quiescent ∨ outcome = .timedOut) with
    ⟨⟨budgetMs, hteardown⟩, hclean⟩
  rw [hengine, hcancelled] at hteardown hclean
  refine ⟨⟨fun source => ((((Interface.live source logFolder).afterAll actions).wait disk engine
    (budgetMs source) false).1.settle disk).1, ?_, ?_⟩, ?_, ?_⟩
  · rw [hteardown, mapAll, hinterfaces, List.map_map]
    apply List.map_congr_left
    intro source _
    have hsource : ((Interface.live source logFolder).afterAll actions).source = source :=
      ((Interface.live source logFolder).origin_afterAll actions).1
    rw [Function.comp_apply, hsource]
  · intro source hsource
    rcases hload source hsource with ⟨n, hn⟩
    exact (Interface.live_settled hn hprepares engine (budgetMs source)).2.2
  · rw [hteardown, hprepared]
    exact verdictsOf_congr rfl rfl rfl
  · refine hclean fun i hi b => ?_
    rw [hinterfaces] at hi
    rcases List.mem_map.1 hi with ⟨source, hsource, rfl⟩
    rcases hload source hsource with ⟨n, hn⟩
    rcases Interface.live_settled hn hprepares engine b with ⟨houtcome, hcount, -⟩
    exact ⟨houtcome, hcount⟩

omit hload in
/-- A replay has everything when it is finished, and reads nothing more. -/
theorem replay_teardown {s : Session} (hscenario : s.scenario = scenario)
    (hinterfaces : s.interfaces = scenario.sources.map (Interface.replayed disk logFolder))
    {actions : List Action}
    (hprepares : ∀ action ∈ actions, action.prepares = true) :
    let replay := ((Course.start s disk).run actions).session
    (replay.teardown disk).session.interfaces = (scenario.sources.map fun source =>
        ((Interface.replayed disk logFolder source).afterAll actions).waited) ∧
      (replay.teardown disk).session.verdictsOf = s.verdictsOf ∧
      Clean (· = .complete) (replay.teardown disk) := by
  intro replay
  subst hscenario
  have hcomplete : s.Complete :=
    complete_of_sources (Interface.replayed disk logFolder) hinterfaces fun source =>
      (Interface.origin_replayed disk logFolder source).1
  rcases prepared_session hprepares hcomplete disk with ⟨calls, hprepared⟩
  have hinterfaces' : replay.interfaces = s.scenario.sources.map fun source =>
      (Interface.replayed disk logFolder source).afterAll actions := by
    refine (congrArg Session.interfaces hprepared).trans ?_
    rw [mapAll, hinterfaces]
    exact List.map_map
  have hmode : ∀ i ∈ replay.interfaces, i.mode ≠ .live := by
    intro i hi
    rw [hinterfaces'] at hi
    rcases List.mem_map.1 hi with ⟨source, -, rfl⟩
    have horigin := (Interface.replayed disk logFolder source).origin_afterAll actions
    rw [horigin.2, (Interface.origin_replayed disk logFolder source).2]
    simp
  rcases teardown_of_mode disk (prepared_complete hprepares hcomplete disk) hmode with
    ⟨hteardown, hclean⟩
  refine ⟨?_, ?_, hclean⟩
  · rw [hteardown, mapAll, hinterfaces']
    exact List.map_map
  · rw [hteardown, hprepared]
    exact verdictsOf_congr rfl rfl rfl

/-- Over the folder of a finished run that can be loaded, with a journal that can be read: a live
session and a replay that are asked for the same report the same. The verdicts agree but for the
words on missing data. The records of every interface agree with their numbers, and so do the pieces
of its log files that give none. Neither session meets an error, and every live wait ends since the
data stays quiet or the time runs out. -/
theorem live_eq_replay (engine : EngineSettings) (hfolder : disk.isFolder logFolder = true)
    (hjournal : ∃ journal, Journal.load disk logFolder = .ok journal) {actions : List Action}
    (hprepares : ∀ action ∈ actions, action.prepares = true) :
    ∃ replayed, Session.replay disk scenario engine logFolder = .ok replayed ∧
      let live := ((Course.start (Session.live scenario engine logFolder) disk).run actions).session
      let replay := ((Course.start replayed disk).run actions).session
      (live.finish disk).verdicts.map Verdict.plain =
          (replay.finish disk).verdicts.map Verdict.plain ∧
        (live.teardown disk).session.interfaces.map taken =
          (replay.teardown disk).session.interfaces.map taken ∧
        (live.finish disk).corrupt = (replay.finish disk).corrupt ∧
        (live.finish disk).errors = [] ∧ (replay.finish disk).errors = [] ∧
        ∀ w ∈ (live.finish disk).waits, w.2 = .quiescent ∨ w.2 = .timedOut := by
  rcases replay_session hload engine hfolder hjournal with
    ⟨replayed, hreplayed, hscenario, hengine, hcancelled, hinterfaces⟩
  refine ⟨replayed, hreplayed, ?_⟩
  intro live replay
  rcases live_teardown hload engine hprepares with
    ⟨⟨last, hlast, hagrees⟩, hverdictsLive, hcleanLive⟩
  rcases replay_teardown hscenario hinterfaces hprepares with
    ⟨hwaited, hverdictsReplay, hcleanReplay⟩
  have hsame : replayed.verdictsOf = (Session.live scenario engine logFolder).verdictsOf :=
    verdictsOf_congr hscenario hengine hcancelled
  -- How its wait ended is no part of what an interface agrees in.
  have hagrees' : ∀ source ∈ scenario.sources, (last source).Agrees
      ((Interface.replayed disk logFolder source).afterAll actions).waited := by
    intro source hsource
    have hboth := hagrees source hsource
    exact ⟨⟨hboth.alike.ledger, hboth.alike.exceptions⟩, hboth.records, hboth.store⟩
  rcases reports_agree hagrees' (Session.live scenario engine logFolder) with
    ⟨hverdicts, htaken, hcorrupt⟩
  refine ⟨?_, ?_, ?_, hcleanLive.errors, hcleanReplay.errors, hcleanLive.waits⟩
  · simp only [finish]
    rw [hlast, hwaited, hverdictsLive, hverdictsReplay, hsame]
    exact hverdicts
  · rw [hlast, hwaited]
    exact htaken
  · simp only [finish]
    rw [hlast, hwaited]
    exact hcorrupt

end LiveReplay

theorem exists_of_isOk {ε α : Type} {x : Except ε α} (h : x.isOk = true) : ∃ a, x = .ok a := by
  cases x with
  | error e => cases h
  | ok a => exact ⟨a, rfl⟩

/-- The folder of a run in which the library sent one request, and its log file ends in the middle
of a line. -/
def finishedRun : Disk :=
  Disk.empty.append "run/interfaces/library/a.log"
    (Utf8.ofString "\x7b\"path\":\"/\",\"request\":\x7b\x7d\x7d\nlost") 5

/-- Registrations for two sources, of which the second one sent nothing. -/
def preparations : List Action :=
  [.register .library "ids" .uniqueTraceIds, .except .library 7,
    .register .agent "headers" .traceHeaders]

theorem live_eq_replay_finished :
    ∃ replayed, Session.replay finishedRun default {} "run" = .ok replayed ∧
      let live :=
        ((Course.start (Session.live default {} "run") finishedRun).run preparations).session
      let replay := ((Course.start replayed finishedRun).run preparations).session
      (live.finish finishedRun).verdicts.map Verdict.plain =
          (replay.finish finishedRun).verdicts.map Verdict.plain ∧
        (live.teardown finishedRun).session.interfaces.map taken =
          (replay.teardown finishedRun).session.interfaces.map taken := by
  have hloads : ∀ source ∈ (default : Scenario).sources,
      ((Store.forLogFolder "run" source).load finishedRun).2.isOk = true := by decide +kernel
  have hload : ∀ source ∈ (default : Scenario).sources,
      ∃ n, ((Store.forLogFolder "run" source).load finishedRun).2 = .ok n :=
    fun source hsource => exists_of_isOk (hloads source hsource)
  have hjournal : ∃ journal, Journal.load finishedRun "run" = .ok journal := by
    have hnone : finishedRun.has (Journal.pathIn "run") = false := by decide +kernel
    exact ⟨[], by simp [Journal.load, hnone]⟩
  have hprepares : ∀ action ∈ preparations, action.prepares = true := by
    simp [preparations, Action.prepares]
  rcases live_eq_replay hload {} (by decide +kernel) hjournal hprepares with
    ⟨replayed, hreplayed, hverdicts, htaken, -⟩
  exact ⟨replayed, hreplayed, hverdicts, htaken⟩

end Session
end TraceAudit
