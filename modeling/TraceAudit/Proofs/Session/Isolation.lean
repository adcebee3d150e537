import TraceAudit.Proofs.Session.Books
import TraceAudit.Proofs.Session.Teardown

/-!
# Interfaces do not interfere

In a session in memory, all interfaces share the scenario, the settings and the end of the session.
Still, what the report tells about a source hangs on the operations on its interface only.

* `Interface.Own`: all that an interface holds is its own, and operations keep it that way;
* `Session.fed_interfaces`: the interfaces of a session in memory, from the operations;
* `Session.interface_isolated`: two runs with the same operations on an interface report the same
  about it, and its validators see records of its source only.
-/

namespace TraceAudit

namespace Interface

/-- The records and the validators of the interface are of its source. -/
structure Own (i : Interface) : Prop where
  records : ∀ record ∈ i.records, record.source = i.source
  queue : ∀ v ∈ i.queue, v.interface = i.source

theorem own_inMemory (source : Source) : (Interface.inMemory source).Own :=
  ⟨fun _ h => absurd h List.not_mem_nil, fun _ h => absurd h List.not_mem_nil⟩

/-- A record of another source is not taken, and a validator is registered for the interface that
queues it. -/
theorem Own.after {i : Interface} (h : i.Own) (action : Session.Action) : (i.after action).Own := by
  cases action with
  | append source record =>
    rw [after_append]
    split
    · rename_i hsource
      refine ⟨fun taken htaken => ?_, h.queue⟩
      rcases List.mem_append.1 htaken with hold | hnew
      · exact h.records taken hold
      · -- Numbering the record does not touch its source.
        rw [List.mem_singleton.1 hnew]
        exact hsource
    · exact h
  | register source testId assertion =>
    rw [after_register]
    split
    · exact h
    · refine ⟨h.records, fun v hv => ?_⟩
      rcases List.mem_append.1 hv with hold | hnew
      · exact h.queue v hold
      · rw [List.mem_singleton.1 hnew]
        rfl
  | evaluate source => exact ⟨h.records, fun v hv => absurd hv List.not_mem_nil⟩
  | abandon source reason => exact ⟨h.records, fun v hv => absurd hv List.not_mem_nil⟩
  | _ => exact ⟨h.records, h.queue⟩

theorem Own.waited {i : Interface} (h : i.Own) : i.waited.Own := ⟨h.records, h.queue⟩

theorem Own.afterAll {i : Interface} (h : i.Own) (actions : List Session.Action) :
    (i.afterAll actions).Own :=
  afterAll_induct (fun _ action hj => hj.after action) h actions

end Interface

namespace Session

/-! ## Verdicts of one source -/

theorem interface_verdictsOf (s : Session) {i : Interface} (h : i.Own) :
    ∀ v ∈ s.verdictsOf i, v.interface = i.source := by
  intro v hv
  rw [verdictsOf] at hv
  split at hv
  · rcases List.mem_map.1 hv with ⟨validator, hvalidator, rfl⟩
    exact h.queue validator hvalidator
  · rcases List.mem_map.1 hv with ⟨validator, hvalidator, rfl⟩
    exact h.queue validator hvalidator

/-- Of verdicts that are listed source by source, those about one source. -/
theorem filter_flatMap_sources {f : Source → List Verdict}
    (hf : ∀ source, ∀ v ∈ f source, v.interface = source) {sources : List Source}
    (hnodup : sources.Nodup) (source : Source) :
    (sources.flatMap f).filter (·.interface = source) =
      if source ∈ sources then f source else [] := by
  induction sources with
  | nil => rfl
  | cons first rest ih =>
    rcases List.nodup_cons.1 hnodup with ⟨hnotMem, hrest⟩
    rw [List.flatMap_cons, List.filter_append, ih hrest]
    by_cases hsame : source = first
    · have hall : (f source).filter (·.interface = source) = f source :=
        List.filter_eq_self.2 fun v hv => decide_eq_true (hf source v hv)
      subst hsame
      simp [hall, hnotMem]
    · have hnone : (f first).filter (·.interface = source) = [] := by
        refine List.filter_eq_nil_iff.2 fun v hv => ?_
        rw [hf first v hv]
        simpa using Ne.symm hsame
      simp [hnone, hsame]

/-! ## A run of a session in memory -/

section InMemory

variable (scenario : Scenario) (engine : EngineSettings) (disk : Disk) (actions : List Action)

/-- A session in memory after some operations. -/
def fed : Course := (Course.start (Session.inMemory scenario engine) disk).run actions

theorem inMemory_complete : (Session.inMemory scenario engine).Complete :=
  complete_of_sources Interface.inMemory rfl fun _ => rfl

theorem inMemory_blind :
    (Course.start (Session.inMemory scenario engine) disk).Blind actions := by
  intro action _ _ i hi
  rcases List.mem_map.1 hi with ⟨source, -, rfl⟩
  simp [Interface.inMemory, Interface.fresh]

/-- The interface of a source is what the operations on it make of an empty one, and no operation
changes the scenario or the settings. -/
theorem fed_session :
    ∃ cancelled calls, (fed scenario engine disk actions).session =
      { (Session.inMemory scenario engine).mapAll fun i => i.afterAll actions with
        cancelled, calls } :=
  Course.run_session (inMemory_complete scenario engine).distinct
    (inMemory_blind scenario engine disk actions)

theorem fed_interfaces :
    (fed scenario engine disk actions).session.interfaces =
      scenario.sources.map fun source => (Interface.inMemory source).afterAll actions := by
  rcases fed_session scenario engine disk actions with ⟨cancelled, calls, hfed⟩
  rw [hfed]
  exact List.map_map

theorem fed_complete : (fed scenario engine disk actions).session.Complete :=
  Course.run_complete (inMemory_complete scenario engine)
    (inMemory_blind scenario engine disk actions)

theorem fed_teardown :
    let c := fed scenario engine disk actions
    (c.session.teardown c.disk).session = c.session.mapAll Interface.waited := by
  intro c
  refine (teardown_of_mode c.disk (fed_complete scenario engine disk actions) fun i hi => ?_).1
  rw [fed_interfaces] at hi
  rcases List.mem_map.1 hi with ⟨source, -, rfl⟩
  have hmode : ((Interface.inMemory source).afterAll actions).mode = .inMemory :=
    ((Interface.inMemory source).origin_afterAll actions).2
  simp [hmode]

/-- The part of the report that is about one source. -/
theorem finish_fed (source : Source) :
    let c := fed scenario engine disk actions
    (c.session.finish c.disk).verdicts.filter (·.interface = source) =
      if source ∈ scenario.sources then
        c.session.verdictsOf ((Interface.inMemory source).afterAll actions).waited
      else [] := by
  intro c
  have hown : ∀ source, ∀ v ∈
      c.session.verdictsOf ((Interface.inMemory source).afterAll actions).waited,
      v.interface = source := by
    intro source v hv
    have hafter := (Interface.own_inMemory source).afterAll actions
    have hv' := interface_verdictsOf c.session hafter.waited v hv
    exact hv'.trans ((Interface.inMemory source).origin_afterAll actions).1
  have hteardown : (c.session.teardown c.disk).session = c.session.mapAll Interface.waited :=
    fed_teardown scenario engine disk actions
  have hsame : (c.session.mapAll Interface.waited).verdictsOf = c.session.verdictsOf :=
    verdictsOf_congr rfl rfl rfl
  -- The interfaces are closed one after the other, in the order of the sources.
  have hverdicts : (c.session.finish c.disk).verdicts = scenario.sources.flatMap fun source =>
      c.session.verdictsOf ((Interface.inMemory source).afterAll actions).waited :=
    calc
      (c.session.finish c.disk).verdicts
        = (c.session.mapAll Interface.waited).interfaces.flatMap c.session.verdictsOf := by
          simp only [finish, hteardown, hsame]
      _ = _ := by
          rw [mapAll, fed_interfaces, List.map_map, List.flatMap_map]
          rfl
  rw [hverdicts]
  exact filter_flatMap_sources hown (sources_nodup scenario) source

/-- An interface is found during the run and after it, and holds what is its own. -/
theorem interface?_fed {source : Source} (h : source ∈ scenario.sources) :
    let c := fed scenario engine disk actions
    ∃ i, i.Own ∧ i.source = source ∧ c.session.interface? source = some i ∧
      (c.session.teardown c.disk).session.interface? source = some i.waited := by
  intro c
  have hown := (Interface.own_inMemory source).afterAll actions
  have hsource : ((Interface.inMemory source).afterAll actions).source = source :=
    ((Interface.inMemory source).origin_afterAll actions).1
  have hcomplete := fed_complete scenario engine disk actions
  have hmem : (Interface.inMemory source).afterAll actions ∈ c.session.interfaces := by
    rw [fed_interfaces]
    exact List.mem_map_of_mem h
  refine ⟨(Interface.inMemory source).afterAll actions, hown, hsource, ?_, ?_⟩
  · have hfind := hcomplete.distinct.interface?_eq hmem
    rwa [hsource] at hfind
  · have hdistinct : (c.session.mapAll Interface.waited).Distinct :=
      hcomplete.distinct.mapAll fun i => rfl
    have hfind := hdistinct.interface?_eq (List.mem_map_of_mem hmem)
    rw [fed_teardown]
    rwa [show ((Interface.inMemory source).afterAll actions).waited.source = source from hsource]
      at hfind

end InMemory

/-! ## Isolation -/

/-- A record of another source is refused, and the refusal changes nothing. -/
theorem append_refused {c : Course} {source : Source} {i : Interface} {record : Record}
    (hfind : c.session.interface? source = some i) (hsource : record.source ≠ source) :
    c.session.append source record = .error (.sourceMismatch source record.source) ∧
      c.step (.append source record) = c := by
  rcases interface?_mem hfind with ⟨-, hisource⟩
  have hrefused : c.session.append source record =
      .error (.sourceMismatch source record.source) := by
    have happend : i.append record = .error (.sourceMismatch source record.source) := by
      rw [Interface.append, hisource, if_neg hsource]
    simp [append, on, hfind, happend, bind, Except.bind, Except.map]
  refine ⟨hrefused, ?_⟩
  simp only [Course.step, hrefused]

theorem afterAll_congr {source : Source} {actions actions' : List Action}
    (h : actions.filter (Action.isOn source) = actions'.filter (Action.isOn source)) :
    (Interface.inMemory source).afterAll actions = (Interface.inMemory source).afterAll actions' :=
  congrArg (List.foldl Interface.after (Interface.inMemory source)) h

/-- Whatever is done with the other interfaces of a session in memory: two runs with the same
operations on the interface of a source, both cancelled or both not, report the same verdicts about
it. A record of another source is refused, which changes nothing, and so what the validators of an
interface look at is of its source, at any time and in the end. -/
theorem interface_isolated (scenario : Scenario) (engine : EngineSettings) (disk disk' : Disk)
    (source : Source) {actions actions' : List Action}
    (hsame : actions.filter (Action.isOn source) = actions'.filter (Action.isOn source))
    (hcancel : .cancel ∈ actions ↔ .cancel ∈ actions') :
    let c := (Course.start (Session.inMemory scenario engine) disk).run actions
    let c' := (Course.start (Session.inMemory scenario engine) disk').run actions'
    (c.session.finish c.disk).verdicts.filter (·.interface = source) =
        (c'.session.finish c'.disk).verdicts.filter (·.interface = source) ∧
      (source ∈ scenario.sources →
        ∃ i, c.session.interface? source = some i ∧
          (∀ record : Record, record.source ≠ source →
            c.session.append source record = .error (.sourceMismatch source record.source) ∧
            c.step (.append source record) = c) ∧
          (∀ timing, ∀ record ∈ (i.evidence scenario timing).records, record.source = source) ∧
          ∃ j, (c.session.teardown c.disk).session.interface? source = some j ∧
            ∀ timing, ∀ record ∈ (j.evidence scenario timing).records, record.source = source) := by
  intro c c'
  refine ⟨?_, fun hknown => ?_⟩
  · have hcancelled : c.session.cancelled = c'.session.cancelled := by
      rw [Bool.eq_iff_iff, cancelled_run, cancelled_run, hcancel]
      rfl
    have hverdicts : c.session.verdictsOf = c'.session.verdictsOf := by
      rcases fed_session scenario engine disk actions with ⟨_, _, hfed⟩
      rcases fed_session scenario engine disk' actions' with ⟨_, _, hfed'⟩
      refine verdictsOf_congr ?_ ?_ hcancelled
      · exact (congrArg Session.scenario hfed).trans (congrArg Session.scenario hfed').symm
      · exact (congrArg Session.engine hfed).trans (congrArg Session.engine hfed').symm
    calc
      (c.session.finish c.disk).verdicts.filter (·.interface = source)
        = if source ∈ scenario.sources then
            c.session.verdictsOf ((Interface.inMemory source).afterAll actions).waited
          else [] := finish_fed scenario engine disk actions source
      _ = if source ∈ scenario.sources then
            c'.session.verdictsOf ((Interface.inMemory source).afterAll actions').waited
          else [] := by rw [afterAll_congr hsame, hverdicts]
      _ = (c'.session.finish c'.disk).verdicts.filter (·.interface = source) :=
          (finish_fed scenario engine disk' actions' source).symm
  · rcases interface?_fed scenario engine disk actions hknown with
      ⟨i, hown, hsource, hfind, hfind'⟩
    have hrecords : ∀ record ∈ i.records, record.source = source := by
      intro record hrecord
      exact (hown.records record hrecord).trans hsource
    exact ⟨i, hfind, fun record hrecord => append_refused hfind hrecord, fun _ => hrecords,
      i.waited, hfind', fun _ => hrecords⟩

/-- A request without a payload. -/
def blankRequest (source : Source) : Record :=
  Record.made source "/info" Payload.empty default

/-- The library sends one request, and that headers carry trace ids is asserted. -/
def aloneActions : List Action :=
  [.append .library (blankRequest .library), .register .library "headers" .traceHeaders]

/-- In between, the agent sends two requests, and something is asserted about it too. -/
def busyActions : List Action :=
  [.append .agent (blankRequest .agent), .append .library (blankRequest .library),
    .register .agent "ids" .uniqueTraceIds, .except .agent 7,
    .append .agent (blankRequest .agent), .register .library "headers" .traceHeaders]

theorem interface_isolated_busy :
    let alone := (Course.start (Session.inMemory default {}) Disk.empty).run aloneActions
    let busy := (Course.start (Session.inMemory default {}) Disk.empty).run busyActions
    (busy.session.finish busy.disk).verdicts.filter (·.interface = .library) =
        (alone.session.finish alone.disk).verdicts.filter (·.interface = .library) ∧
      busy.session.append .library (blankRequest .agent) =
        .error (.sourceMismatch .library .agent) := by
  intro alone busy
  have hcancel : .cancel ∈ busyActions ↔ .cancel ∈ aloneActions := by
    simp [busyActions, aloneActions]
  rcases interface_isolated default {} Disk.empty Disk.empty .library
    (show busyActions.filter (Action.isOn .library) = aloneActions.filter (Action.isOn .library)
      from rfl) hcancel with ⟨hsame, hinterface⟩
  rcases hinterface (by decide) with ⟨-, -, hrefused, -⟩
  exact ⟨hsame, (hrefused (blankRequest .agent) (by decide)).1⟩

end Session
end TraceAudit
