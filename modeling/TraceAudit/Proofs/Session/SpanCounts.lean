import TraceAudit.Proofs.Correlation.SpanCounts
import TraceAudit.Proofs.Session.Tolerance

/-!
# Span counts of a session

A test of a session in memory may assert how many spans a call produced, before or after the records
with these spans are handed in.

* `Interface.asked_afterAll` lists the validators that wait on an interface, in the order of their
  registrations;
* `Session.JudgesCounts` says that verdicts answer registrations, and judge the numbers of spans by
  what was sent;
* `Session.span_counts_exact` says so of what evaluating an interface returns, and of the report.
-/

namespace TraceAudit

/-! ## Registrations -/

/-- What a validator was registered with. -/
def Validator.asked (v : Validator) : String × Assertion := (v.testId, v.assertion)

namespace Session

/-- The test and the assertion that an operation registers on the interface of a source. -/
def Action.asks? (source : Source) : Action → Option (String × Assertion)
  | .register target testId assertion => if target = source then some (testId, assertion) else none
  | _ => none

theorem Action.filterMap_asks? (source : Source) (actions : List Action) :
    (actions.filter (Action.isOn source)).filterMap (Action.asks? source) =
      actions.filterMap (Action.asks? source) := by
  induction actions with
  | nil => rfl
  | cons action rest ih =>
    rw [List.filter_cons]
    split
    · rw [List.filterMap_cons, List.filterMap_cons, ih]
    · rename_i hother
      -- An operation on another interface registers nothing here.
      have hnone : action.asks? source = none := by
        cases action with
        | register target testId assertion =>
          have hne : target ≠ source := by simpa [isOn, target?] using hother
          rw [asks?, if_neg hne]
        | _ => rfl
      rw [List.filterMap_cons_none hnone, ih]

end Session

namespace Interface

open Session (Action)

theorem asked_after {i : Interface} (hopen : i.closed = false) {action : Action}
    (h : ¬action.closes i.source) (hon : action.isOn i.source = true) :
    (i.after action).queue.map Validator.asked =
      i.queue.map Validator.asked ++ (action.asks? i.source).toList := by
  cases action with
  | append source record =>
    rw [after_append]
    split <;> simp [push, Action.asks?]
  | register source testId assertion =>
    have hsource : source = i.source := by simpa [Action.isOn, Action.target?] using hon
    rw [after_register, hopen, if_neg Bool.false_ne_true, Action.asks?, if_pos hsource]
    simp [enqueue, Validator.asked]
  | evaluate source =>
    have hsource : source = i.source := by simpa [Action.isOn, Action.target?] using hon
    exact absurd hsource h
  | abandon source reason =>
    have hsource : source = i.source := by simpa [Action.isOn, Action.target?] using hon
    exact absurd hsource h
  | _ => simp [after, Interface.except, waited, Action.asks?]

/-- Until its queue is run or abandoned, what waits on an interface is what was registered. -/
theorem asked_afterAll {i : Interface} (hopen : i.closed = false) {actions : List Action}
    (hnone : ∀ action ∈ actions, ¬action.closes i.source) :
    (i.afterAll actions).queue.map Validator.asked =
      i.queue.map Validator.asked ++ actions.filterMap (Action.asks? i.source) := by
  have hown : ∀ action ∈ actions.filter (Action.isOn i.source),
      action.isOn i.source = true ∧ ¬action.closes i.source := by
    intro action haction
    rcases List.mem_filter.1 haction with ⟨hmem, hon⟩
    exact ⟨hon, hnone action hmem⟩
  rw [afterAll, ← Action.filterMap_asks?]
  generalize actions.filter (Action.isOn i.source) = own at hown
  induction own generalizing i with
  | nil => simp
  | cons action rest ih =>
    rcases hown action List.mem_cons_self with ⟨hon, hcloses⟩
    have hasked := asked_after hopen hcloses hon
    have hsource := i.source_after action
    have hrest := ih (queue_after hopen hcloses hon).1 (by
      rw [hsource]
      exact hnone) fun later hlater => by
        rw [hsource]
        exact hown later (List.mem_cons_of_mem action hlater)
    rw [List.foldl_cons, hrest, hasked, hsource, List.append_assoc]
    cases hasks : action.asks? i.source <;> simp [hasks]

end Interface

namespace Session

/-! ## Verdicts on registrations -/

/-- The verdicts answer the registrations one by one, and judge expected numbers of spans by the
spans that were sent. -/
structure JudgesCounts (sent : List Span) (asked : List (String × Assertion))
    (verdicts : List Verdict) : Prop where
  answers : verdicts.map (fun v => (v.testId, v.description)) =
    asked.map fun a => (a.1, a.2.describe)
  counts : ∀ (k : Nat) (testId : String) (call : TestCall) (expected : Nat) (mode : CountMode)
    (fullTrace : Bool), asked[k]? = some (testId, .spanCount call expected mode fullTrace) →
    ∃ verdict, verdicts[k]? = some verdict ∧
      JudgedCount sent call expected mode fullTrace verdict.outcome

/-- A queue that is run judges by the spans in the records that are visible. -/
theorem judgesCounts_evaluate {i : Interface} {sent : List Span}
    (hsent : Correlation.bare (Correlation.spans i.records) = sent) (scenario : Scenario) :
    JudgesCounts sent (i.queue.map Validator.asked) (i.evaluate scenario false).2 where
  answers := by
    rw [Interface.evaluate, List.map_map, List.map_map]
    rfl
  counts := by
    intro k testId call expected mode fullTrace hasked
    rw [List.getElem?_map] at hasked
    rcases Option.map_eq_some_iff.1 hasked with ⟨v, hv, heq⟩
    refine ⟨v.evaluate (i.evidence scenario false), ?_, ?_⟩
    · rw [Interface.evaluate, List.getElem?_map, hv, Option.map_some]
    · have htiming : (i.evidence scenario false).timingFallback = false := rfl
      rw [← hsent]
      exact Validator.judged_spanCount (Prod.mk.inj heq).2 htiming

section InMemory

variable (scenario : Scenario) (engine : EngineSettings) (disk : Disk) {actions : List Action}

theorem settings_fed (actions : List Action) :
    (fed scenario engine disk actions).session.scenario = scenario ∧
      (fed scenario engine disk actions).session.engine = engine := by
  rcases fed_session scenario engine disk actions with ⟨cancelled, calls, hfed⟩
  exact ⟨congrArg Session.scenario hfed, congrArg Session.engine hfed⟩

/-- Unless the session is cancelled, the report runs the queue of an interface. -/
theorem finish_fed_evaluate (hcancel : .cancel ∉ actions) {source : Source}
    (hknown : source ∈ scenario.sources) :
    ((fed scenario engine disk actions).session.finish
        (fed scenario engine disk actions).disk).verdicts.filter (·.interface = source) =
      (((Interface.inMemory source).afterAll actions).waited.evaluate scenario
        engine.timingFallback).2 := by
  have hrunning : (fed scenario engine disk actions).session.cancelled = false := by
    have hiff := cancelled_run (Course.start (Session.inMemory scenario engine) disk) actions
    have hstart : (Course.start (Session.inMemory scenario engine) disk).session.cancelled =
      false := rfl
    rw [hstart] at hiff
    simpa [hcancel, fed] using hiff
  refine (finish_fed scenario engine disk actions source).trans ?_
  rw [if_pos hknown, verdictsOf, hrunning, if_neg Bool.false_ne_true,
    (settings_fed scenario engine disk actions).1, (settings_fed scenario engine disk actions).2]

/-- Running the queue of an open interface returns what the operations have made of it. -/
theorem step_evaluate_fed (actions : List Action) {source : Source}
    (hknown : source ∈ scenario.sources) :
    ((fed scenario engine disk actions).step (.evaluate source)).returned =
      (fed scenario engine disk actions).returned ++
        (((Interface.inMemory source).afterAll actions).evaluate scenario
          engine.timingFallback).2.map fun v => ⟨source, false, v⟩ := by
  have hfind : (fed scenario engine disk actions).session.interface? source =
      some ((Interface.inMemory source).afterAll actions) :=
    interface?_of_each (fed_interfaces scenario engine disk actions)
      (fun other => ((Interface.inMemory other).origin_afterAll actions).1) hknown
  simp only [Course.step, Course.drain, hfind, settings_fed]

end InMemory

/-- Whatever is done with a session in memory that attributes no spans by timing: expected numbers
of spans are judged by the spans in the payloads that were handed in for the interface, which are
the same ones however the records are numbered. This holds of what evaluating the interface returns,
and of the report unless the session is cancelled. -/
theorem span_counts_exact (scenario : Scenario) {engine : EngineSettings} (disk : Disk)
    {actions : List Action} (htiming : engine.timingFallback = false) {source : Source}
    (hknown : source ∈ scenario.sources) (hopen : ∀ action ∈ actions, ¬action.closes source) :
    let c := (Course.start (Session.inMemory scenario engine) disk).run actions
    let records := (actions.filterMap Action.record?).filter (·.source = source)
    let asked := actions.filterMap (Action.asks? source)
    ∃ sent, (∀ spans, Correlation.Sends records spans ↔ spans = sent) ∧
      (∀ id, (Correlation.carrying id sent).length ≤ (Correlation.family id sent).length ∧
        ((Correlation.family id sent).length = 0 ↔ (Correlation.carrying id sent).length = 0)) ∧
      (∃ verdicts, JudgesCounts sent asked verdicts ∧
        (c.step (.evaluate source)).returned =
          c.returned ++ verdicts.map fun v => ⟨source, false, v⟩) ∧
      (.cancel ∉ actions → JudgesCounts sent asked
        ((c.session.finish c.disk).verdicts.filter (·.interface = source))) := by
  intro c records asked
  let i := (Interface.inMemory source).afterAll actions
  let sent := Correlation.bare (Correlation.spans records)
  have hsent : Correlation.bare (Correlation.spans i.records) = sent :=
    Correlation.bare_spans_unnumbered ((Interface.inMemory source).records_afterAll actions)
  have hasked : i.queue.map Validator.asked = asked :=
    Interface.asked_afterAll (i := Interface.inMemory source) rfl hopen
  refine ⟨sent, fun spans => Correlation.sends_iff, fun id => ⟨?_, ?_⟩,
    ⟨(i.evaluate scenario false).2, ?_, ?_⟩, fun hcancel => ?_⟩
  · exact (Correlation.carrying_sublist_family id sent).length_le
  · rw [List.length_eq_zero_iff, List.length_eq_zero_iff]
    exact Correlation.family_eq_nil_iff
  · rw [← hasked]
    exact judgesCounts_evaluate hsent scenario
  · have hreturned := step_evaluate_fed scenario engine disk actions hknown
    rwa [htiming] at hreturned
  · have hreport := finish_fed_evaluate scenario engine disk hcancel hknown
    rw [htiming] at hreport
    have hjudges := judgesCounts_evaluate (i := i.waited) hsent scenario
    rw [← hasked]
    exact hreport ▸ hjudges

/-- The call with the id `A`. -/
def callA : TestCall := { (default : TestCall) with id := "A" }

/-- Two families of spans, of which the root of the first one carries the id, and a payload that
does not decode. More spans are asserted than carry the id, and then as many as the family has. -/
def familyActions : List Action :=
  [ .append .library (Correlation.familyRecord 7 [("http.useragent", .str "test rid/A")]),
    .register .library "plain" (.spanCount callA 2 .atLeast false),
    .append .library (Record.made .library "/v0.4/traces" (Payload.ofJson (.nat 3)) default),
    .append .library (Correlation.familyRecord 8 [("http.useragent", .str "test rid/B")]),
    .register .library "whole" (.spanCount callA 2 .exactly true) ]

theorem span_counts_exact_family :
    let c := (Course.start (Session.inMemory default {}) Disk.empty).run familyActions
    let verdicts := (c.session.finish c.disk).verdicts.filter (·.interface = .library)
    (∃ first f, verdicts[0]? = some first ∧ first.outcome = .failed f ∧
      f.message = "expected at least 2 span(s) for request A, found 1" ∧ f.observed.length = 1) ∧
    ∃ second, verdicts[1]? = some second ∧ second.outcome = .passed := by
  have hopen : ∀ action ∈ familyActions, ¬action.closes .library := by
    simp [familyActions, Action.closes]
  have hcancel : .cancel ∉ familyActions := by simp [familyActions]
  rcases @span_counts_exact default {} Disk.empty familyActions rfl .library (by decide) hopen with
    ⟨sent, hsends, -, -, hreport⟩
  have hsent := (hsends _).1 (Correlation.sends_iff.2 rfl)
  have hplain : (Correlation.counted callA.id sent false).length = 1 := by
    rw [← hsent]
    decide +kernel
  have hwhole : (Correlation.counted callA.id sent true).length = 2 := by
    rw [← hsent]
    decide +kernel
  have hjudges := hreport hcancel
  rcases hjudges.counts 0 "plain" callA 2 .atLeast false rfl with ⟨first, hfirst, hjudged⟩
  rcases hjudges.counts 1 "whole" callA 2 .exactly true rfl with ⟨second, hsecond, hjudged'⟩
  refine ⟨?_, second, hsecond, (hjudged'.exact rfl).2 hwhole.symm⟩
  have hfails : first.outcome ≠ .passed := by
    intro hpassed
    have hle := (hjudged.atLeast rfl).1 hpassed
    omega
  cases houtcome : first.outcome with
  | passed => exact absurd houtcome hfails
  | failed f =>
    have hsome : Correlation.carrying callA.id sent ≠ [] :=
      List.ne_nil_of_length_eq_add_one hplain
    have htold := hjudged.told f houtcome hsome
    have hmessage := htold.message
    have hlength := congrArg List.length htold.observed
    rw [hplain] at hmessage
    rw [List.length_map, List.length_take, hplain] at hlength
    exact ⟨first, f, hfirst, houtcome, hmessage, hlength⟩

end Session
end TraceAudit
