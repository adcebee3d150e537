import TraceAudit.Proofs.Schema.AllowLists
import TraceAudit.Proofs.Session.Isolation
import TraceAudit.Proofs.Session.Visible

/-!
# Tolerating what is known

A run that is checked once tells the keys of all that is wrong. The next run over the same records
may be told to tolerate them.

* Sessions number their records anew, which no violation but by its number shows:
  `SchemaReport.found_unnumbered`;
* `Session.Shows` says that the interfaces of a session hold given records in the end, and
  `Session.Shows.tolerates` what the schema validators of such a session report;
* `Session.shows_fed` and `Interface.queued_afterAll` say so of a session in memory, whatever else
  is done with it;
* `allow_lists_only_move` puts this together with what allow-lists do to a report.
-/

namespace TraceAudit

/-! ## Numbers -/

/-- The violation without the number of its record. -/
def Violation.unnumbered (v : Violation) : Violation := { v with seq := 0 }

theorem Record.violations_unnumbered (r : Record) :
    r.unnumbered.violations = r.violations.map Violation.unnumbered := by
  have hofRecord : Violation.ofRecord? r.unnumbered =
      (Violation.ofRecord? r).map (·.map Violation.unnumbered) := by
    have hselect : Selection.select r.unnumbered.source r.unnumbered.path r.unnumbered.json? =
        Selection.select r.source r.path r.json? := rfl
    have hpayload : r.unnumbered.payload = r.payload := rfl
    simp only [Violation.ofRecord?, hselect, hpayload]
    cases Selection.select r.source r.path r.json? with
    | skip => rfl
    | unsupported reason => rfl
    | schema name =>
      cases r.payload.content with
      | empty => rfl
      | raw => rfl
      | json value =>
        simp only [Option.map_some, List.map_map]
        rfl
  rw [violations, violations, hofRecord]
  have hrequest : r.unnumbered.isRequest = r.isRequest := rfl
  rw [hrequest]
  cases r.isRequest with
  | false => rfl
  | true => cases Violation.ofRecord? r <;> rfl

namespace SchemaReport

theorem found_unnumbered (records : List Record) :
    found (records.map Record.unnumbered) = (found records).map Violation.unnumbered := by
  simp only [found_eq, List.flatMap_map, List.map_flatMap, Record.violations_unnumbered]

/-- What is found in the records of one source. -/
theorem found_filter (records : List Record) (source : Source) :
    found (records.filter (·.source = source)) =
      (found records).filter (·.source = source) := by
  simp only [found_eq]
  induction records with
  | nil => rfl
  | cons r rest ih =>
    have hsource : ∀ v ∈ r.violations, v.source = r.source := by
      intro v hv
      rcases Violation.of_mem_violations hv with ⟨schema, pointer, message, rfl⟩
      rfl
    rw [List.flatMap_cons, List.filter_append, ← ih]
    by_cases hown : r.source = source
    · have hall : r.violations.filter (·.source = source) = r.violations :=
        List.filter_eq_self.2 fun v hv => decide_eq_true ((hsource v hv).trans hown)
      simp [hown, hall]
    · have hnone : r.violations.filter (·.source = source) = [] := by
        refine List.filter_eq_nil_iff.2 fun v hv => ?_
        rw [hsource v hv]
        simpa using hown
      simp [hown, hnone]

end SchemaReport

/-- The validator passed, and tolerated what was found in the records of a source. -/
def Verdict.Tolerates (verdict : Verdict) (records : List Record) (source : Source) : Prop :=
  verdict.isPassed = true ∧
    verdict.tolerated.map Violation.unnumbered =
      ((SchemaReport.check records []).violations.filter (·.source = source)).map
        Violation.unnumbered

/-! ## Sessions over given records -/

namespace Session

theorem cancelled_foldl {step : Teardown → Source → Teardown}
    (hstep : ∀ t source, (step t source).session.cancelled = t.session.cancelled)
    (t : Teardown) (sources : List Source) :
    (sources.foldl step t).session.cancelled = t.session.cancelled := by
  induction sources generalizing t with
  | nil => rfl
  | cons source rest ih => exact (ih (step t source)).trans (hstep t source)

/-- Teardown does not cancel the session. -/
theorem cancelled_teardown (s : Session) (disk : Disk) :
    (s.teardown disk).session.cancelled = s.cancelled := by
  have hsettle : ∀ (t : Teardown) (source : Source),
      (t.settleOn disk source).session.cancelled = t.session.cancelled := by
    intro t source
    unfold Teardown.settleOn
    split
    · rfl
    · split <;> rfl
  have hwait : ∀ (t : Teardown) (source : Source),
      (t.waitOn disk source).session.cancelled = t.session.cancelled := by
    intro t source
    unfold Teardown.waitOn
    split
    · rfl
    · simp only
      split <;> rfl
  exact (cancelled_foldl hsettle _ _).trans (cancelled_foldl hwait _ _)

/-- In the end each interface holds those of the records that are of its source, numbered anew. -/
def Shows (s : Session) (disk : Disk) (records : List Record) : Prop :=
  ∀ i ∈ (s.teardown disk).session.interfaces,
    i.records.map Record.unnumbered =
      (records.filter (·.source = i.source)).map Record.unnumbered

/-- What is found on an interface is what was found in the records of its source. -/
theorem Shows.found {s : Session} {disk : Disk} {records : List Record} (h : s.Shows disk records)
    {i : Interface} (hi : i ∈ (s.teardown disk).session.interfaces) :
    (SchemaReport.found i.records).map Violation.unnumbered =
      ((SchemaReport.found records).filter (·.source = i.source)).map Violation.unnumbered := by
  rw [← SchemaReport.found_unnumbered, h i hi, SchemaReport.found_unnumbered,
    SchemaReport.found_filter]

/-- A schema validator that allows all known keys passes, and reports as tolerated what was found in
the records of its source. -/
theorem Shows.tolerates {s : Session} {disk : Disk} {records : List Record}
    (h : s.Shows disk records) (hcancelled : s.cancelled = false) {i : Interface}
    (hi : i ∈ (s.teardown disk).session.interfaces) {v : Validator} (hv : v ∈ i.queue)
    {allowed : List String} (hassertion : v.assertion = .schemas allowed)
    (hallowed : SchemaReport.knownKeys records ⊆ allowed) :
    ∃ verdict ∈ (s.finish disk).verdicts, verdict.receipt = v.receipt ∧
      verdict.Tolerates records i.source := by
  let t := (s.teardown disk).session
  have hreport : v.evaluate (i.evidence t.scenario t.engine.timingFallback) ∈
      (s.finish disk).verdicts := by
    refine List.mem_flatMap.2 ⟨i, hi, ?_⟩
    have hnot : (s.teardown disk).session.cancelled = false :=
      (cancelled_teardown s disk).trans hcancelled
    rw [verdictsOf, hnot]
    exact List.mem_map_of_mem hv
  -- What is found on the interface was found in the given records, under the same key.
  have hknown : ∀ found ∈ SchemaReport.found i.records, found.key ∈ allowed := by
    intro found hfound
    have hsame : found.unnumbered ∈
        ((SchemaReport.found records).filter (·.source = i.source)).map Violation.unnumbered := by
      rw [← h.found hi]
      exact List.mem_map_of_mem hfound
    rcases List.mem_map.1 hsame with ⟨former, hformer, heq⟩
    have hkey : former.unnumbered.key = found.unnumbered.key := congrArg Violation.key heq
    refine hallowed (List.mem_map.2 ⟨former, ?_, hkey⟩)
    rw [SchemaReport.violations_nil]
    exact List.mem_of_mem_filter hformer
  rcases SchemaReport.check_of_known i.records hknown with ⟨hnone, hall⟩
  rcases Validator.evaluate_schemas hassertion
    (i.evidence t.scenario t.engine.timingFallback) with ⟨hpassed, htolerated⟩
  refine ⟨_, hreport, rfl, hpassed.2 hnone, ?_⟩
  rw [htolerated, SchemaReport.violations_nil, ← h.found hi]
  exact congrArg _ hall

/-- The record that an operation hands in, if it is of the source that it is offered to. -/
def Action.record? : Action → Option Record
  | .append source record => if record.source = source then some record else none
  | _ => none

/-- A record is taken by the interface of its source only. -/
theorem Action.source_of_record? {action : Action} {r : Record} (h : action.record? = some r)
    (source : Source) : action.isOn source = true ↔ r.source = source := by
  cases action with
  | append target record =>
    rw [record?] at h
    split at h
    · rename_i htarget
      cases h
      simp [isOn, target?, ← htarget]
    · cases h
  | _ => cases h

theorem Action.filterMap_record? (actions : List Action) (source : Source) :
    (actions.filter (Action.isOn source)).filterMap Action.record? =
      (actions.filterMap Action.record?).filter (·.source = source) := by
  induction actions with
  | nil => rfl
  | cons action rest ih =>
    cases hrecord : action.record? with
    | none =>
      rw [List.filterMap_cons_none hrecord, ← ih, List.filter_cons]
      split
      · exact List.filterMap_cons_none hrecord
      · rfl
    | some r =>
      have hiff := Action.source_of_record? hrecord source
      rw [List.filterMap_cons_some hrecord, List.filter_cons, List.filter_cons]
      by_cases hon : action.isOn source = true
      · rw [if_pos hon, if_pos (decide_eq_true (hiff.1 hon)), List.filterMap_cons_some hrecord, ih]
      · rw [if_neg hon, if_neg (by simpa [hiff] using hon), ih]

end Session

/-! ## Sessions in memory -/

namespace Interface

open Session (Action)

theorem records_after (i : Interface) {action : Action} (h : action.isOn i.source = true) :
    (i.after action).records.map Record.unnumbered =
      (i.records ++ action.record?.toList).map Record.unnumbered := by
  cases action with
  | append source record =>
    have hsource : source = i.source := by simpa [Action.isOn, Action.target?] using h
    subst hsource
    rw [after_append, Action.record?]
    split
    · simp [push, Record.unnumbered]
    · simp
  | register source testId assertion =>
    rw [after_register]
    split <;> simp [enqueue, Action.record?]
  | _ => simp [after, Interface.except, waited, close, Action.record?]

/-- An interface holds what was handed in of its source. -/
theorem records_afterAll (i : Interface) (actions : List Action) :
    (i.afterAll actions).records.map Record.unnumbered =
      (i.records ++ (actions.filterMap Action.record?).filter (·.source = i.source)).map
        Record.unnumbered := by
  have hown : ∀ action ∈ actions.filter (Action.isOn i.source), action.isOn i.source = true :=
    fun action haction => (List.mem_filter.1 haction).2
  rw [afterAll, ← Action.filterMap_record?]
  -- From here on only the operations on this interface matter, and each may add a record.
  generalize actions.filter (Action.isOn i.source) = own at hown
  induction own generalizing i with
  | nil => simp
  | cons action rest ih =>
    have hrest : ∀ later ∈ rest, later.isOn (i.after action).source = true := by
      intro later hlater
      rw [i.source_after action]
      exact hown later (List.mem_cons_of_mem action hlater)
    rw [List.foldl_cons, ih (i.after action) hrest, List.map_append,
      records_after i (hown action List.mem_cons_self), ← List.map_append, List.append_assoc]
    cases hrecord : action.record? <;> simp [hrecord]

/-- Until its queue is run or abandoned, an interface is open, and keeps its validators. -/
theorem queue_after {i : Interface} (hopen : i.closed = false) {action : Action}
    (h : ¬action.closes i.source) (hon : action.isOn i.source = true) :
    (i.after action).closed = false ∧ i.queue ⊆ (i.after action).queue := by
  cases action with
  | append source record =>
    rw [after_append]
    split
    · exact ⟨hopen, fun v hv => hv⟩
    · exact ⟨hopen, fun v hv => hv⟩
  | register source testId assertion =>
    rw [after_register, hopen]
    exact ⟨hopen, fun v hv => List.mem_append_left _ hv⟩
  | evaluate source =>
    have hsource : source = i.source := by simpa [Action.isOn, Action.target?] using hon
    exact absurd hsource h
  | abandon source reason =>
    have hsource : source = i.source := by simpa [Action.isOn, Action.target?] using hon
    exact absurd hsource h
  | _ => exact ⟨hopen, fun v hv => hv⟩

theorem queue_foldl {i : Interface} (hopen : i.closed = false) {own : List Action}
    (h : ∀ action ∈ own, action.isOn i.source = true ∧ ¬action.closes i.source) :
    (own.foldl after i).source = i.source ∧ (own.foldl after i).closed = false ∧
      i.queue ⊆ (own.foldl after i).queue := by
  induction own generalizing i with
  | nil => exact ⟨rfl, hopen, fun v hv => hv⟩
  | cons action rest ih =>
    rcases h action List.mem_cons_self with ⟨hon, hcloses⟩
    rcases queue_after hopen hcloses hon with ⟨hopen', hqueue⟩
    have hsource := i.source_after action
    have hrest : ∀ later ∈ rest,
        later.isOn (i.after action).source = true ∧ ¬later.closes (i.after action).source := by
      intro later hlater
      rw [hsource]
      exact h later (List.mem_cons_of_mem action hlater)
    rcases ih hopen' hrest with ⟨hsource', hclosed', hqueue'⟩
    exact ⟨hsource'.trans hsource, hclosed', fun v hv => hqueue' (hqueue hv)⟩

/-- What is registered on an interface waits in its queue, unless the queue is run or abandoned. -/
theorem queued_afterAll {i : Interface} (hopen : i.closed = false) {actions : List Action}
    (hnone : ∀ action ∈ actions, ¬action.closes i.source) {testId : String}
    {assertion : Assertion} (h : .register i.source testId assertion ∈ actions) :
    ∃ v ∈ (i.afterAll actions).queue, v.interface = i.source ∧ v.testId = testId ∧
      v.assertion = assertion := by
  have hregistered : .register i.source testId assertion ∈
      actions.filter (Action.isOn i.source) :=
    List.mem_filter.2 ⟨h, by simp [Action.isOn, Action.target?]⟩
  have hown : ∀ action ∈ actions.filter (Action.isOn i.source),
      action.isOn i.source = true ∧ ¬action.closes i.source := by
    intro action haction
    rcases List.mem_filter.1 haction with ⟨hmem, hon⟩
    exact ⟨hon, hnone action hmem⟩
  rw [afterAll]
  rcases List.append_of_mem hregistered with ⟨front, back, hsplit⟩
  rw [hsplit] at hown ⊢
  -- The interface is open when the assertion is registered, and keeps the validator from then on.
  rcases queue_foldl hopen fun action hmem => hown action (List.mem_append_left _ hmem) with
    ⟨hsource, hclosed, -⟩
  generalize hj : front.foldl after i = j at hsource hclosed
  have hafter : j.after (.register i.source testId assertion) = j.enqueue testId assertion := by
    rw [after_register, hclosed]
    rfl
  have hback : ∀ action ∈ back, action.isOn (j.enqueue testId assertion).source = true ∧
      ¬action.closes (j.enqueue testId assertion).source := by
    intro action hmem
    rw [show (j.enqueue testId assertion).source = i.source from hsource]
    exact hown action (List.mem_append_right _ (List.mem_cons_of_mem _ hmem))
  rcases queue_foldl (i := j.enqueue testId assertion) hclosed hback with ⟨-, -, hkept⟩
  rw [List.foldl_append, List.foldl_cons, hj, hafter]
  exact ⟨⟨j.nextId, testId, j.source, assertion⟩, hkept (List.mem_append_right _ (by simp)),
    hsource, rfl, rfl⟩

end Interface

namespace Session

section InMemory

variable (scenario : Scenario) (engine : EngineSettings) (disk : Disk) (actions : List Action)

/-- A session in memory holds what was handed in. -/
theorem shows_fed :
    (fed scenario engine disk actions).session.Shows (fed scenario engine disk actions).disk
      (actions.filterMap Action.record?) := by
  intro i hi
  rw [fed_teardown, mapAll, fed_interfaces, List.map_map] at hi
  rcases List.mem_map.1 hi with ⟨source, -, rfl⟩
  have hsource : ((Interface.inMemory source).afterAll actions).source = source :=
    ((Interface.inMemory source).origin_afterAll actions).1
  have hwaited : ((Interface.inMemory source).afterAll actions).waited.source = source := hsource
  have hrecords := (Interface.inMemory source).records_afterAll actions
  simp only [Function.comp_apply, hwaited]
  exact hrecords

/-- A registration waits for the end of the session, unless its queue is run or abandoned before. -/
theorem queued_fed {source : Source} (hknown : source ∈ scenario.sources)
    (hnone : ∀ action ∈ actions, ¬action.closes source) {testId : String} {assertion : Assertion}
    (h : .register source testId assertion ∈ actions) :
    let c := fed scenario engine disk actions
    ∃ i ∈ (c.session.teardown c.disk).session.interfaces, i.source = source ∧
      ∃ v ∈ i.queue, v.interface = source ∧ v.testId = testId ∧ v.assertion = assertion := by
  intro c
  have hmem : ((Interface.inMemory source).afterAll actions).waited ∈
      (c.session.teardown c.disk).session.interfaces := by
    rw [fed_teardown, mapAll, fed_interfaces]
    exact List.mem_map_of_mem (List.mem_map_of_mem hknown)
  have hqueued := (Interface.queued_afterAll (i := Interface.inMemory source) rfl hnone h)
  exact ⟨_, hmem, ((Interface.inMemory source).origin_afterAll actions).1, hqueued⟩

end InMemory

end Session

/-- Of the records of a run, longer allow-lists only take violations away, and count them as
tolerated; a validator that passes keeps passing. The keys of all that is found without an
allow-list are one that a configuration may have. Every schema validator that allows them passes in
a session over these records, and tolerates what was found in the records of its source. In
particular it does so in a session in memory, whatever else is done with it but to cancel it or to
run the queue before. -/
theorem allow_lists_only_move (records : List Record) :
    (∀ A B : List String, A ⊆ B →
      (SchemaReport.check records A).checked = (SchemaReport.check records B).checked ∧
      (SchemaReport.check records B).violations.Sublist (SchemaReport.check records A).violations ∧
      (∀ allowed ∈ [A, B],
        ((SchemaReport.check records allowed).violations ++
            (SchemaReport.check records allowed).tolerated).Perm
          (SchemaReport.check records []).violations) ∧
      ∀ (e : Evidence) (v w : Validator), e.records = records → v.assertion = .schemas A →
        w.assertion = .schemas B → (v.evaluate e).isPassed = true →
          (w.evaluate e).isPassed = true) ∧
    (∀ config : Config,
      { config with allowedErrors := SchemaReport.knownKeys records }.fault? =
        { config with allowedErrors := [] }.fault?) ∧
    (∀ (s : Session) (disk : Disk), s.cancelled = false → s.Shows disk records →
      ∀ i ∈ (s.teardown disk).session.interfaces, ∀ v ∈ i.queue, ∀ allowed,
        v.assertion = .schemas allowed → SchemaReport.knownKeys records ⊆ allowed →
          ∃ verdict ∈ (s.finish disk).verdicts, verdict.receipt = v.receipt ∧
            verdict.Tolerates records i.source) ∧
    ∀ (scenario : Scenario) (engine : EngineSettings) (disk : Disk)
      (actions : List Session.Action),
      actions.filterMap Session.Action.record? = records → .cancel ∉ actions →
        let c := (Session.Course.start (Session.inMemory scenario engine) disk).run actions
        ∀ source ∈ scenario.sources, (∀ action ∈ actions, ¬action.closes source) →
          ∀ testId allowed, .register source testId (.schemas allowed) ∈ actions →
            SchemaReport.knownKeys records ⊆ allowed →
              ∃ verdict ∈ (c.session.finish c.disk).verdicts, verdict.interface = source ∧
                verdict.testId = testId ∧ verdict.Tolerates records source := by
  refine ⟨?_, Config.fault?_knownKeys records, ?_, ?_⟩
  · intro A B hsubset
    refine ⟨rfl, SchemaReport.violations_sublist records hsubset,
      fun allowed _ => SchemaReport.parts_perm records allowed, ?_⟩
    intro e v w _ hv hw hpassed
    exact Validator.isPassed_schemas hv hw hsubset hpassed
  · intro s disk hcancelled hshows i hi v hv allowed hassertion hallowed
    exact hshows.tolerates hcancelled hi hv hassertion hallowed
  · rintro scenario engine disk actions rfl hcancel c source hsource hnone testId allowed hregister
      hallowed
    have hcancelled : c.session.cancelled = false := by
      have hiff := Session.cancelled_run
        (Session.Course.start (Session.inMemory scenario engine) disk) actions
      have hstart : (Session.Course.start (Session.inMemory scenario engine)
        disk).session.cancelled = false := rfl
      rw [hstart] at hiff
      simpa [hcancel] using hiff
    rcases Session.queued_fed scenario engine disk actions hsource hnone hregister with
      ⟨i, hi, hisource, v, hv, hinterface, htestId, hassertion⟩
    rcases (Session.shows_fed scenario engine disk actions).tolerates hcancelled hi hv hassertion
      hallowed with ⟨verdict, hverdict, hreceipt, htolerates⟩
    rw [hisource] at htolerates
    have hsame : verdict.interface = v.interface ∧ verdict.testId = v.testId :=
      ⟨congrArg Receipt.interface hreceipt, congrArg Receipt.testId hreceipt⟩
    exact ⟨verdict, hverdict, hsame.1.trans hinterface, hsame.2.trans htestId, htolerates⟩

/-- A library and an agent that both send a number where traces are expected. -/
def numbersSent : List Record :=
  [ Record.made .library "/v0.4/traces" (Payload.ofJson (.nat 3)) default,
    Record.made .agent "/api/v0.2/traces" (Payload.ofJson (.nat 4)) default ]

/-- The two payloads are handed in, and their conformance is asserted for both sources. -/
def numberActions (allowed : List String) : List Session.Action :=
  numbersSent.map (fun r => .append r.source r) ++
    [.register .library "schemas" (.schemas allowed), .register .agent "schemas" (.schemas allowed)]

theorem allow_lists_only_move_numbers :
    SchemaReport.knownKeys numbersSent = ["/v0.4/traces#", "/api/v0.2/traces#"] ∧
      { (default : Config) with allowedErrors := SchemaReport.knownKeys numbersSent }.fault? =
        none ∧
      let c := (Session.Course.start (Session.inMemory default {}) Disk.empty).run
        (numberActions (SchemaReport.knownKeys numbersSent))
      ∀ source ∈ [Source.library, Source.agent], ∃ verdict ∈ (c.session.finish c.disk).verdicts,
        verdict.interface = source ∧ verdict.testId = "schemas" ∧
          verdict.Tolerates numbersSent source := by
  rcases allow_lists_only_move numbersSent with ⟨-, hfault, -, hmemory⟩
  refine ⟨by decide +kernel, (hfault default).trans (by decide), ?_⟩
  have hhanded : (numberActions (SchemaReport.knownKeys numbersSent)).filterMap
      Session.Action.record? = numbersSent := rfl
  have hcancel : .cancel ∉ numberActions (SchemaReport.knownKeys numbersSent) := by
    simp [numberActions]
  have hcloses : ∀ source, ∀ action ∈ numberActions (SchemaReport.knownKeys numbersSent),
      ¬action.closes source := by
    simp [numberActions, numbersSent, Session.Action.closes]
  intro c source hsource
  have hcases : source = .library ∨ source = .agent := by simpa using hsource
  have hregistered : .register source "schemas" (.schemas (SchemaReport.knownKeys numbersSent)) ∈
      numberActions (SchemaReport.knownKeys numbersSent) := by
    rcases hcases with rfl | rfl <;> simp [numberActions]
  have hknown : source ∈ (default : Scenario).sources := by
    rcases hcases with rfl | rfl <;> decide
  exact hmemory default {} Disk.empty _ hhanded hcancel source hknown (hcloses source) "schemas" _
    hregistered fun key hkey => hkey

end TraceAudit
