import TraceAudit.Proofs.Session.Course

/-!
# The books of a session

`Session.Balanced` is what holds between any two operations on a session: the verdicts that were
returned, and then the validators that still wait, are those of the registrations, in their order.
`Session.verdicts_exactly_once` adds the report at the end.
-/

namespace TraceAudit.Session

/-! ## Balanced books -/

/-- The registrations on an interface. -/
def registeredOn (source : Source) (registered : List Receipt) : List Receipt :=
  registered.filter (·.interface = source)

/-- The verdicts that an interface returned. -/
def returnedBy (source : Source) (returned : List Returned) : List Verdict :=
  (returned.filter (·.caller = source)).map (·.verdict)

theorem registeredOn_append (source : Source) (a b : List Receipt) :
    registeredOn source (a ++ b) = registeredOn source a ++ registeredOn source b :=
  List.filter_append _ _

theorem returnedBy_append (source : Source) (a b : List Returned) :
    returnedBy source (a ++ b) = returnedBy source a ++ returnedBy source b := by
  simp [returnedBy]

theorem registeredOn_eq_nil {source : Source} {registered : List Receipt}
    (h : ∀ r ∈ registered, r.interface ≠ source) : registeredOn source registered = [] := by
  simpa [registeredOn] using h

theorem returnedBy_eq_nil {source : Source} {returned : List Returned}
    (h : ∀ r ∈ returned, r.caller ≠ source) : returnedBy source returned = [] := by
  simpa [returnedBy] using h

theorem returnedBy_self (source : Source) (abandoned : Bool) (verdicts : List Verdict) :
    returnedBy source (verdicts.map fun v => ⟨source, abandoned, v⟩) = verdicts := by
  have hall : (verdicts.map fun v => (⟨source, abandoned, v⟩ : Returned)).filter
      (·.caller = source) = verdicts.map fun v => ⟨source, abandoned, v⟩ := by
    apply List.filter_eq_self.2
    intro r hr
    rcases List.mem_map.1 hr with ⟨v, -, rfl⟩
    simp
  rw [returnedBy, hall, List.map_map]
  exact List.map_id verdicts

/-- The registrations on an interface are numbered from zero. Those that were answered by a verdict
come first, and the others wait in the queue; a closed interface has no queue. -/
structure BalancedLedger (registered : List Receipt) (returned : List Returned) (l : Ledger) :
    Prop where
  ids : (registeredOn l.source registered).map (·.id) = List.range l.nextId
  receipts : (returnedBy l.source returned).map Verdict.receipt ++ l.queue.map Validator.receipt =
    registeredOn l.source registered
  closed : l.closed = true → l.queue = []

/-- All ledgers of a session are balanced. -/
structure Balanced (c : Course) : Prop where
  distinct : (c.session.ledgers.map (·.source)).Nodup
  each : ∀ l ∈ c.session.ledgers, BalancedLedger c.registered c.returned l
  known : ∀ r ∈ c.registered, r.interface ∈ c.session.ledgers.map (·.source)
  callers : ∀ r ∈ c.returned, r.caller ∈ c.session.ledgers.map (·.source)
  told : ∀ r ∈ c.returned, r.verdict.isNotEvaluated = r.abandoned

theorem balanced_start {s : Session} (h : s.Started) (disk : Disk) :
    Balanced (Course.start s disk) := by
  rcases h.ledgers with ⟨sources, hnodup, hledgers, -⟩
  have hregistered : (Course.start s disk).registered = [] := rfl
  have hreturned : (Course.start s disk).returned = [] := rfl
  refine ⟨?_, ?_, by simp [hregistered], by simp [hreturned], by simp [hreturned]⟩
  · have hsources : s.ledgers.map (·.source) = sources := by
      rw [hledgers, List.map_map]
      exact List.map_id' sources
    rw [show (Course.start s disk).session = s from rfl, hsources]
    exact hnodup
  · intro l hl
    rw [show (Course.start s disk).session = s from rfl, hledgers] at hl
    rcases List.mem_map.1 hl with ⟨source, -, rfl⟩
    exact ⟨rfl, rfl, fun _ => rfl⟩

/-- What is added about other interfaces does not matter. -/
theorem BalancedLedger.append_other {registered registered' : List Receipt}
    {returned returned' : List Returned} {l : Ledger} (h : BalancedLedger registered returned l)
    (hregistered : ∀ r ∈ registered', r.interface ≠ l.source)
    (hreturned : ∀ r ∈ returned', r.caller ≠ l.source) :
    BalancedLedger (registered ++ registered') (returned ++ returned') l := by
  have hnone := registeredOn_eq_nil hregistered
  have hnone' := returnedBy_eq_nil hreturned
  refine ⟨?_, ?_, h.closed⟩
  · rw [registeredOn_append, hnone, List.append_nil]
    exact h.ids
  · rw [registeredOn_append, returnedBy_append, hnone, hnone', List.append_nil, List.append_nil]
    exact h.receipts

/-- A validator is queued: the new registration gets the next number. -/
theorem BalancedLedger.queue_append {registered : List Receipt} {returned : List Returned}
    {source : Source} {queue : List Validator} {nextId : Nat}
    (h : BalancedLedger registered returned ⟨source, queue, false, nextId⟩) (testId : String)
    (assertion : Assertion) :
    BalancedLedger (registered ++ [⟨nextId, testId, source, assertion.describe⟩]) (returned ++ [])
      ⟨source, queue ++ [⟨nextId, testId, source, assertion⟩], false, nextId + 1⟩ := by
  have hids : (registeredOn source registered).map (·.id) = List.range nextId := h.ids
  have hreceipts : (returnedBy source returned).map Verdict.receipt ++
      queue.map Validator.receipt = registeredOn source registered := h.receipts
  have hnew : registeredOn source [⟨nextId, testId, source, assertion.describe⟩] =
      [⟨nextId, testId, source, assertion.describe⟩] := by
    simp [registeredOn]
  refine ⟨?_, ?_, fun hclosed => absurd hclosed Bool.false_ne_true⟩
  · rw [registeredOn_append, List.map_append, hids, hnew, List.range_succ]
    rfl
  · rw [registeredOn_append, ← hreceipts, hnew, List.append_nil, List.map_append,
      List.append_assoc]
    rfl

/-- The queue is answered in its order. -/
theorem BalancedLedger.answer {registered : List Receipt} {returned : List Returned}
    {source : Source} {queue : List Validator} {closed : Bool} {nextId : Nat}
    (h : BalancedLedger registered returned ⟨source, queue, closed, nextId⟩)
    {verdicts : List Verdict} (abandoned : Bool)
    (hverdicts : verdicts.map Verdict.receipt = queue.map Validator.receipt) :
    BalancedLedger (registered ++ []) (returned ++ verdicts.map fun v => ⟨source, abandoned, v⟩)
      ⟨source, [], true, nextId⟩ := by
  have hreceipts : (returnedBy source returned).map Verdict.receipt ++
      queue.map Validator.receipt = registeredOn source registered := h.receipts
  refine ⟨?_, ?_, fun _ => rfl⟩
  · rw [List.append_nil]
    exact h.ids
  · rw [returnedBy_append, returnedBy_self, List.map_append, hverdicts, List.append_nil]
    simpa using hreceipts

/-- One interface is replaced, and what is added to the books is about this interface. -/
theorem Balanced.set {c : Course} (h : Balanced c) {source : Source} {i j : Interface}
    {registered : List Receipt} {returned : List Returned}
    (hfind : c.session.interface? source = some i) (hsource : j.source = source)
    (hj : BalancedLedger (c.registered ++ registered) (c.returned ++ returned) j.ledger)
    (hregistered : ∀ r ∈ registered, r.interface = source)
    (hreturned : ∀ r ∈ returned, r.caller = source ∧ r.verdict.isNotEvaluated = r.abandoned) :
    Balanced
      { c with
        session := c.session.setInterface j
        registered := c.registered ++ registered
        returned := c.returned ++ returned } := by
  have hsources := sources_setInterface c.session j
  have hmem : source ∈ c.session.ledgers.map (·.source) := by
    rcases interface?_mem hfind with ⟨hi, hisource⟩
    have hledger : i.ledger ∈ c.session.ledgers := List.mem_map_of_mem hi
    exact List.mem_map.2 ⟨i.ledger, hledger, hisource⟩
  refine ⟨?_, ?_, ?_, ?_, ?_⟩
  · rw [hsources]
    exact h.distinct
  · intro l hl
    rcases mem_ledgers_setInterface hl with rfl | ⟨hold, hne⟩
    · exact hj
    · rw [hsource] at hne
      refine (h.each l hold).append_other (fun r hr heq => hne ?_) (fun r hr heq => hne ?_)
      · rw [← heq]
        exact hregistered r hr
      · rw [← heq]
        exact (hreturned r hr).1
  · rw [hsources]
    intro r hr
    rcases List.mem_append.1 hr with hr | hr
    · exact h.known r hr
    · rw [hregistered r hr]
      exact hmem
  · rw [hsources]
    intro r hr
    rcases List.mem_append.1 hr with hr | hr
    · exact h.callers r hr
    · rw [(hreturned r hr).1]
      exact hmem
  · intro r hr
    rcases List.mem_append.1 hr with hr | hr
    · exact h.told r hr
    · exact (hreturned r hr).2

theorem Balanced.ledger_of_find {c : Course} (h : Balanced c) {source : Source} {i : Interface}
    (hfind : c.session.interface? source = some i) :
    i.source = source ∧ BalancedLedger c.registered c.returned i.ledger := by
  rcases interface?_mem hfind with ⟨hi, hsource⟩
  exact ⟨hsource, h.each i.ledger (List.mem_map_of_mem hi)⟩

/-- Every operation keeps the books balanced. -/
theorem Balanced.moves {c next : Course} (h : Balanced c) (hmoves : Moves c next) :
    Balanced next := by
  cases hmoves with
  | kept hledgers hregistered hreturned =>
    refine ⟨?_, ?_, ?_, ?_, ?_⟩
    · rw [hledgers]
      exact h.distinct
    · rw [hledgers, hregistered, hreturned]
      exact h.each
    · rw [hledgers, hregistered]
      exact h.known
    · rw [hledgers, hreturned]
      exact h.callers
    · rw [hreturned]
      exact h.told
  | @queued source i testId assertion hfind hopen =>
    rcases h.ledger_of_find hfind with ⟨hsource, hledger⟩
    subst hsource
    rw [Interface.ledger, hopen] at hledger
    have hj := hledger.queue_append testId assertion
    have hset := h.set (j := { i with
      queue := i.queue ++ [⟨i.nextId, testId, i.source, assertion⟩], nextId := i.nextId + 1 })
      hfind rfl (by rw [Interface.ledger, hopen]; exact hj) (by simp) (by simp)
    simpa using hset
  | @answered source abandoned i verdicts hfind hreceipts htold =>
    rcases h.ledger_of_find hfind with ⟨hsource, hledger⟩
    subst hsource
    have hj := hledger.answer abandoned hreceipts
    have htold' : ∀ r ∈ verdicts.map fun v => (⟨i.source, abandoned, v⟩ : Returned),
        r.caller = i.source ∧ r.verdict.isNotEvaluated = r.abandoned := by
      intro r hr
      rcases List.mem_map.1 hr with ⟨v, hv, rfl⟩
      exact ⟨rfl, htold v hv⟩
    have hset := h.set (j := i.close) hfind rfl hj (by simp) htold'
    simpa using hset

theorem Balanced.run {c : Course} (h : Balanced c) (actions : List Action) :
    Balanced (c.run actions) := by
  induction actions generalizing c with
  | nil => exact h
  | cons action rest ih => exact ih (h.moves (moves_step h.distinct action))

/-! ## Closed interfaces -/

/-- The interface of a source was closed. -/
def ClosedAt (c : Course) (source : Source) : Prop :=
  ∀ l ∈ c.session.ledgers, l.source = source → l.closed = true

/-- No operation opens an interface again. -/
theorem ClosedAt.moves {c next : Course} {source : Source} (h : ClosedAt c source)
    (hmoves : Moves c next) : ClosedAt next source := by
  cases hmoves with
  | kept hledgers hregistered hreturned =>
    rw [ClosedAt, hledgers]
    exact h
  | @queued s i testId assertion hfind hopen =>
    rcases interface?_mem hfind with ⟨hmem, -⟩
    intro l hl hsource
    rcases mem_ledgers_setInterface hl with rfl | ⟨hold, -⟩
    · exact h i.ledger (List.mem_map_of_mem hmem) hsource
    · exact h l hold hsource
  | answered hfind hreceipts htold =>
    intro l hl hsource
    rcases mem_ledgers_setInterface hl with rfl | ⟨hold, -⟩
    · rfl
    · exact h l hold hsource

/-- Emptying the queue closes the interface. -/
theorem closedAt_drain (c : Course) (source : Source) (abandoned : Bool)
    {operation : Interface → Interface × List Verdict}
    (hclose : ∀ i, (operation i).1 = i.close) :
    ClosedAt (c.drain source abandoned operation) source := by
  rw [Course.drain]
  cases hfind : c.session.interface? source with
  | none =>
    -- There is no interface of this source.
    intro l hl hsource
    rcases List.mem_map.1 hl with ⟨i, hi, rfl⟩
    have hnot := List.find?_eq_none.1 hfind i hi
    exact absurd (decide_eq_true hsource) hnot
  | some i =>
    rcases interface?_mem hfind with ⟨-, hisource⟩
    intro l hl hsource
    rcases mem_ledgers_setInterface hl with rfl | ⟨-, hne⟩
    · rw [hclose]
      rfl
    · rw [hclose] at hne
      exact absurd (hsource.trans hisource.symm) hne

theorem ClosedAt.run {c : Course} {source : Source} (h : ClosedAt c source) (hb : Balanced c)
    (actions : List Action) : ClosedAt (c.run actions) source := by
  induction actions generalizing c with
  | nil => exact h
  | cons action rest ih =>
    have hmoves := moves_step hb.distinct action
    exact ih (h.moves hmoves) (hb.moves hmoves)

theorem closedAt_run {c : Course} {source : Source} {actions : List Action} (hb : Balanced c)
    (h : ∃ action ∈ actions, action.closes source) : ClosedAt (c.run actions) source := by
  induction actions generalizing c with
  | nil =>
    rcases h with ⟨action, hmem, -⟩
    cases hmem
  | cons first rest ih =>
    have hnext : Balanced (c.step first) := hb.moves (moves_step hb.distinct first)
    rcases h with ⟨action, hmem, hcloses⟩
    -- The interface is closed by the first operation, or later on.
    rcases List.mem_cons.1 hmem with rfl | hmem
    · have hfirst : ClosedAt (c.step action) source := by
        cases action with
        | evaluate s =>
          have hs : s = source := hcloses
          rw [hs]
          exact closedAt_drain c source false fun i => rfl
        | abandon s reason =>
          have hs : s = source := hcloses
          rw [hs]
          exact closedAt_drain c source true fun i => rfl
        | _ => cases hcloses
      exact hfirst.run hnext rest
    · exact ih hnext ⟨action, hmem, hcloses⟩

/-! ## Cancelled sessions -/

theorem cancelled_on {α : Type} {s t : Session} {source : Source} {result : α}
    {operation : Interface → Except SessionError (Interface × α)}
    (h : s.on source operation = .ok (t, result)) : t.cancelled = s.cancelled := by
  rw [Session.on] at h
  cases hfind : s.interface? source with
  | none => simp [hfind] at h
  | some i =>
    cases hoperation : operation i with
    | error e => simp [hfind, hoperation, bind, Except.bind] at h
    | ok pair =>
      simp only [hfind, hoperation, bind, Except.bind, Except.ok.injEq, Prod.mk.injEq] at h
      rw [← h.1]
      rfl

/-- Only cancelling cancels. -/
theorem cancelled_step (c : Course) (action : Action) :
    (c.step action).session.cancelled = true ↔
      c.session.cancelled = true ∨ action = .cancel := by
  cases action with
  | cancel => simp [Course.step, Session.cancel]
  | append source record =>
    rw [Course.step]
    split
    · rename_i happend
      simp [cancelled_on happend]
    · simp
  | register source testId assertion =>
    rw [Course.step]
    split
    · rename_i hregister
      simp [cancelled_on hregister]
    · simp
  | call testId =>
    simp only [Course.step, Session.call]
    split <;> simp
  | change disk => simp [Course.step]
  | except source traceId =>
    simp only [Course.step, Course.on]
    split <;> simp [setInterface]
  | wait source budgetMs cancelled =>
    simp only [Course.step, Course.on]
    split <;> simp [setInterface]
  | settle source =>
    simp only [Course.step, Course.on]
    split <;> simp [setInterface]
  | evaluate source =>
    simp only [Course.step, Course.drain]
    split <;> simp [setInterface]
  | abandon source reason =>
    simp only [Course.step, Course.drain]
    split <;> simp [setInterface]

theorem cancelled_run (c : Course) (actions : List Action) :
    (c.run actions).session.cancelled = true ↔
      c.session.cancelled = true ∨ .cancel ∈ actions := by
  induction actions generalizing c with
  | nil => simp [Course.run]
  | cons action rest ih =>
    have hstep := cancelled_step c action
    have hrest := ih (c.step action)
    rw [hstep] at hrest
    rw [List.mem_cons]
    apply hrest.trans
    grind

/-! ## The report -/

theorem registeredOn_receipts (source : Source) (verdicts : List Verdict) :
    registeredOn source (verdicts.map Verdict.receipt) =
      (verdicts.filter (·.interface = source)).map Verdict.receipt := by
  rw [registeredOn, List.filter_map]
  rfl

/-- What waits on all interfaces. -/
def waiting (ledgers : List Ledger) : List Receipt :=
  ledgers.flatMap fun l => l.queue.map Validator.receipt

theorem registeredOn_waiting_of_notMem {ledgers : List Ledger} {source : Source}
    (hqueues : ∀ l ∈ ledgers, ∀ v ∈ l.queue, v.interface = l.source)
    (hout : source ∉ ledgers.map (·.source)) : registeredOn source (waiting ledgers) = [] := by
  apply registeredOn_eq_nil
  intro r hr heq
  apply hout
  rcases List.mem_flatMap.1 hr with ⟨l, hl, hr⟩
  rcases List.mem_map.1 hr with ⟨v, hv, rfl⟩
  have hsource : l.source = source := (hqueues l hl v hv).symm.trans heq
  exact List.mem_map.2 ⟨l, hl, hsource⟩

theorem registeredOn_waiting {ledgers : List Ledger} {l : Ledger}
    (hqueues : ∀ l ∈ ledgers, ∀ v ∈ l.queue, v.interface = l.source)
    (hdistinct : (ledgers.map (·.source)).Nodup) (hl : l ∈ ledgers) :
    registeredOn l.source (waiting ledgers) = l.queue.map Validator.receipt := by
  induction ledgers with
  | nil => cases hl
  | cons first rest ih =>
    rw [List.map_cons, List.nodup_cons] at hdistinct
    have hfirst := hqueues first List.mem_cons_self
    have hrest : ∀ m ∈ rest, ∀ v ∈ m.queue, v.interface = m.source :=
      fun m hm => hqueues m (List.mem_cons_of_mem first hm)
    have hsplit : registeredOn l.source (waiting (first :: rest)) =
        registeredOn l.source (first.queue.map Validator.receipt) ++
          registeredOn l.source (waiting rest) := by
      rw [waiting, List.flatMap_cons, registeredOn_append]
      rfl
    rw [hsplit]
    rcases List.mem_cons.1 hl with rfl | hl
    · -- It is the first ledger, and the others are of other sources.
      have hall : registeredOn l.source (l.queue.map Validator.receipt) =
          l.queue.map Validator.receipt := by
        apply List.filter_eq_self.2
        intro r hr
        rcases List.mem_map.1 hr with ⟨v, hv, rfl⟩
        exact decide_eq_true (hfirst v hv)
      rw [hall, registeredOn_waiting_of_notMem hrest hdistinct.1, List.append_nil]
    · have hne : first.source ≠ l.source := by
        intro heq
        apply hdistinct.1
        rw [heq]
        exact List.mem_map_of_mem hl
      have hnone : registeredOn l.source (first.queue.map Validator.receipt) = [] := by
        apply registeredOn_eq_nil
        intro r hr heq
        apply hne
        rcases List.mem_map.1 hr with ⟨v, hv, rfl⟩
        exact (hfirst v hv).symm.trans heq
      rw [hnone, List.nil_append, ih hrest hdistinct.2 hl]

/-- A validator waits on the interface that it was registered on. -/
theorem BalancedLedger.queue {registered : List Receipt} {returned : List Returned} {l : Ledger}
    (h : BalancedLedger registered returned l) : ∀ v ∈ l.queue, v.interface = l.source := by
  intro v hv
  have hreceipt : v.receipt ∈ registeredOn l.source registered := by
    rw [← h.receipts]
    exact List.mem_append_right _ (List.mem_map_of_mem hv)
  have hsource := (List.mem_filter.1 hreceipt).2
  exact of_decide_eq_true hsource

/-- The verdicts that were returned, and then those of the report, are those of the registrations
on an interface, which are numbered from zero. -/
theorem Balanced.finish {c : Course} (h : Balanced c) (source : Source) :
    (returnedBy source c.returned).map Verdict.receipt ++
        ((c.session.finish c.disk).verdicts.filter (·.interface = source)).map Verdict.receipt =
      registeredOn source c.registered ∧
    (registeredOn source c.registered).map (·.id) =
      List.range (registeredOn source c.registered).length := by
  have hqueues : ∀ l ∈ c.session.ledgers, ∀ v ∈ l.queue, v.interface = l.source :=
    fun l hl => (h.each l hl).queue
  have hreport : ((c.session.finish c.disk).verdicts.filter
      (·.interface = source)).map Verdict.receipt =
      registeredOn source (waiting c.session.ledgers) :=
    calc
      ((c.session.finish c.disk).verdicts.filter (·.interface = source)).map Verdict.receipt
        = registeredOn source ((c.session.finish c.disk).verdicts.map Verdict.receipt) :=
          (registeredOn_receipts source (c.session.finish c.disk).verdicts).symm
      _ = registeredOn source (waiting c.session.ledgers) :=
          congrArg (registeredOn source) (finish_receipts c.session c.disk h.distinct)
  rw [hreport]
  by_cases hknown : source ∈ c.session.ledgers.map (·.source)
  · -- What is left in the queue is what the report answers.
    rcases List.mem_map.1 hknown with ⟨l, hl, rfl⟩
    have hledger := h.each l hl
    rw [registeredOn_waiting hqueues h.distinct hl, hledger.receipts]
    have hlength : (registeredOn l.source c.registered).length = l.nextId := by
      have hlengths := congrArg List.length hledger.ids
      simpa using hlengths
    rw [hlength]
    exact ⟨rfl, hledger.ids⟩
  · -- There is no such interface, so nothing was registered on it.
    have hnone : registeredOn source c.registered = [] := by
      apply registeredOn_eq_nil
      intro r hr heq
      apply hknown
      rw [← heq]
      exact h.known r hr
    have hnone' : returnedBy source c.returned = [] := by
      apply returnedBy_eq_nil
      intro r hr heq
      apply hknown
      rw [← heq]
      exact h.callers r hr
    rw [registeredOn_waiting_of_notMem hqueues hknown, hnone, hnone']
    exact ⟨rfl, rfl⟩

/-- A closed interface takes no registration, and has no verdicts left to return. -/
theorem Balanced.closed {c : Course} (h : Balanced c) {source : Source} {i : Interface}
    (hclosed : ClosedAt c source) (hfind : c.session.interface? source = some i) :
    (∀ testId assertion,
      c.session.register source testId assertion = .error (.interfaceClosed source) ∧
      c.step (.register source testId assertion) = c) ∧
    (∀ scenario timing, (i.evaluate scenario timing).2 = []) ∧
    (∀ reason, (i.abandon reason).2 = []) := by
  rcases interface?_mem hfind with ⟨hi, hsource⟩
  have hmem : i.ledger ∈ c.session.ledgers := List.mem_map_of_mem hi
  have hi' : i.closed = true := hclosed i.ledger hmem hsource
  have hqueue : i.queue = [] := (h.each i.ledger hmem).closed hi'
  refine ⟨fun testId assertion => ?_, fun scenario timing => ?_, fun reason => ?_⟩
  · have hregister :
        c.session.register source testId assertion = .error (.interfaceClosed source) := by
      simp [register, on, hfind, Interface.register, hi', hsource, bind, Except.bind]
    refine ⟨hregister, ?_⟩
    simp only [Course.step, hregister]
  · simp [Interface.evaluate, hqueue]
  · simp [Interface.abandon, hqueue]

/-- Whatever is done with a session before it is finished: on every interface, the verdicts that
evaluating and abandoning returned and then those of the report are one for each registration, in
the order of the registrations. Once an interface was evaluated or abandoned, it takes no
registration and returns no verdict. The verdicts that say that nothing was evaluated are those from
abandoning, and those of the report on a session that was cancelled. -/
theorem verdicts_exactly_once {s : Session} (h : s.Started) (disk : Disk) (actions : List Action) :
    let c := (Course.start s disk).run actions
    let report := c.session.finish c.disk
    (∀ source,
      (returnedBy source c.returned).map Verdict.receipt ++
          (report.verdicts.filter (·.interface = source)).map Verdict.receipt =
        registeredOn source c.registered ∧
      (registeredOn source c.registered).map (·.id) =
        List.range (registeredOn source c.registered).length) ∧
    (∀ source i, c.session.interface? source = some i →
      (∃ action ∈ actions, action.closes source) →
      (∀ testId assertion,
        c.session.register source testId assertion = .error (.interfaceClosed source) ∧
        c.step (.register source testId assertion) = c) ∧
      (∀ scenario timing, (i.evaluate scenario timing).2 = []) ∧
      (∀ reason, (i.abandon reason).2 = [])) ∧
    (∀ r ∈ c.returned, r.verdict.isNotEvaluated = r.abandoned) ∧
    (∀ v ∈ report.verdicts, v.isNotEvaluated = c.session.cancelled) ∧
    (c.session.cancelled = true ↔ .cancel ∈ actions) := by
  intro c report
  have hstart := balanced_start h disk
  have hbalanced : Balanced c := hstart.run actions
  refine ⟨hbalanced.finish, fun source i hfind hcloses => ?_, hbalanced.told, ?_, ?_⟩
  · exact hbalanced.closed (closedAt_run hstart hcloses) hfind
  · exact finish_isNotEvaluated c.session c.disk hbalanced.distinct
  · have hcancelled := cancelled_run (Course.start s disk) actions
    rcases h.ledgers with ⟨-, -, -, hfresh⟩
    have hstill : (Course.start s disk).session.cancelled = false := hfresh
    rw [hstill] at hcancelled
    simpa using hcancelled

/-- The library is evaluated between two registrations, and the session is cancelled. -/
def earlyActions : List Action :=
  [.register .library "ids" .uniqueTraceIds, .evaluate .library,
    .register .library "late" .traceHeaders, .register .agent "shape" (.schemas []), .cancel]

def evaluatedEarly : Course :=
  (Course.start (Session.inMemory default {}) Disk.empty).run earlyActions

theorem verdicts_exactly_once_early :
    let report := evaluatedEarly.session.finish evaluatedEarly.disk
    (returnedBy .library evaluatedEarly.returned).map Verdict.receipt ++
        (report.verdicts.filter (·.interface = .library)).map Verdict.receipt =
      [⟨0, "ids", .library, "trace id uniqueness"⟩] ∧
    (returnedBy .agent evaluatedEarly.returned).map Verdict.receipt ++
        (report.verdicts.filter (·.interface = .agent)).map Verdict.receipt =
      [⟨0, "shape", .agent, "schema conformance"⟩] ∧
    (∀ v ∈ report.verdicts, v.isNotEvaluated = true) ∧
    evaluatedEarly.session.register .library "late" .traceHeaders =
      .error (.interfaceClosed .library) := by
  rcases verdicts_exactly_once (Started.inMemory default {}) Disk.empty earlyActions with
    ⟨hbooks, hclosed, -, htold, hcancelled⟩
  have hcancel : evaluatedEarly.session.cancelled = true := by decide +kernel
  have hlibrary : registeredOn .library evaluatedEarly.registered =
      [⟨0, "ids", .library, "trace id uniqueness"⟩] := by decide +kernel
  have hagent : registeredOn .agent evaluatedEarly.registered =
      [⟨0, "shape", .agent, "schema conformance"⟩] := by decide +kernel
  refine ⟨(hbooks .library).1.trans hlibrary, (hbooks .agent).1.trans hagent, ?_, ?_⟩
  · intro v hv
    exact (htold v hv).trans hcancel
  · have hfind : (evaluatedEarly.session.interface? .library).isSome = true := by decide +kernel
    rcases Option.isSome_iff_exists.1 hfind with ⟨i, hi⟩
    have hevaluated : ∃ action ∈ earlyActions, action.closes .library :=
      ⟨.evaluate .library, by simp [earlyActions], rfl⟩
    exact ((hclosed .library i hi hevaluated).1 "late" .traceHeaders).1

end TraceAudit.Session
