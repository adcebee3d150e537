import Mathlib.Data.List.Nodup
import TraceAudit.Session.Finish

/-!
# What an interface owes

* `Receipt` is what a registration, the validator it queues and the verdict on it have in common;
* `Ledger` is the part of an interface that registering and evaluating are about, and everything
  else leaves it alone;
* `Session.finish_receipts` and `Session.finish_isNotEvaluated` say what a report owes to the
  ledgers.
-/

namespace TraceAudit

/-- What tells a validator from all others. -/
structure Receipt where
  id : Nat
  testId : String
  interface : Source
  description : String
deriving DecidableEq

def Validator.receipt (v : Validator) : Receipt :=
  ⟨v.id, v.testId, v.interface, v.assertion.describe⟩

def Verdict.receipt (v : Verdict) : Receipt :=
  ⟨v.id, v.testId, v.interface, v.description⟩

/-! ## Verdicts -/

/-- The outcome of an assertion that was not looked at. -/
def Outcome.isNotEvaluated : Outcome → Bool
  | .passed => false
  | .failed f => f.kind == .notEvaluated

def Verdict.isNotEvaluated (v : Verdict) : Bool := v.outcome.isNotEvaluated

theorem Outcome.isNotEvaluated_about (requestId : Option String) (o : Outcome) :
    (o.about requestId).isNotEvaluated = o.isNotEvaluated := by
  cases o <;> rfl

namespace Evidence

/-- Looking at the evidence never ends in not having looked. -/
theorem isNotEvaluated_evaluate (e : Evidence) (assertion : Assertion) :
    (assertion.evaluate e).1.isNotEvaluated = false := by
  cases assertion with
  | spanCount call expected mode fullTrace =>
    simp only [Assertion.evaluate, spanCount]
    split
    · rfl
    · split <;> rfl
  | spanCheck call description check =>
    cases call with
    | none =>
      simp only [Assertion.evaluate, spanCheck]
      split
      · rfl
      · split <;> rfl
    | some call =>
      simp only [Assertion.evaluate, spanCheck]
      split
      · rfl
      · split <;> rfl
  | rootSpan call =>
    simp only [Assertion.evaluate, rootSpan]
    split
    · rfl
    · split <;> rfl
  | uniqueTraceIds =>
    simp only [Assertion.evaluate, uniqueTraceIds]
    split <;> rfl
  | traceHeaders =>
    simp only [Assertion.evaluate, traceHeaders]
    split
    · rfl
    · split <;> rfl
  | successfulResponses path =>
    simp only [Assertion.evaluate, successfulResponses]
    split
    · rfl
    · split <;> rfl
  | gaplessTelemetry =>
    simp only [Assertion.evaluate, gaplessTelemetry]
    split
    · rfl
    · split <;> rfl
  | schemas allowed =>
    simp only [Assertion.evaluate, conformance]
    split <;> rfl

end Evidence

namespace Validator

theorem receipt_evaluate (v : Validator) (e : Evidence) : (v.evaluate e).receipt = v.receipt := rfl

theorem receipt_notEvaluated (v : Validator) (reason : String) :
    (v.notEvaluated reason).receipt = v.receipt := rfl

theorem isNotEvaluated_evaluate (v : Validator) (e : Evidence) :
    (v.evaluate e).isNotEvaluated = false := by
  have hrun := Evidence.isNotEvaluated_evaluate e v.assertion
  simpa [Validator.evaluate, verdict, Verdict.isNotEvaluated, Outcome.isNotEvaluated_about] using hrun

theorem isNotEvaluated_notEvaluated (v : Validator) (reason : String) :
    (v.notEvaluated reason).isNotEvaluated = true := rfl

end Validator

/-! ## Ledgers -/

/-- What an interface has promised: the validators that wait, and the id of the next one. -/
structure Ledger where
  source : Source
  queue : List Validator
  closed : Bool
  nextId : Nat

namespace Interface

def ledger (i : Interface) : Ledger := ⟨i.source, i.queue, i.closed, i.nextId⟩

theorem ledger_pushAll (i : Interface) (records : List Record) :
    (i.pushAll records).ledger = i.ledger := by
  induction records generalizing i with
  | nil => rfl
  | cons record rest ih => exact ih (i.push record)

theorem ledger_takeStaged (i : Interface) (store : Store) :
    (i.takeStaged store).ledger = i.ledger :=
  ledger_pushAll { i with store := some store.drain.1 } store.drain.2

theorem ledger_append {i next : Interface} {record : Record} (h : i.append record = .ok next) :
    next.ledger = i.ledger := by
  rw [append] at h
  split at h
  · cases h
    rfl
  · cases h

theorem ledger_wait (i : Interface) (disk : Disk) (engine : EngineSettings) (budgetMs : Nat)
    (cancelled : Bool) : (i.wait disk engine budgetMs cancelled).1.ledger = i.ledger := by
  unfold wait
  split
  · split
    · rfl
    · split
      · exact ledger_takeStaged i _
      · exact ledger_takeStaged i _
  · rfl

theorem ledger_settle (i : Interface) (disk : Disk) : (i.settle disk).1.ledger = i.ledger := by
  unfold settle
  split
  · exact ledger_takeStaged i _
  · rfl

end Interface

/-! ## Ledgers of a session -/

namespace Session

def ledgers (s : Session) : List Ledger := s.interfaces.map Interface.ledger

theorem interface?_mem {s : Session} {source : Source} {i : Interface}
    (h : s.interface? source = some i) : i ∈ s.interfaces ∧ i.source = source := by
  refine ⟨List.mem_of_find?_eq_some h, ?_⟩
  simpa using List.find?_some h

theorem sources_setInterface (s : Session) (j : Interface) :
    (s.setInterface j).ledgers.map (·.source) = s.ledgers.map (·.source) := by
  simp only [ledgers, setInterface, List.map_map]
  apply List.map_congr_left
  intro old _
  by_cases hsource : old.source = j.source
  · simp [hsource, Interface.ledger]
  · simp [hsource]

/-- Where an interface is put, the ledger is the new one, and all other ledgers stay. -/
theorem mem_ledgers_setInterface {s : Session} {j : Interface} {l : Ledger}
    (h : l ∈ (s.setInterface j).ledgers) :
    l = j.ledger ∨ (l ∈ s.ledgers ∧ l.source ≠ j.source) := by
  rcases List.mem_map.1 h with ⟨i, hi, rfl⟩
  rcases List.mem_map.1 hi with ⟨old, hold, rfl⟩
  by_cases hsource : old.source = j.source
  · rw [if_pos hsource]
    exact Or.inl rfl
  · rw [if_neg hsource]
    exact Or.inr ⟨List.mem_map_of_mem hold, hsource⟩

/-- Putting an interface back with its ledger changes no ledger. -/
theorem ledgers_setInterface {s : Session} {source : Source} {i j : Interface}
    (hdistinct : (s.ledgers.map (·.source)).Nodup) (hfind : s.interface? source = some i)
    (hledger : j.ledger = i.ledger) : (s.setInterface j).ledgers = s.ledgers := by
  rcases interface?_mem hfind with ⟨hmem, -⟩
  have hsource : j.source = i.source := congrArg Ledger.source hledger
  simp only [ledgers, setInterface, List.map_map]
  apply List.map_congr_left
  intro old hold
  by_cases hsame : old.source = j.source
  · -- Sources are distinct, so it is the interface that was found.
    have hsources : (s.interfaces.map (·.source)).Nodup := by
      simpa [ledgers, List.map_map, Function.comp_def, Interface.ledger] using hdistinct
    have heq : old = i := List.inj_on_of_nodup_map hsources hold hmem (hsame.trans hsource)
    simp [heq, hsource, hledger]
  · simp [hsame]

/-! ## The end of a session -/

/-- Nothing that validators hang on was touched. -/
structure SameLedgers (s t : Session) : Prop where
  ledgers : t.ledgers = s.ledgers
  cancelled : t.cancelled = s.cancelled

theorem SameLedgers.set {s : Session} {source : Source} {i j : Interface}
    (hdistinct : (s.ledgers.map (·.source)).Nodup) (hfind : s.interface? source = some i)
    (hledger : j.ledger = i.ledger) : s.SameLedgers (s.setInterface j) :=
  ⟨ledgers_setInterface hdistinct hfind hledger, rfl⟩

theorem SameLedgers.trans {s t u : Session} (hst : s.SameLedgers t) (htu : t.SameLedgers u) :
    s.SameLedgers u :=
  ⟨htu.ledgers.trans hst.ledgers, htu.cancelled.trans hst.cancelled⟩

theorem waitOn_sameLedgers (disk : Disk) (t : Teardown) (source : Source)
    (hdistinct : (t.session.ledgers.map (·.source)).Nodup) :
    t.session.SameLedgers (t.waitOn disk source).session := by
  unfold Teardown.waitOn
  split
  · exact ⟨rfl, rfl⟩
  · rename_i i hfind
    have hledger := i.ledger_wait disk t.session.engine
      (min (1000 * t.session.engine.timeoutOf t.session.scenario.library.library source) t.leftMs)
      t.session.cancelled
    simp only
    split
    · rename_i j error hwait
      rw [hwait] at hledger
      exact SameLedgers.set hdistinct hfind hledger
    · rename_i j outcome hwait
      rw [hwait] at hledger
      exact SameLedgers.set hdistinct hfind hledger

theorem settleOn_sameLedgers (disk : Disk) (t : Teardown) (source : Source)
    (hdistinct : (t.session.ledgers.map (·.source)).Nodup) :
    t.session.SameLedgers (t.settleOn disk source).session := by
  unfold Teardown.settleOn
  split
  · exact ⟨rfl, rfl⟩
  · rename_i i hfind
    have hledger := i.ledger_settle disk
    split
    · rename_i j error hsettle
      rw [hsettle] at hledger
      exact SameLedgers.set hdistinct hfind hledger
    · rename_i j count hsettle
      rw [hsettle] at hledger
      exact SameLedgers.set hdistinct hfind hledger

/-- Steps that leave the ledgers alone, one after the other. -/
theorem foldl_sameLedgers {each : Teardown → Source → Teardown}
    (heach : ∀ (t : Teardown) (source : Source), (t.session.ledgers.map (·.source)).Nodup →
      t.session.SameLedgers (each t source).session)
    (t : Teardown) (sources : List Source) (hdistinct : (t.session.ledgers.map (·.source)).Nodup) :
    t.session.SameLedgers (sources.foldl each t).session := by
  -- The sources stay distinct along the way, since the ledgers stay the same.
  induction sources generalizing t with
  | nil => exact ⟨rfl, rfl⟩
  | cons source rest ih =>
    have hfirst := heach t source hdistinct
    have hdistinct' : ((each t source).session.ledgers.map (·.source)).Nodup := by
      rw [hfirst.ledgers]
      exact hdistinct
    exact hfirst.trans (ih (each t source) hdistinct')

/-- The waits at the end of a session leave the ledgers alone. -/
theorem teardown_sameLedgers (s : Session) (disk : Disk)
    (hdistinct : (s.ledgers.map (·.source)).Nodup) :
    s.SameLedgers (s.teardown disk).session := by
  -- First all waits, and then the same for what is settled.
  have hwaited := foldl_sameLedgers (waitOn_sameLedgers disk)
    ⟨s, [], [], 1000 * s.engine.timeoutS⟩ s.scenario.teardownOrder hdistinct
  have hdistinct' : (((s.scenario.teardownOrder.foldl (Teardown.waitOn disk)
      ⟨s, [], [], 1000 * s.engine.timeoutS⟩).session.ledgers).map (·.source)).Nodup := by
    rw [hwaited.ledgers]
    exact hdistinct
  exact hwaited.trans (foldl_sameLedgers (settleOn_sameLedgers disk) _ s.scenario.sources hdistinct')

theorem receipt_verdictsOf (s : Session) (i : Interface) :
    (s.verdictsOf i).map Verdict.receipt = i.ledger.queue.map Validator.receipt := by
  unfold verdictsOf
  split
  · simp [Interface.abandon, Interface.ledger, Function.comp_def, Validator.receipt_notEvaluated]
  · simp [Interface.evaluate, Interface.ledger, Function.comp_def, Validator.receipt_evaluate]

theorem isNotEvaluated_verdictsOf (s : Session) (i : Interface) :
    ∀ v ∈ s.verdictsOf i, v.isNotEvaluated = s.cancelled := by
  intro v hv
  unfold verdictsOf at hv
  split at hv
  · rename_i hcancelled
    rcases List.mem_map.1 hv with ⟨validator, -, rfl⟩
    rw [hcancelled, Validator.isNotEvaluated_notEvaluated]
  · rename_i hcancelled
    rcases List.mem_map.1 hv with ⟨validator, -, rfl⟩
    rw [Validator.isNotEvaluated_evaluate]
    simpa using hcancelled

/-- A report has one verdict for every validator that still waits. -/
theorem finish_receipts (s : Session) (disk : Disk)
    (hdistinct : (s.ledgers.map (·.source)).Nodup) :
    (s.finish disk).verdicts.map Verdict.receipt =
      s.ledgers.flatMap fun l => l.queue.map Validator.receipt := by
  have hsame := teardown_sameLedgers s disk hdistinct
  -- The verdicts are taken after teardown, and the queues are still those from before.
  rw [← hsame.ledgers]
  simp only [finish, ledgers, List.map_flatMap, List.flatMap_map, receipt_verdictsOf]

theorem finish_isNotEvaluated (s : Session) (disk : Disk)
    (hdistinct : (s.ledgers.map (·.source)).Nodup) :
    ∀ v ∈ (s.finish disk).verdicts, v.isNotEvaluated = s.cancelled := by
  intro v hv
  rcases List.mem_flatMap.1 hv with ⟨i, -, hv⟩
  have hsame := teardown_sameLedgers s disk hdistinct
  rw [← hsame.cancelled]
  exact isNotEvaluated_verdictsOf _ i v hv

end Session
end TraceAudit
