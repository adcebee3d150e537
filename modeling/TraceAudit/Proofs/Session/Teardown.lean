import TraceAudit.Proofs.Json.Members
import TraceAudit.Proofs.Session.Pointwise

/-!
# Teardown, interface by interface

Teardown waits for the sources one after the other, and then settles them one after the other.

* `Session.Visits` is what a step of teardown does: it visits one interface, and notes no error
  where the visit succeeds;
* `Session.Visits.run` takes the steps together: every interface is visited once;
* `Session.teardown_visits` says what becomes of a session, `Session.teardown_of_mode` that nothing
  does where nobody writes log files.
-/

namespace TraceAudit

namespace Session

/-! ## One step -/

theorem waitOn_session (disk : Disk) {t : Teardown} (h : t.session.Distinct) (source : Source) :
    ∃ budgetMs, (t.waitOn disk source).session = t.session.mapAt source fun i =>
      (i.wait disk t.session.engine budgetMs t.session.cancelled).1 := by
  refine ⟨min (1000 * t.session.engine.timeoutOf t.session.scenario.library.library source)
    t.leftMs, ?_⟩
  cases hfind : t.session.interface? source with
  | none =>
    rw [mapAt_of_interface?_none hfind, Teardown.waitOn, hfind]
  | some i =>
    rw [← setInterface_eq_mapAt h hfind _ (Interface.source_wait i _ _ _ _), Teardown.waitOn, hfind]
    simp only
    -- Also where the wait fails, the interface is put back.
    split <;> rename_i hwait <;> rw [hwait]
    rfl

theorem settleOn_session (disk : Disk) {t : Teardown} (h : t.session.Distinct)
    (source : Source) :
    (t.settleOn disk source).session = t.session.mapAt source fun i => (i.settle disk).1 := by
  cases hfind : t.session.interface? source with
  | none =>
    rw [mapAt_of_interface?_none hfind, Teardown.settleOn, hfind]
  | some i =>
    rw [← setInterface_eq_mapAt h hfind _ (i.source_settle disk), Teardown.settleOn, hfind]
    simp only
    split <;> rename_i hsettle <;> rw [hsettle]
    rfl

/-- No error was noted, and all waits ended in an expected way. -/
structure Clean (expected : WaitOutcome → Prop) (t : Teardown) : Prop where
  errors : t.errors = []
  waits : ∀ w ∈ t.waits, expected w.2

theorem Clean.waitOn {expected : WaitOutcome → Prop} {disk : Disk} {t : Teardown} {source : Source}
    (ht : Clean expected t)
    (h : ∀ i ∈ t.session.interfaces, i.source = source → ∀ budgetMs, ∃ outcome,
      (i.wait disk t.session.engine budgetMs t.session.cancelled).2 = .ok outcome ∧
        expected outcome) :
    Clean expected (t.waitOn disk source) := by
  rw [Teardown.waitOn]
  cases hfind : t.session.interface? source with
  | none => exact ht
  | some i =>
    rcases interface?_mem hfind with ⟨hmem, hsource⟩
    rcases h i hmem hsource
      (min (1000 * t.session.engine.timeoutOf t.session.scenario.library.library source) t.leftMs)
      with ⟨outcome, hok, hexpected⟩
    simp only
    split
    · rename_i hwait
      rw [hwait] at hok
      cases hok
    · rename_i hwait
      rw [hwait] at hok
      cases hok
      refine ⟨ht.errors, fun w hw => ?_⟩
      rcases Members.mem_insert hw with rfl | hw
      · exact hexpected
      · exact ht.waits w hw

theorem Clean.settleOn {expected : WaitOutcome → Prop} {disk : Disk} {t : Teardown}
    {source : Source} (ht : Clean expected t)
    (h : ∀ i ∈ t.session.interfaces, i.source = source → ∃ count,
      (i.settle disk).2 = .ok count) :
    Clean expected (t.settleOn disk source) := by
  rw [Teardown.settleOn]
  cases hfind : t.session.interface? source with
  | none => exact ht
  | some i =>
    rcases interface?_mem hfind with ⟨hmem, hsource⟩
    rcases h i hmem hsource with ⟨count, hok⟩
    simp only
    split
    · rename_i hsettle
      rw [hsettle] at hok
      cases hok
    · exact ⟨ht.errors, ht.waits⟩

/-! ## Steps over all interfaces -/

/-- What a visit relies on, and does not change. -/
structure Steady (s t : Session) : Prop where
  engine : t.engine = s.engine
  cancelled : t.cancelled = s.cancelled
  distinct : t.Distinct

theorem Steady.mapAll {s t : Session} (h : Steady s t) {operation : Interface → Interface}
    (hsource : ∀ i, (operation i).source = i.source) : Steady s (t.mapAll operation) :=
  ⟨h.engine, h.cancelled, h.distinct.mapAll hsource⟩

theorem Steady.mapAt {s t : Session} (h : Steady s t) (source : Source)
    {operation : Interface → Interface} (hsource : ∀ i, (operation i).source = i.source) :
    Steady s (t.mapAt source operation) :=
  ⟨h.engine, h.cancelled, h.distinct.mapAt source hsource⟩

/-- A step applies an operation to the interface of a source, for some time. Where the operation
succeeds, the step leaves a teardown clean. -/
structure Visits (s : Session) (operation : Nat → Interface → Interface)
    (Succeeds : Interface → Prop) (expected : WaitOutcome → Prop)
    (step : Teardown → Source → Teardown) : Prop where
  source : ∀ budgetMs i, (operation budgetMs i).source = i.source
  session : ∀ {t : Teardown}, Steady s t.session → ∀ source,
    ∃ budgetMs, (step t source).session = t.session.mapAt source (operation budgetMs)
  clean : ∀ {t : Teardown}, Steady s t.session → Clean expected t → ∀ source,
    (∀ i ∈ t.session.interfaces, i.source = source → Succeeds i) → Clean expected (step t source)

theorem waitOn_visits (s : Session) (disk : Disk) (expected : WaitOutcome → Prop) :
    Visits s (fun budgetMs i => (i.wait disk s.engine budgetMs s.cancelled).1)
      (fun i => ∀ budgetMs, ∃ outcome,
        (i.wait disk s.engine budgetMs s.cancelled).2 = .ok outcome ∧ expected outcome)
      expected (Teardown.waitOn disk) where
  source budgetMs i := i.source_wait disk s.engine budgetMs s.cancelled
  session := by
    intro t ht source
    rw [← ht.engine, ← ht.cancelled]
    exact waitOn_session disk ht.distinct source
  clean := by
    intro t ht hclean source hsucceeds
    rw [← ht.engine, ← ht.cancelled] at hsucceeds
    exact hclean.waitOn hsucceeds

theorem settleOn_visits (s : Session) (disk : Disk) (expected : WaitOutcome → Prop) :
    Visits s (fun _ i => (i.settle disk).1) (fun i => ∃ count, (i.settle disk).2 = .ok count)
      expected (Teardown.settleOn disk) where
  source _ i := i.source_settle disk
  session ht source := ⟨0, settleOn_session disk ht.distinct source⟩
  clean _ hclean _ hsucceeds := hclean.settleOn hsucceeds

namespace Visits

variable {s : Session} {operation : Nat → Interface → Interface} {Succeeds : Interface → Prop}
  {expected : WaitOutcome → Prop} {step : Teardown → Source → Teardown}
  (h : Visits s operation Succeeds expected step) {sources : List Source}

include h

/-- Steps that visit one source after the other. -/
theorem foldl (hnodup : sources.Nodup) {t : Teardown} (ht : Steady s t.session) :
    (∃ budgetMs : Source → Nat, (sources.foldl step t).session = t.session.mapAll fun i =>
        if i.source ∈ sources then operation (budgetMs i.source) i else i) ∧
      (Clean expected t → (∀ i ∈ t.session.interfaces, i.source ∈ sources → Succeeds i) →
        Clean expected (sources.foldl step t)) := by
  induction sources generalizing t with
  | nil => exact ⟨⟨fun _ => 0, by simp [mapAll_id]⟩, fun hclean _ => hclean⟩
  | cons source rest ih =>
    rcases List.nodup_cons.1 hnodup with ⟨hnotMem, hrest⟩
    rcases h.session ht source with ⟨first, hfirst⟩
    have ht' : Steady s (step t source).session := by
      rw [hfirst]
      exact ht.mapAt source (h.source first)
    rcases ih hrest ht' with ⟨⟨later, hlater⟩, hclean⟩
    constructor
    · refine ⟨Function.update later source first, ?_⟩
      rw [List.foldl_cons, hlater, hfirst, Session.mapAt, mapAll_mapAll]
      refine mapAll_congr fun i _ => ?_
      by_cases hsame : i.source = source
      · -- The first step is the only one that is about this interface.
        rw [if_pos hsame, h.source, hsame, if_neg hnotMem, if_pos List.mem_cons_self,
          Function.update_self]
      · rw [if_neg hsame, Function.update_of_ne hsame]
        simp only [List.mem_cons, hsame, false_or]
    · intro hstart hsucceeds
      have hstep : Clean expected (step t source) := by
        refine h.clean ht hstart source fun i hi hsource => hsucceeds i hi ?_
        rw [hsource]
        exact List.mem_cons_self
      refine hclean hstep ?_
      -- An interface whose turn comes later is still as it was at the start.
      rw [hfirst]
      intro i hi hmem
      rcases List.mem_map.1 hi with ⟨old, hold, rfl⟩
      by_cases hsame : old.source = source
      · rw [if_pos hsame, h.source, hsame] at hmem
        exact absurd hmem hnotMem
      · rw [if_neg hsame] at hmem ⊢
        exact hsucceeds old hold (List.mem_cons_of_mem source hmem)

/-- Steps that visit all sources of a session, in some order. -/
theorem run {t : Teardown} (ht : Steady s t.session)
    (horder : sources.Perm (t.session.interfaces.map (·.source))) :
    (∃ budgetMs : Source → Nat, (sources.foldl step t).session =
        t.session.mapAll fun i => operation (budgetMs i.source) i) ∧
      (Clean expected t → (∀ i ∈ t.session.interfaces, Succeeds i) →
        Clean expected (sources.foldl step t)) := by
  rcases h.foldl (horder.nodup_iff.2 ht.distinct) ht with ⟨⟨budgetMs, hsession⟩, hclean⟩
  refine ⟨⟨budgetMs, hsession.trans (mapAll_congr fun i hi => if_pos ?_)⟩, ?_⟩
  · exact horder.mem_iff.2 (List.mem_map_of_mem hi)
  · exact fun hstart hsucceeds => hclean hstart fun i hi _ => hsucceeds i hi

end Visits

/-! ## Teardown as a whole -/

theorem verdictsOf_congr {s t : Session} (hscenario : t.scenario = s.scenario)
    (hengine : t.engine = s.engine) (hcancelled : t.cancelled = s.cancelled) :
    t.verdictsOf = s.verdictsOf := by
  funext i
  rw [verdictsOf, verdictsOf, hscenario, hengine, hcancelled]

/-- The order of the waits has all sources of the session in it, and each of them once. -/
theorem teardownOrder_perm (scenario : Scenario) :
    scenario.teardownOrder.Perm scenario.sources := by
  have hswap : (scenario.buddySources ++ [Source.agent, .backend, .openTelemetry]).Perm
      ([Source.agent, .backend, .openTelemetry] ++ scenario.buddySources) :=
    List.perm_append_comm
  exact hswap.cons .library

variable {s : Session} (disk : Disk) (h : s.Complete)

include h

/-- On every interface, teardown comes to one wait, for some time, and one `settle`. Where none of
them fails, it notes no error. -/
theorem teardown_visits (expected : WaitOutcome → Prop) :
    (∃ budgetMs : Source → Nat, (s.teardown disk).session = s.mapAll fun i =>
        ((i.wait disk s.engine (budgetMs i.source) s.cancelled).1.settle disk).1) ∧
      ((∀ i ∈ s.interfaces, ∀ budgetMs,
          (∃ outcome, (i.wait disk s.engine budgetMs s.cancelled).2 = .ok outcome ∧
            expected outcome) ∧
          ∃ count, ((i.wait disk s.engine budgetMs s.cancelled).1.settle disk).2 = .ok count) →
        Clean expected (s.teardown disk)) := by
  have hwaits := waitOn_visits s disk expected
  have hsettles := settleOn_visits s disk expected
  -- Waiting goes by another order than settling, but both visit every source once.
  have horder : s.scenario.teardownOrder.Perm (s.interfaces.map (·.source)) := by
    rw [h]
    exact teardownOrder_perm s.scenario
  have hstart : Steady s s := ⟨rfl, rfl, h.distinct⟩
  rcases hwaits.run (t := ⟨s, [], [], 1000 * s.engine.timeoutS⟩) hstart horder with
    ⟨⟨budgetMs, hwaited⟩, hcleanWaited⟩
  generalize hafter : s.scenario.teardownOrder.foldl (Teardown.waitOn disk)
    ⟨s, [], [], 1000 * s.engine.timeoutS⟩ = after at hwaited hcleanWaited
  have hsteady : Steady s after.session := by
    rw [hwaited]
    exact hstart.mapAll fun i => hwaits.source (budgetMs i.source) i
  have hsources : s.scenario.sources.Perm (after.session.interfaces.map (·.source)) := by
    rw [hwaited, sources_mapAll s fun i => hwaits.source (budgetMs i.source) i, h]
  have hteardown : s.teardown disk = s.scenario.sources.foldl (Teardown.settleOn disk) after :=
    congrArg (s.scenario.sources.foldl (Teardown.settleOn disk)) hafter
  rcases hsettles.run hsteady hsources with ⟨⟨-, hsettled⟩, hcleanSettled⟩
  rw [hteardown]
  refine ⟨⟨budgetMs, ?_⟩, fun hsucceeds => ?_⟩
  · rw [hsettled, hwaited, mapAll_mapAll]
  · refine hcleanSettled (hcleanWaited ⟨rfl, by simp⟩ fun i hi b => (hsucceeds i hi b).1) ?_
    rw [hwaited]
    intro i hi
    rcases List.mem_map.1 hi with ⟨old, hold, rfl⟩
    exact (hsucceeds old hold (budgetMs old.source)).2

/-- Where nobody writes log files, teardown only notes that the data is complete. -/
theorem teardown_of_mode (hmode : ∀ i ∈ s.interfaces, i.mode ≠ .live) :
    (s.teardown disk).session = s.mapAll Interface.waited ∧
      Clean (· = .complete) (s.teardown disk) := by
  have hvisit : ∀ i ∈ s.interfaces, ∀ budgetMs,
      i.wait disk s.engine budgetMs s.cancelled = (i.waited, .ok .complete) ∧
        i.waited.settle disk = (i.waited, .ok 0) := by
    intro i hi budgetMs
    have hwaited : i.waited.mode ≠ .live := hmode i hi
    exact ⟨Interface.wait_of_mode (hmode i hi) disk s.engine budgetMs s.cancelled,
      Interface.settle_of_mode hwaited disk⟩
  rcases teardown_visits disk h (· = .complete) with ⟨⟨budgetMs, hteardown⟩, hclean⟩
  refine ⟨hteardown.trans (mapAll_congr fun i hi => ?_), hclean fun i hi b => ?_⟩
  · rcases hvisit i hi (budgetMs i.source) with ⟨hwait, hsettle⟩
    rw [hwait, hsettle]
  · rcases hvisit i hi b with ⟨hwait, hsettle⟩
    rw [hwait, hsettle]
    exact ⟨⟨.complete, rfl, rfl⟩, 0, rfl⟩

end Session
end TraceAudit
