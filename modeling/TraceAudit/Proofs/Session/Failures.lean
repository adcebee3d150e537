import TraceAudit.Proofs.CommandLine.Views
import TraceAudit.Proofs.Session.LiveReplay

/-!
# What goes wrong at the end of a session

Besides verdicts there are two ways in which a session can end badly: log files can have entries
that give no records, and looking at them can fail.

* `Interface.EndsWell` says that nothing fails on an interface at the end;
* `Session.teardown_errors` lists what teardown notes, wait by wait and `settle` by `settle`;
* `Session.corruptByName_perm` says which interfaces a report lists as corrupt;
* `Session.isSuccess_finish` takes all ways to fail together.
-/

namespace TraceAudit

/-! ## One interface -/

namespace Interface

/-- What is noted on an operation that may fail. -/
def noted {α : Type} (i : Interface) : Except StoreError α → List String
  | .error e => [s!"{i.source.name}: {e.message}"]
  | .ok _ => []

theorem noted_eq_nil_iff {α : Type} {i : Interface} {result : Except StoreError α} :
    i.noted result = [] ↔ ∃ a, result = .ok a := by
  cases result with
  | error e => simp [noted]
  | ok a => simp [noted]

variable (i : Interface) (disk : Disk) (engine : EngineSettings) (cancelled : Bool)

/-- The wait for the data and what is settled at the end succeed, whatever time there is to wait. -/
structure EndsWell : Prop where
  waits : ∀ budgetMs, ∃ outcome, (i.wait disk engine budgetMs cancelled).2 = .ok outcome
  settles : ∀ budgetMs, ∃ count,
    ((i.wait disk engine budgetMs cancelled).1.settle disk).2 = .ok count

/-- What is noted on the wait for the data. -/
def waitNotes : List String := i.noted (i.wait disk engine 0 cancelled).2

/-- What is noted on what is settled after the wait. -/
def settleNotes : List String := i.noted ((i.wait disk engine 0 cancelled).1.settle disk).2

/-- The time that there is to wait may change how the wait ends, but not whether it fails or what it
reads. -/
theorem wait_budget (budgetMs budgetMs' : Nat) :
    i.noted (i.wait disk engine budgetMs cancelled).2 =
        i.noted (i.wait disk engine budgetMs' cancelled).2 ∧
      (i.wait disk engine budgetMs cancelled).1.mode =
        (i.wait disk engine budgetMs' cancelled).1.mode ∧
      (i.wait disk engine budgetMs cancelled).1.store =
        (i.wait disk engine budgetMs' cancelled).1.store := by
  unfold wait
  split
  · split
    · exact ⟨rfl, rfl, rfl⟩
    · split
      · exact ⟨rfl, rfl, rfl⟩
      · exact ⟨rfl, rfl, rfl⟩
  · exact ⟨rfl, rfl, rfl⟩

variable {i} in
/-- What is settled hangs on the log files only. -/
theorem settle_congr {j : Interface} (hmode : i.mode = j.mode) (hstore : i.store = j.store) :
    (i.settle disk).2 = (j.settle disk).2 := by
  unfold settle
  rw [hmode, hstore]
  split <;> rfl

theorem noted_wait (budgetMs : Nat) :
    i.noted (i.wait disk engine budgetMs cancelled).2 = i.waitNotes disk engine cancelled :=
  (i.wait_budget disk engine cancelled budgetMs 0).1

theorem noted_settle (budgetMs : Nat) :
    i.noted ((i.wait disk engine budgetMs cancelled).1.settle disk).2 =
      i.settleNotes disk engine cancelled := by
  rcases i.wait_budget disk engine cancelled budgetMs 0 with ⟨-, hmode, hstore⟩
  rw [settleNotes, settle_congr disk hmode hstore]

theorem endsWell_iff :
    i.EndsWell disk engine cancelled ↔
      i.waitNotes disk engine cancelled = [] ∧ i.settleNotes disk engine cancelled = [] := by
  constructor
  · intro h
    exact ⟨noted_eq_nil_iff.2 (h.waits 0), noted_eq_nil_iff.2 (h.settles 0)⟩
  · rintro ⟨hwait, hsettle⟩
    refine ⟨fun budgetMs => ?_, fun budgetMs => ?_⟩
    · rw [← i.noted_wait disk engine cancelled budgetMs] at hwait
      exact noted_eq_nil_iff.1 hwait
    · rw [← i.noted_settle disk engine cancelled budgetMs] at hsettle
      exact noted_eq_nil_iff.1 hsettle

end Interface

namespace Session

/-! ## What teardown notes -/

theorem interface?_mapAll (s : Session) {operation : Interface → Interface}
    (hsource : ∀ i, (operation i).source = i.source) (source : Source) :
    (s.mapAll operation).interface? source = (s.interface? source).map operation := by
  have hsame : ((fun i : Interface => decide (i.source = source)) ∘ operation) =
      fun i => decide (i.source = source) :=
    funext fun i => by rw [Function.comp_apply, hsource]
  rw [interface?, mapAll, List.find?_map, hsame]
  rfl

theorem interface?_mapAt_of_ne {s : Session} {source other : Source} (hne : other ≠ source)
    {operation : Interface → Interface} (hsource : ∀ i, (operation i).source = i.source) :
    (s.mapAt source operation).interface? other = s.interface? other := by
  rw [mapAt, interface?_mapAll s (fun i => by split <;> simp [hsource])]
  cases hfind : s.interface? other with
  | none => rfl
  | some i =>
    have hi : i.source ≠ source := by
      rw [(interface?_mem hfind).2]
      exact hne
    rw [Option.map_some, if_neg hi]

/-- What is said of the interfaces of some sources, one after the other. -/
def sayings (s : Session) (sources : List Source) (said : Interface → List String) :
    List String :=
  sources.flatMap fun source => (s.interface? source).toList.flatMap said

theorem sayings_eq_nil_iff {s : Session} (h : s.Distinct) {sources : List Source}
    (hsources : sources.Perm (s.interfaces.map (·.source))) {said : Interface → List String} :
    s.sayings sources said = [] ↔ ∀ i ∈ s.interfaces, said i = [] := by
  rw [sayings, List.flatMap_eq_nil_iff]
  constructor
  · intro hnone i hi
    have hmem : i.source ∈ sources := hsources.mem_iff.2 (List.mem_map_of_mem hi)
    have hfirst := hnone i.source hmem
    rw [h.interface?_eq hi] at hfirst
    simpa using hfirst
  · intro hnone source _
    cases hfind : s.interface? source with
    | none => rfl
    | some i => simpa using hnone i (interface?_mem hfind).1

/-- A step of teardown notes what is said of the interface that it visits. -/
structure Notes (s : Session) (said : Interface → List String)
    (step : Teardown → Source → Teardown) : Prop where
  errors : ∀ {t : Teardown}, Steady s t.session → ∀ source,
    (step t source).errors = t.errors ++ (t.session.interface? source).toList.flatMap said

/-- Steps that visit one source after the other note what is said of the interfaces as they were at
the start. -/
theorem Notes.foldl {s : Session} {said : Interface → List String}
    {step : Teardown → Source → Teardown} (hnotes : Notes s said step)
    {operation : Nat → Interface → Interface} {Succeeds : Interface → Prop}
    {expected : WaitOutcome → Prop} (hvisits : Visits s operation Succeeds expected step)
    {sources : List Source} (hnodup : sources.Nodup) {t : Teardown} (ht : Steady s t.session) :
    (sources.foldl step t).errors = t.errors ++ t.session.sayings sources said := by
  induction sources generalizing t with
  | nil => exact (List.append_nil t.errors).symm
  | cons source rest ih =>
    rcases List.nodup_cons.1 hnodup with ⟨hnotMem, hrest⟩
    rcases hvisits.session ht source with ⟨budgetMs, hsession⟩
    have ht' : Steady s (step t source).session := by
      rw [hsession]
      exact ht.mapAt source (hvisits.source budgetMs)
    -- The interfaces whose turn comes later are still as they were.
    have hlater : (step t source).session.sayings rest said = t.session.sayings rest said := by
      refine List.flatMap_congr fun other hother => ?_
      have hne : other ≠ source := fun heq => hnotMem (heq ▸ hother)
      rw [hsession, interface?_mapAt_of_ne hne (hvisits.source budgetMs)]
    rw [List.foldl_cons, ih hrest ht', hlater, hnotes.errors ht source, List.append_assoc]
    rfl

theorem waitOn_notes (s : Session) (disk : Disk) :
    Notes s (fun i => i.waitNotes disk s.engine s.cancelled) (Teardown.waitOn disk) := by
  refine ⟨fun {t} ht source => ?_⟩
  rw [← ht.engine, ← ht.cancelled, Teardown.waitOn]
  cases hfind : t.session.interface? source with
  | none => exact (List.append_nil t.errors).symm
  | some i =>
    have hsource := (interface?_mem hfind).2
    have hnoted := i.noted_wait disk t.session.engine t.session.cancelled
      (min (1000 * t.session.engine.timeoutOf t.session.scenario.library.library source) t.leftMs)
    simp only [Option.toList_some, List.flatMap_singleton]
    rw [← hnoted]
    split <;> rename_i hwait <;> rw [hwait]
    · rw [Interface.noted, hsource]
      rfl
    · exact (List.append_nil t.errors).symm

theorem settleOn_notes (s : Session) (disk : Disk) :
    Notes s (fun i => i.noted (i.settle disk).2) (Teardown.settleOn disk) := by
  refine ⟨fun {t} _ source => ?_⟩
  rw [Teardown.settleOn]
  cases hfind : t.session.interface? source with
  | none => exact (List.append_nil t.errors).symm
  | some i =>
    have hsource := (interface?_mem hfind).2
    simp only [Option.toList_some, List.flatMap_singleton]
    split <;> rename_i hsettle <;> rw [hsettle]
    · rw [Interface.noted, hsource]
      rfl
    · exact (List.append_nil t.errors).symm

variable {s : Session} (disk : Disk) (h : s.Complete)

include h

/-- Waiting and settling go by different orders, but both visit every interface. -/
theorem Complete.orders :
    s.scenario.teardownOrder.Perm (s.interfaces.map (·.source)) ∧
      s.scenario.sources.Perm (s.interfaces.map (·.source)) := by
  rw [h]
  exact ⟨teardownOrder_perm s.scenario, List.Perm.refl _⟩

/-- Teardown notes the waits that fail, in the order of the waits, and then what cannot be settled,
in the order of the sources. -/
theorem teardown_errors :
    (s.teardown disk).errors =
      s.sayings s.scenario.teardownOrder (fun i => i.waitNotes disk s.engine s.cancelled) ++
        s.sayings s.scenario.sources (fun i => i.settleNotes disk s.engine s.cancelled) := by
  -- The waits leave every interface after a wait of its own.
  have hwaits := waitOn_visits s disk fun _ => True
  have hstart : Steady s s := ⟨rfl, rfl, h.distinct⟩
  rcases h.orders with ⟨horder, hsources⟩
  have hwaited := (waitOn_notes s disk).foldl hwaits (horder.nodup_iff.2 h.distinct)
    (t := ⟨s, [], [], 1000 * s.engine.timeoutS⟩) hstart
  rcases (hwaits.run (t := ⟨s, [], [], 1000 * s.engine.timeoutS⟩) hstart horder).1 with
    ⟨budgetMs, hsession⟩
  have hsource : ∀ i : Interface,
      (i.wait disk s.engine (budgetMs i.source) s.cancelled).1.source = i.source :=
    fun i => i.source_wait disk s.engine (budgetMs i.source) s.cancelled
  generalize hafter : s.scenario.teardownOrder.foldl (Teardown.waitOn disk)
    ⟨s, [], [], 1000 * s.engine.timeoutS⟩ = after at hwaited hsession
  have hsteady : Steady s after.session := by
    rw [hsession]
    exact hstart.mapAll hsource
  have hteardown : s.teardown disk = s.scenario.sources.foldl (Teardown.settleOn disk) after :=
    congrArg (s.scenario.sources.foldl (Teardown.settleOn disk)) hafter
  have hsettled := (settleOn_notes s disk).foldl (settleOn_visits s disk fun _ => True)
    (hsources.nodup_iff.2 h.distinct) hsteady
  rw [hteardown, hsettled, hwaited, List.nil_append]
  -- What is settled is settled on the interfaces as their waits leave them.
  congr 1
  refine List.flatMap_congr fun source _ => ?_
  rw [hsession, interface?_mapAll s hsource]
  cases s.interface? source with
  | none => rfl
  | some i =>
    have hnoted := i.noted_settle disk s.engine s.cancelled (budgetMs i.source)
    simp only [Option.map_some, Option.toList_some, List.flatMap_singleton]
    rw [← hnoted, Interface.noted.eq_def, Interface.noted.eq_def, hsource]

theorem errors_eq_nil_iff :
    (s.teardown disk).errors = [] ↔
      ∀ i ∈ s.interfaces, i.EndsWell disk s.engine s.cancelled := by
  rcases h.orders with ⟨horder, hsources⟩
  rw [teardown_errors disk h, List.append_eq_nil_iff, sayings_eq_nil_iff h.distinct horder,
    sayings_eq_nil_iff h.distinct hsources]
  constructor
  · rintro ⟨hwaits, hsettles⟩ i hi
    exact (i.endsWell_iff disk s.engine s.cancelled).2 ⟨hwaits i hi, hsettles i hi⟩
  · intro hends
    exact ⟨fun i hi => ((i.endsWell_iff disk s.engine s.cancelled).1 (hends i hi)).1,
      fun i hi => ((i.endsWell_iff disk s.engine s.cancelled).1 (hends i hi)).2⟩

theorem teardown_distinct : (s.teardown disk).session.Distinct := by
  rcases (teardown_visits disk h fun _ => True).1 with ⟨budgetMs, hsession⟩
  rw [hsession]
  refine h.distinct.mapAll fun i => ?_
  rw [Interface.source_settle, Interface.source_wait]

omit h

/-! ## Corrupt entries -/

/-- What a report lists as corrupt is so, under the name of a source. -/
theorem mem_corruptByName {interfaces : List Interface} {c : String × List CorruptEntry}
    (h : c ∈ corruptByName interfaces) :
    ∃ i ∈ interfaces, c = (i.source.name, i.corruptEntries) ∧ i.corruptEntries ≠ [] := by
  rcases List.mem_map.1 (Members.mem_ofList h) with ⟨i, hi, rfl⟩
  rcases List.mem_filter.1 hi with ⟨hmem, hsome⟩
  exact ⟨i, hmem, rfl, by simpa using hsome⟩

/-- What is listed has entries, so where a report counts none it lists nothing. -/
theorem corrupt_eq_nil_iff {s : Session} (disk : Disk) :
    (s.finish disk).corrupt = [] ↔ (s.finish disk).corruptCount = 0 := by
  rw [SessionReport.corruptCount, List.length_eq_zero_iff, List.flatMap_eq_nil_iff]
  constructor
  · intro hnone
    simp [hnone]
  · intro hnone
    refine List.eq_nil_iff_forall_not_mem.2 fun c hc => ?_
    rcases mem_corruptByName hc with ⟨i, -, rfl, hentries⟩
    exact hentries (hnone _ hc)

/-- Interfaces of different sources are listed under different names, so none of them is lost. -/
theorem corruptByName_perm {interfaces : List Interface}
    (hdistinct : (interfaces.map (·.source)).Nodup) :
    (corruptByName interfaces).Perm
      ((interfaces.filter fun i => !i.corruptEntries.isEmpty).map fun i =>
        (i.source.name, i.corruptEntries)) := by
  have hname : Function.Injective Source.name := by
    intro a b heq
    have hfound := congrArg Source.ofName? heq
    rw [Source.ofName?_name, Source.ofName?_name] at hfound
    exact Option.some.inj hfound
  have hsources : ((interfaces.filter fun i => !i.corruptEntries.isEmpty).map (·.source)).Nodup :=
    hdistinct.sublist (List.filter_sublist.map Interface.source)
  refine Members.ofList_perm ?_
  have hnames := hsources.map hname
  rw [List.map_map] at hnames ⊢
  exact hnames

include h

theorem length_corrupt :
    (s.finish disk).corrupt.length =
      (s.teardown disk).session.interfaces.countP (!·.corruptEntries.isEmpty) := by
  have hperm := corruptByName_perm (teardown_distinct disk h)
  rw [List.countP_eq_length_filter]
  exact hperm.length_eq.trans (List.length_map _)

theorem corruptCount_eq_zero_iff :
    (s.finish disk).corruptCount = 0 ↔
      ∀ i ∈ (s.teardown disk).session.interfaces, i.corruptEntries = [] := by
  rw [← corrupt_eq_nil_iff, ← List.length_eq_zero_iff, length_corrupt disk h, List.countP_eq_zero]
  refine forall₂_congr fun i _ => ?_
  simp

omit h

/-! ## All of it -/

variable (s) in
/-- Nothing goes wrong: all verdicts are passes, no log file has an entry that gives no record, and
nothing fails at the end. -/
structure GoesWell : Prop where
  passes : ∀ v ∈ (s.finish disk).verdicts, v.outcome = .passed
  entries : ∀ i ∈ (s.teardown disk).session.interfaces, i.corruptEntries = []
  ends : ∀ i ∈ s.interfaces, i.EndsWell disk s.engine s.cancelled

end Session

theorem Verdict.isPassed_iff (v : Verdict) : v.isPassed = true ↔ v.outcome = .passed := by
  rw [isPassed]
  cases v.outcome <;> simp [Outcome.isPassed]

theorem SessionReport.failed_eq_zero_iff (r : SessionReport) :
    r.failed = 0 ↔ ∀ v ∈ r.verdicts, v.outcome = .passed := by
  rw [failed, List.countP_eq_zero]
  refine forall₂_congr fun v _ => ?_
  rw [← v.isPassed_iff]
  simp

namespace Session

variable {s : Session} (disk : Disk) (h : s.Complete)

include h

theorem isSuccess_finish : (s.finish disk).isSuccess = true ↔ s.GoesWell disk := by
  have hpasses := (s.finish disk).failed_eq_zero_iff
  have hentries := corruptCount_eq_zero_iff disk h
  have herrors : (s.finish disk).errors = [] ↔
      ∀ i ∈ s.interfaces, i.EndsWell disk s.engine s.cancelled := errors_eq_nil_iff disk h
  simp only [SessionReport.isSuccess, Bool.and_eq_true, beq_iff_eq, List.isEmpty_iff]
  rw [hpasses, hentries, herrors]
  constructor
  · rintro ⟨⟨hpasses, hentries⟩, hends⟩
    exact ⟨hpasses, hentries, hends⟩
  · intro hwell
    exact ⟨⟨hwell.passes, hwell.entries⟩, hwell.ends⟩

omit h disk

/-! ## Sessions on their way -/

theorem Complete.setInterface (h : s.Complete) (i : Interface) : (s.setInterface i).Complete := by
  have hscenario : (s.setInterface i).scenario = s.scenario := rfl
  rw [Complete, hscenario, ← h, Session.setInterface, List.map_map]
  refine List.map_congr_left fun old _ => ?_
  rw [Function.comp_apply]
  split
  · rename_i hsource
    exact hsource.symm
  · rfl

theorem Complete.on {α : Type} {t : Session} {source : Source} {result : α}
    {operation : Interface → Except SessionError (Interface × α)} (h : s.Complete)
    (hon : s.on source operation = .ok (t, result)) : t.Complete := by
  rw [Session.on] at hon
  cases hfind : s.interface? source with
  | none => simp [hfind] at hon
  | some i =>
    cases hoperation : operation i with
    | error e => simp [hfind, hoperation, bind, Except.bind] at hon
    | ok pair =>
      simp only [hfind, hoperation, bind, Except.bind, Except.ok.injEq, Prod.mk.injEq] at hon
      rw [← hon.1]
      exact h.setInterface pair.1

theorem Complete.onCourse {c : Course} (h : c.session.Complete) (source : Source)
    (operation : Interface → Interface) : (c.on source operation).session.Complete := by
  rw [Course.on]
  split
  · exact h
  · exact h.setInterface _

theorem Complete.drain {c : Course} (h : c.session.Complete) (source : Source) (abandoned : Bool)
    (operation : Interface → Interface × List Verdict) :
    (c.drain source abandoned operation).session.Complete := by
  rw [Course.drain]
  split
  · exact h
  · exact h.setInterface _

/-- No operation adds an interface or takes one away. -/
theorem Complete.step {c : Course} (h : c.session.Complete) (action : Action) :
    (c.step action).session.Complete := by
  cases action with
  | append source record =>
    rw [Course.step]
    split
    · rename_i happend
      exact h.on happend
    · exact h
  | register source testId assertion =>
    rw [Course.step]
    split
    · rename_i hregister
      exact h.on hregister
    · exact h
  | call testId =>
    simp only [Course.step, Session.call]
    split <;> exact h
  | cancel => exact h
  | change disk => exact h
  | except source traceId => exact h.onCourse source _
  | wait source budgetMs cancelled => exact h.onCourse source _
  | settle source => exact h.onCourse source _
  | evaluate source => exact h.drain source false _
  | abandon source reason => exact h.drain source true _

theorem Complete.run {c : Course} (h : c.session.Complete) (actions : List Action) :
    (c.run actions).session.Complete := by
  induction actions generalizing c with
  | nil => exact h
  | cons action rest ih => exact ih (h.step action)

theorem Started.complete (h : s.Started) : s.Complete := by
  induction h with
  | inMemory scenario engine => exact complete_of_sources Interface.inMemory rfl fun _ => rfl
  | live scenario engine logFolder =>
    exact complete_of_sources (Interface.live · logFolder) rfl fun _ => rfl
  | replay hreplay =>
    rcases replay_parts hreplay with ⟨interfaces, journal, hinterfaces, -, rfl⟩
    have hsources := map_of_mapM_ok (g := Interface.source) (k := id)
      (fun source i hi => (Interface.origin_of_replay hi).1) hinterfaces
    exact hsources.trans (List.map_id _)
  | answered calls _ ih => exact ih

end Session
end TraceAudit
