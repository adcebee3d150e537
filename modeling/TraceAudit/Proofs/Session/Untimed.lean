import TraceAudit.Proofs.Session.LiveReplay
import TraceAudit.Proofs.Store.Untimed
import TraceAudit.Proofs.Validator.Untimed

/-!
# Replays and file times

A replay takes the time of a file over into the records that have no time of their own. Nothing that
a session reports hangs on it.

* `Session.Alike` says that two sessions agree but for the times of records, and
  `Session.replay_alike` that such folders are opened as such sessions;
* `Session.Script` is what a test does, which may hang on the answers to its calls, and
  `Session.Alike.script` goes through it operation by operation;
* `Session.Alike.finish` says that reports do not hang on these times;
* `Session.replay_retimed` compares the replays of a folder before and after its file times change.
-/

namespace TraceAudit

/-! ## Interfaces -/

namespace Interface

open Session (Action)

/-- The interface without the times of its records. -/
def untimed (i : Interface) : Interface :=
  { i with records := i.records.map Record.untimed, store := i.store.map Store.untimed }

theorem push_untimed (i : Interface) (record : Record) :
    (i.push record).untimed = i.untimed.push record.untimed := by
  simp [push, untimed, Record.untimed]

theorem pushAll_untimed (i : Interface) (records : List Record) :
    (i.pushAll records).untimed = i.untimed.pushAll (records.map Record.untimed) := by
  induction records generalizing i with
  | nil => rfl
  | cons record rest ih =>
    have hrest := ih (i.push record)
    rw [push_untimed] at hrest
    exact hrest

/-- Stores that agree but for times give interfaces that do. -/
theorem takeStaged_alike (i : Interface) {store store' : Store}
    (h : store.untimed = store'.untimed) :
    (i.takeStaged store).untimed = (i.takeStaged store').untimed := by
  have htake : ∀ s : Store, (i.takeStaged s).untimed =
      ({ i.untimed with store := some s.untimed.drain.1 } : Interface).pushAll
        (s.untimed.staged) := by
    intro s
    exact pushAll_untimed { i with store := some s.drain.1 } s.staged
  rw [htake, htake, h]

/-- The folder of a source lies below the log folder. -/
theorem below_folderOf (logFolder : String) (source : Source) :
    Path.Below logFolder (Store.folderOf logFolder source) := by
  have hinterfaces : Path.IsDown "interfaces" := by decide +kernel
  have hsource : Path.IsDown source.name := Path.isDown_of_isName (Source.isName_name source)
  exact (Path.Below.here.down hinterfaces).down hsource

/-- An interface over a folder that differs in file times only. -/
theorem replay_untimed {d d' : Disk} {logFolder : String} (h : d.SameBelow logFolder d')
    (source : Source) :
    (replay d source logFolder).map untimed = (replay d' source logFolder).map untimed := by
  have hloads := Store.load_untimed h source (below_folderOf logFolder source)
  unfold replay Store.forLogFolder
  generalize (Store.fresh source (Store.folderOf logFolder source)).load d = loaded at hloads ⊢
  generalize (Store.fresh source (Store.folderOf logFolder source)).load d' = loaded' at hloads ⊢
  rcases Store.outcome_cases hloads with ⟨store, store', result, rfl, rfl, hstores⟩
  cases result with
  | error fault => rfl
  | ok n => exact congrArg Except.ok (takeStaged_alike (fresh source .replay none) hstores)

/-- Operations do not look at the times of records. -/
theorem after_alike {i j : Interface} (h : i.untimed = j.untimed) (action : Action) :
    (i.after action).untimed = (j.after action).untimed := by
  have hsource : i.source = j.source := (congrArg Interface.source h :)
  have hclosed : i.closed = j.closed := (congrArg Interface.closed h :)
  cases action with
  | append source record =>
    rw [after_append, after_append, hsource]
    split
    · rw [push_untimed, push_untimed, h]
    · exact h
  | register source testId assertion =>
    rw [after_register, after_register, hclosed]
    split
    · exact h
    · exact (congrArg (·.enqueue testId assertion) h :)
  | except source traceId => exact (congrArg (·.except traceId) h :)
  | wait source budgetMs cancelled => exact (congrArg waited h :)
  | evaluate source => exact (congrArg close h :)
  | abandon source reason => exact (congrArg close h :)
  | settle source => exact h
  | cancel => exact h
  | call testId => exact h
  | change disk => exact h

@[simp] theorem untimed_untimed (i : Interface) : i.untimed.untimed = i.untimed := by
  have hrecords : ∀ records : List Record,
      (records.map Record.untimed).map Record.untimed = records.map Record.untimed := by
    simp [Function.comp_def]
  cases hstore : i.store <;> simp [untimed, Store.untimed, hstore, hrecords]

end Interface

/-- The journal of a folder that differs in file times only. -/
theorem Journal.load_retimed {d d' : Disk} {logFolder : String} (h : d.SameBelow logFolder d') :
    load d logFolder = load d' logFolder := by
  have hdown : Path.IsDown "weblog/requests.jsonl" := by decide +kernel
  have hpath : Path.Below logFolder (pathIn logFolder) := Path.Below.here.down hdown
  rw [load, load, h.has hpath, h.readText hpath]

namespace Session

/-! ## Sessions -/

/-- The session without the times of records. -/
def untimed (s : Session) : Session := s.mapAll Interface.untimed

/-- No interface reads log files that somebody still writes. -/
def Still (s : Session) : Prop := ∀ i ∈ s.interfaces, i.mode ≠ .live

/-- The interface of a source is found with or without times. -/
theorem interface?_untimed (s : Session) (source : Source) :
    s.untimed.interface? source = (s.interface? source).map Interface.untimed :=
  List.find?_map

/-- Two sessions over log files that nobody writes, which agree but for the times of records. -/
structure Alike (s t : Session) : Prop where
  untimed : s.untimed = t.untimed
  complete : s.Complete
  still : s.Still

namespace Alike

variable {s t : Session} (h : s.Alike t)

include h

theorem symm : t.Alike s := by
  have hinterfaces : s.untimed.interfaces = t.untimed.interfaces :=
    congrArg Session.interfaces h.untimed
  refine ⟨h.untimed.symm, ?_, ?_⟩
  · have hscenario : s.scenario = t.scenario := (congrArg Session.scenario h.untimed :)
    have hkept : ∀ u : Session,
        u.untimed.interfaces.map (·.source) = u.interfaces.map (·.source) := by
      intro u
      rw [Session.untimed]
      exact sources_mapAll u fun i => rfl
    calc
      t.interfaces.map (·.source)
        = t.untimed.interfaces.map (·.source) := (hkept t).symm
      _ = s.untimed.interfaces.map (·.source) := by rw [hinterfaces]
      _ = s.interfaces.map (·.source) := hkept s
      _ = s.scenario.sources := h.complete
      _ = t.scenario.sources := by rw [hscenario]
  · intro j hj
    have hmem : j.untimed ∈ s.untimed.interfaces := by
      rw [hinterfaces]
      exact List.mem_map_of_mem hj
    rcases List.mem_map.1 hmem with ⟨i, hi, hsame⟩
    have hmode : i.mode = j.mode := (congrArg Interface.mode hsame :)
    exact hmode ▸ h.still i hi

/-- An operation on interfaces that does not look at times keeps sessions alike. -/
theorem mapAll {operation : Interface → Interface}
    (hoperation : ∀ i j : Interface, i.untimed = j.untimed →
      (operation i).untimed = (operation j).untimed)
    (horigin : ∀ i : Interface, (operation i).source = i.source ∧ (operation i).mode = i.mode) :
    (s.mapAll operation).Alike (t.mapAll operation) := by
  have hthrough : ∀ u : Session, (u.mapAll operation).untimed =
      (u.untimed.mapAll operation).untimed := by
    intro u
    simp only [Session.untimed, mapAll_mapAll]
    exact mapAll_congr fun i _ => hoperation i i.untimed i.untimed_untimed.symm
  refine ⟨?_, h.complete.mapAll fun i => (horigin i).1, ?_⟩
  · rw [hthrough s, hthrough t, h.untimed]
  · intro i hi
    rcases List.mem_map.1 hi with ⟨old, hold, rfl⟩
    rw [(horigin old).2]
    exact h.still old hold

theorem mapAt {operation : Interface → Interface}
    (hoperation : ∀ i j : Interface, i.untimed = j.untimed →
      (operation i).untimed = (operation j).untimed)
    (horigin : ∀ i : Interface, (operation i).source = i.source ∧ (operation i).mode = i.mode)
    (source : Source) : (s.mapAt source operation).Alike (t.mapAt source operation) := by
  refine h.mapAll (fun i j hij => ?_) fun i => ?_
  · have hsource : i.source = j.source := (congrArg Interface.source hij :)
    rw [hsource]
    split
    · exact hoperation i j hij
    · exact hij
  · split
    · exact horigin i
    · exact ⟨rfl, rfl⟩

/-- Both sessions have an interface of a source, or none of them has. -/
theorem interface? (source : Source) :
    (s.interface? source = none ∧ t.interface? source = none) ∨
      ∃ i j, s.interface? source = some i ∧ t.interface? source = some j ∧
        i.untimed = j.untimed := by
  have hfound : (s.interface? source).map Interface.untimed =
      (t.interface? source).map Interface.untimed := by
    rw [← interface?_untimed, ← interface?_untimed, h.untimed]
  cases hleft : s.interface? source with
  | none =>
    rw [hleft] at hfound
    have hright : t.interface? source = none := by simpa using hfound.symm
    exact Or.inl ⟨rfl, hright⟩
  | some i =>
    rw [hleft] at hfound
    rcases Option.map_eq_some_iff.1 hfound.symm with ⟨j, hright, hsame⟩
    exact Or.inr ⟨i, j, rfl, hright, hsame.symm⟩

/-- Calls are answered alike. -/
theorem call (testId : String) :
    (s.call testId).1.Alike (t.call testId).1 ∧ (s.call testId).2 = (t.call testId).2 := by
  have hcalls : s.calls = t.calls := (congrArg Session.calls h.untimed :)
  rw [Session.call, Session.call, hcalls]
  cases t.calls with
  | none => exact ⟨h, rfl⟩
  | some client =>
    refine ⟨⟨?_, h.complete, h.still⟩, rfl⟩
    exact congrArg (fun u : Session => { u with calls := some (client.answer testId).1 }) h.untimed

end Alike

/-! ## Opening a replay -/

theorem mapM_map_congr {α β γ ε : Type} {f f' : α → Except ε β} {g : β → γ} {xs : List α}
    (h : ∀ x ∈ xs, (f x).map g = (f' x).map g) :
    (xs.mapM f).map (List.map g) = (xs.mapM f').map (List.map g) := by
  induction xs with
  | nil => rfl
  | cons x rest ih =>
    have hx := h x List.mem_cons_self
    have hrest := ih fun y hy => h y (List.mem_cons_of_mem x hy)
    simp only [List.mapM_cons]
    rcases results_of_map_eq hx with ⟨e, hleft, hright⟩ | ⟨y, y', hleft, hright, hhead⟩
    · rw [hleft, hright]
      rfl
    · rw [hleft, hright]
      rcases results_of_map_eq hrest with ⟨e, hmore, hmore'⟩ | ⟨ys, ys', hmore, hmore', htail⟩
      · rw [hmore, hmore']
        rfl
      · rw [hmore, hmore']
        exact congrArg Except.ok (congrArg₂ List.cons hhead htail)

/-- A replay that is opened is over log files that nobody writes. -/
theorem still_replay {disk : Disk} {scenario : Scenario} {engine : EngineSettings}
    {logFolder : String} {s : Session} (h : replay disk scenario engine logFolder = .ok s) :
    s.Complete ∧ s.Still := by
  rcases replay_parts h with ⟨interfaces, journal, hinterfaces, -, rfl⟩
  have hsources : interfaces.map (·.source) = scenario.sources.map id :=
    map_of_mapM_ok (fun source i hi => (Interface.origin_of_replay hi).1) hinterfaces
  have hmodes : interfaces.map (·.mode) = scenario.sources.map fun _ => SessionMode.replay :=
    map_of_mapM_ok (fun source i hi => (Interface.origin_of_replay hi).2) hinterfaces
  refine ⟨hsources.trans (List.map_id _), fun i hi => ?_⟩
  have hmem : i.mode ∈ interfaces.map (·.mode) := List.mem_map_of_mem hi
  rw [hmodes] at hmem
  rcases List.mem_map.1 hmem with ⟨source, -, hmode⟩
  rw [← hmode]
  simp

/-- Folders that differ in file times only are opened alike, or fail with the same error. -/
theorem replay_alike {d d' : Disk} {logFolder : String} (h : d.SameBelow logFolder d')
    (scenario : Scenario) (engine : EngineSettings) :
    (∃ e, replay d scenario engine logFolder = .error e ∧
        replay d' scenario engine logFolder = .error e) ∨
      ∃ s t, replay d scenario engine logFolder = .ok s ∧
        replay d' scenario engine logFolder = .ok t ∧ s.Alike t := by
  have hfolder := h.isFolder Path.Below.here
  have hjournal := Journal.load_retimed h
  have hinterfaces : (scenario.sources.mapM (Interface.replay d · logFolder)).map
        (List.map Interface.untimed) =
      (scenario.sources.mapM (Interface.replay d' · logFolder)).map
        (List.map Interface.untimed) :=
    mapM_map_congr fun source _ => Interface.replay_untimed h source
  cases hfound : d.isFolder logFolder with
  | false =>
    have hfound' : d'.isFolder logFolder = false := hfolder.symm.trans hfound
    exact Or.inl ⟨.store (.folderNotFound logFolder), by simp [replay, hfound],
      by simp [replay, hfound']⟩
  | true =>
    have hfound' : d'.isFolder logFolder = true := hfolder.symm.trans hfound
    rcases results_of_map_eq hinterfaces with
      ⟨e, hleft, hright⟩ | ⟨is, js, hleft, hright, hsame⟩
    · exact Or.inl ⟨.store e, by simp [replay, hfound, hleft, bind, Except.bind, Except.mapError],
        by simp [replay, hfound', hright, bind, Except.bind, Except.mapError]⟩
    · cases hload : Journal.load d logFolder with
      | error e =>
        have hload' : Journal.load d' logFolder = .error e := hjournal.symm.trans hload
        refine Or.inl ⟨.journal e, ?_, ?_⟩
        · simp [replay, hfound, hleft, hload, bind, Except.bind, Except.mapError]
        · simp [replay, hfound', hright, hload', bind, Except.bind, Except.mapError]
      | ok journal =>
        have hload' : Journal.load d' logFolder = .ok journal := hjournal.symm.trans hload
        have halike : (opened scenario engine logFolder is journal).untimed =
            (opened scenario engine logFolder js journal).untimed :=
          congrArg (opened scenario engine logFolder · journal) hsame
        have hleft' : replay d scenario engine logFolder =
            .ok (opened scenario engine logFolder is journal) := by
          simp [replay, hfound, hleft, hload, bind, Except.bind, Except.mapError, opened]
        have hright' : replay d' scenario engine logFolder =
            .ok (opened scenario engine logFolder js journal) := by
          simp [replay, hfound', hright, hload', bind, Except.bind, Except.mapError, opened]
        rcases still_replay hleft' with ⟨hcomplete, hstill⟩
        exact Or.inr ⟨_, _, hleft', hright', halike, hcomplete, hstill⟩

/-! ## Going on -/

/-- What a test does: it ends, or makes a call and goes on by the answer, or does anything else. -/
inductive Script where
  | done
  | call (testId : String) (next : Except SessionError TestCall → Script)
  | act (action : Action) (rest : Script)

/-- The session after a script. -/
def Script.run : Script → Course → Course
  | .done, c => c
  | .call testId next, c => (next (c.session.call testId).2).run (c.step (.call testId))
  | .act action rest, c => rest.run (c.step action)

/-- One operation on two sessions that are alike. -/
theorem Alike.step {c c' : Course} (h : c.session.Alike c'.session) (action : Action) :
    (c.step action).session.Alike (c'.step action).session := by
  cases htarget : action.target? with
  | some source =>
    have hleft := Course.step_mapAt h.complete.distinct htarget fun _ => h.still
    have hright := Course.step_mapAt h.symm.complete.distinct htarget fun _ => h.symm.still
    have hafter : ∀ i j : Interface, i.untimed = j.untimed →
        (i.after action).untimed = (j.after action).untimed :=
      fun i j hij => Interface.after_alike hij action
    rw [hleft, hright]
    exact h.mapAt hafter (fun i => i.origin_after action) source
  | none =>
    cases action with
    | cancel =>
      have hcancelled := congrArg Session.cancel h.untimed
      exact ⟨hcancelled, h.complete, h.still⟩
    | call testId => exact (h.call testId).1
    | change disk => exact h
    | _ => cases htarget

/-- A script goes the same way on both sessions, since their answers are the same. -/
theorem Alike.script {c c' : Course} (h : c.session.Alike c'.session) (script : Script) :
    (script.run c).session.Alike (script.run c').session := by
  induction script generalizing c c' with
  | done => exact h
  | call testId next ih =>
    have hanswer := (h.call testId).2
    have hnext := ih (c.session.call testId).2 (h.step (.call testId))
    rw [Script.run, Script.run, ← hanswer]
    exact hnext
  | act action rest ih => exact ih (h.step action)

/-! ## Reporting -/

/-- Two sessions on their way down that are alike, and took the same notes. -/
structure Teardown.Alike (t t' : Teardown) : Prop where
  session : t.session.Alike t'.session
  waits : t.waits = t'.waits
  errors : t.errors = t'.errors
  leftMs : t.leftMs = t'.leftMs

/-- An interface that is put in the place of one that was found. -/
theorem Alike.setInterface {s t : Session} (h : s.Alike t) {source : Source} {i j : Interface}
    (hi : s.interface? source = some i) (hj : t.interface? source = some j)
    {operation : Interface → Interface}
    (hoperation : ∀ i j : Interface, i.untimed = j.untimed →
      (operation i).untimed = (operation j).untimed)
    (horigin : ∀ i : Interface, (operation i).source = i.source ∧ (operation i).mode = i.mode) :
    (s.setInterface (operation i)).Alike (t.setInterface (operation j)) := by
  have hleft := setInterface_eq_mapAt h.complete.distinct hi operation (horigin i).1
  have hright := setInterface_eq_mapAt h.symm.complete.distinct hj operation (horigin j).1
  rw [hleft, hright]
  exact h.mapAt hoperation horigin source

/-- Nobody writes the log files, so a wait ends at once and does not look at the disk. -/
theorem Teardown.waitOn_of_still {t : Teardown} (h : t.session.Still) (disk : Disk)
    {source : Source} {i : Interface} (hfind : t.session.interface? source = some i) :
    t.waitOn disk source =
      { t with
        session := t.session.setInterface i.waited
        waits := Members.insert source.name .complete t.waits } := by
  have hmode := h i (interface?_mem hfind).1
  simp [Teardown.waitOn, hfind, Interface.wait_of_mode hmode, Interface.spentMs]

theorem Teardown.Alike.waitOn {t t' : Teardown} (h : t.Alike t') (d d' : Disk) (source : Source) :
    (t.waitOn d source).Alike (t'.waitOn d' source) := by
  rcases h.session.interface? source with ⟨hnone, hnone'⟩ | ⟨i, j, hi, hj, hij⟩
  · rw [Teardown.waitOn, Teardown.waitOn, hnone, hnone']
    exact h
  · have hset : (t.session.setInterface i.waited).Alike (t'.session.setInterface j.waited) :=
      h.session.setInterface hi hj (fun _ _ hsame => congrArg Interface.waited hsame)
        fun _ => ⟨rfl, rfl⟩
    rw [waitOn_of_still h.session.still d hi, waitOn_of_still h.session.symm.still d' hj]
    exact ⟨hset, congrArg (Members.insert source.name .complete) h.waits, h.errors, h.leftMs⟩

/-- There is nothing to settle. -/
theorem Teardown.Alike.settleOn {t t' : Teardown} (h : t.Alike t') (d d' : Disk)
    (source : Source) : (t.settleOn d source).Alike (t'.settleOn d' source) := by
  rcases h.session.interface? source with ⟨hnone, hnone'⟩ | ⟨i, j, hi, hj, hij⟩
  · rw [Teardown.settleOn, Teardown.settleOn, hnone, hnone']
    exact h
  · have hset : (t.session.setInterface (id i)).Alike (t'.session.setInterface (id j)) :=
      h.session.setInterface hi hj (fun _ _ hsame => hsame) fun _ => ⟨rfl, rfl⟩
    have hmode := h.session.still i (interface?_mem hi).1
    have hmode' := h.session.symm.still j (interface?_mem hj).1
    simp only [Teardown.settleOn, hi, hj, Interface.settle_of_mode hmode,
      Interface.settle_of_mode hmode']
    exact ⟨hset, h.waits, h.errors, h.leftMs⟩

theorem Teardown.Alike.foldl {step step' : Teardown → Source → Teardown}
    (hstep : ∀ {t t' : Teardown}, t.Alike t' → ∀ source, (step t source).Alike (step' t' source))
    {t t' : Teardown} (h : t.Alike t') (sources : List Source) :
    (sources.foldl step t).Alike (sources.foldl step' t') := by
  induction sources generalizing t t' with
  | nil => exact h
  | cons source rest ih => exact ih (hstep h source)

/-- Verdicts do not hang on the times of records. -/
theorem verdictsOf_untimed (s : Session) (i : Interface) :
    s.untimed.verdictsOf i.untimed = s.verdictsOf i := by
  have hevidence : i.untimed.evidence s.scenario s.engine.timingFallback =
      (i.evidence s.scenario s.engine.timingFallback).untimed := rfl
  have hevaluate : (i.untimed.evaluate s.scenario s.engine.timingFallback).2 =
      (i.evaluate s.scenario s.engine.timingFallback).2 := by
    simp only [Interface.evaluate, hevidence, Validator.evaluate_untimed]
    rfl
  exact congrArg (if s.cancelled then (i.abandon interruptedReason).2 else ·) hevaluate

theorem corruptEntries_untimed (i : Interface) : i.untimed.corruptEntries = i.corruptEntries := by
  cases hstore : i.store <;> simp [Interface.corruptEntries, Interface.untimed, hstore]

theorem corruptByName_untimed (interfaces : List Interface) :
    corruptByName (interfaces.map Interface.untimed) = corruptByName interfaces := by
  simp only [corruptByName, List.filter_map, List.map_map, Function.comp_def,
    corruptEntries_untimed]
  rfl

/-- Sessions that are alike report the same, and nothing else that is on the disks matters. -/
theorem Alike.finish {s t : Session} (h : s.Alike t) (d d' : Disk) :
    s.finish d = t.finish d' := by
  have hscenario : s.scenario = t.scenario := (congrArg Session.scenario h.untimed :)
  have hengine : s.engine = t.engine := (congrArg Session.engine h.untimed :)
  have hmode : s.mode = t.mode := (congrArg Session.mode h.untimed :)
  have hdown : (s.teardown d).Alike (t.teardown d') := by
    rw [teardown, teardown, ← hscenario, ← hengine]
    have hwaited := Teardown.Alike.foldl (fun hsame => hsame.waitOn d d')
      (⟨h, rfl, rfl, rfl⟩ : Teardown.Alike ⟨s, [], [], 1000 * s.engine.timeoutS⟩
        ⟨t, [], [], 1000 * s.engine.timeoutS⟩) s.scenario.teardownOrder
    exact Teardown.Alike.foldl (fun hsame => hsame.settleOn d d') hwaited s.scenario.sources
  have hverdicts : ∀ u : Session, u.interfaces.flatMap u.verdictsOf =
      u.untimed.interfaces.flatMap u.untimed.verdictsOf := by
    intro u
    have huntimed : u.untimed.interfaces = u.interfaces.map Interface.untimed := rfl
    rw [huntimed, List.flatMap_map]
    exact List.flatMap_congr fun i _ => (verdictsOf_untimed u i).symm
  have hcorrupt : corruptByName (s.teardown d).session.interfaces =
      corruptByName (t.teardown d').session.interfaces := by
    have hinterfaces := congrArg Session.interfaces hdown.session.untimed
    calc
      corruptByName (s.teardown d).session.interfaces
        = corruptByName (s.teardown d).session.untimed.interfaces :=
          (corruptByName_untimed _).symm
      _ = corruptByName (t.teardown d').session.untimed.interfaces := by rw [hinterfaces]
      _ = corruptByName (t.teardown d').session.interfaces := corruptByName_untimed _
  simp only [Session.finish, hscenario, hmode, hdown.waits, hdown.errors, hcorrupt,
    hverdicts (s.teardown d).session, hverdicts (t.teardown d').session, hdown.session.untimed]

/-- A log folder whose files were all changed last at some time. Its one record has no time of its
own. -/
def touched (modified : Int) : Disk :=
  (Disk.empty.append "run/interfaces/library/a.log"
    (Utf8.ofString "\x7b\"path\":\"/\",\"request\":\x7b\x7d\x7d") modified).append
    "run/weblog/requests.jsonl"
    (Utf8.ofString "\x7b\"test_id\":\"t\",\"index\":0,\"request\":\x7b\"id\":\"first\"," ++
      Utf8.ofString "\"method\":\"GET\",\"path\":\"/\"," ++
      Utf8.ofString "\"issued_at\":\"2024-05-01T00:00:00Z\"\x7d\x7d") modified

/-- A test that asks for the spans of its call. -/
def asksForSpans : Script :=
  .call "t" fun answer =>
    match answer with
    | .ok call => .act (.register .library "t" (.spanCount call 1 .exactly false)) .done
    | .error _ => .done

end Session
end TraceAudit
