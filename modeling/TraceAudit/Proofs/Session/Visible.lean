import TraceAudit.Proofs.Session.LiveReplay
import TraceAudit.Proofs.Store.Watching

/-!
# The visible records of an interface

Records become visible from two sides: they are handed in one by one, or they are read from log
files, which may change at any time and make a wait fail half-way.

* `Interface.Feed` is an interface on its way through calls, and `Interface.Call.read` what a call
  reads into its store;
* `Interface.InOrder` says that the visible records are numbered in their order and are of one
  source, `Interface.Feed.Shows` that those of them that were not handed in are all that was read;
* `Interface.Feed.step_of_mode` and `Interface.Feed.Shows.step` say what one call keeps, by one case
  for each call, without log files that somebody writes and with them;
* `Interface.wait_eq_watch` says that a wait over files that do not change needs one look at them;
* `Interface.visible_records` goes through all calls.
-/

namespace TraceAudit

/-- The record without its number. -/
def Record.unnumbered (r : Record) : Record := { r with seq := 0 }

namespace Interface

/-! ## Calls -/

/-- What is done with an interface. The log files are given as they are at that time: for `wait`
and `settle` they do not change during the call, for `watch` and `settleDuring` they may. -/
inductive Call where
  | append (record : Record)
  | register (testId : String) (assertion : Assertion)
  | except (traceId : Nat)
  | evaluate (scenario : Scenario) (timingFallback : Bool)
  | abandon (reason : String)
  | wait (disk : Disk) (engine : EngineSettings) (budgetMs : Nat) (cancelled : Bool)
  | settle (disk : Disk)
  | watch (engine : EngineSettings) (budgetMs : Nat) (glances : List Glance)
  | settleDuring (look : Look) (reading : String → Disk)

/-- What a call reads into the store of a live interface. -/
def Call.read : Call → Store → Store
  | .wait disk _ _ cancelled, s => if cancelled then s else (s.poll disk).1
  | .settle disk, s => (s.pollThenFlush disk).1
  | .watch engine budgetMs glances, s => (s.watch engine budgetMs 0 glances).1
  | .settleDuring look reading, s => (s.settleDuring look reading).1
  | _, s => s

/-- An interface between two calls, and the numbers of the records that were handed in. -/
structure Feed where
  interface : Interface
  appended : List Nat

namespace Feed

def start (i : Interface) : Feed := ⟨i, []⟩

/-- One call. Whether it succeeds or fails, the interface is what it leaves behind. -/
def step (f : Feed) : Call → Feed
  | .append record =>
    match f.interface.append record with
    | .ok interface => ⟨interface, f.appended ++ [f.interface.records.length]⟩
    | .error _ => f
  | .register testId assertion =>
    { f with interface := f.interface.orSelf (f.interface.register testId assertion) }
  | .except traceId => { f with interface := f.interface.except traceId }
  | .evaluate scenario timingFallback =>
    { f with interface := (f.interface.evaluate scenario timingFallback).1 }
  | .abandon reason => { f with interface := (f.interface.abandon reason).1 }
  | .wait disk engine budgetMs cancelled =>
    { f with interface := (f.interface.wait disk engine budgetMs cancelled).1 }
  | .settle disk => { f with interface := (f.interface.settle disk).1 }
  | .watch engine budgetMs glances =>
    { f with interface := (f.interface.watch engine budgetMs glances).1 }
  | .settleDuring look reading =>
    { f with interface := (f.interface.settleDuring look reading).1 }

/-- A record of another source is not taken. -/
theorem step_append (f : Feed) (record : Record) :
    f.step (.append record) =
      if record.source = f.interface.source then
        ⟨f.interface.push record, f.appended ++ [f.interface.records.length]⟩
      else f := by
  rw [step, append]
  split
  · rename_i h
    split at h
    · cases h
      rw [if_pos ‹_›]
    · cases h
  · rename_i h
    split at h
    · cases h
    · rw [if_neg ‹_›]

/-- Calls in order. -/
def run (f : Feed) (calls : List Call) : Feed := calls.foldl step f

end Feed

/-- An interface that nothing was done with yet. -/
inductive Opened : Interface → Prop
  | inMemory (source : Source) : Opened (Interface.inMemory source)
  | live (source : Source) (logFolder : String) : Opened (Interface.live source logFolder)
  | replay {disk : Disk} {source : Source} {logFolder : String} {i : Interface} :
      Interface.replay disk source logFolder = .ok i → Opened i

/-! ## Records in order -/

/-- The visible records are numbered in their order and are of the interface's source, and the
interface is ready as soon as there is one. -/
structure InOrder (i : Interface) : Prop where
  numbered : ∀ (n : Nat) (r : Record), i.records[n]? = some r → r.seq = n ∧ r.source = i.source
  ready : i.ready = true ↔ i.records ≠ []

theorem InOrder.push {i : Interface} (h : i.InOrder) {record : Record}
    (hsource : record.source = i.source) : (i.push record).InOrder := by
  constructor
  · intro n r hr
    have hplace : (i.records ++ [{ record with seq := i.records.length }])[n]? = some r := hr
    rcases Nat.lt_trichotomy n i.records.length with hlt | heq | hgt
    · rw [List.getElem?_append_left hlt] at hplace
      exact h.numbered n r hplace
    · -- This is the new record.
      subst heq
      rw [List.getElem?_concat_length] at hplace
      cases hplace
      exact ⟨rfl, hsource⟩
    · have hbeyond : (i.records ++ [{ record with seq := i.records.length }])[n]? = none := by
        rw [List.getElem?_eq_none_iff, List.length_append]
        exact hgt
      rw [hbeyond] at hplace
      cases hplace
  · simp [Interface.push]

theorem InOrder.pushAll {i : Interface} (h : i.InOrder) {records : List Record}
    (hsource : ∀ r ∈ records, r.source = i.source) : (i.pushAll records).InOrder := by
  induction records generalizing i with
  | nil => exact h
  | cons record rest ih =>
    have hfirst := h.push (hsource record List.mem_cons_self)
    exact ih hfirst fun r hr => hsource r (List.mem_cons_of_mem record hr)

theorem InOrder.takeStaged {i : Interface} (h : i.InOrder) {store : Store}
    (hsource : ∀ r ∈ store.staged, r.source = i.source) : (i.takeStaged store).InOrder := by
  have hplaced : ({ i with store := some store.drain.1 } : Interface).InOrder :=
    ⟨h.numbered, h.ready⟩
  exact hplaced.pushAll hsource

/-- Records are added at the end. -/
theorem prefix_pushAll (i : Interface) (records : List Record) :
    i.records <+: (i.pushAll records).records := by
  induction records generalizing i with
  | nil => exact List.prefix_rfl
  | cons record rest ih =>
    have hfirst : i.records <+: (i.push record).records := List.prefix_append _ _
    exact hfirst.trans (ih (i.push record))

theorem prefix_takeStaged (i : Interface) (store : Store) :
    i.records <+: (i.takeStaged store).records := by
  rw [records_takeStaged]
  exact prefix_pushAll i store.staged

/-- Whatever a call does and wherever it fails, the visible records stay and keep their places. -/
theorem Feed.prefix_step (f : Feed) (call : Call) :
    f.interface.records <+: (f.step call).interface.records := by
  cases call with
  | append record =>
    rw [Feed.step_append]
    split
    · exact List.prefix_append _ _
    · exact List.prefix_rfl
  | register testId assertion =>
    rw [Feed.step, register]
    split <;> exact List.prefix_rfl
  | wait disk engine budgetMs cancelled =>
    rw [Feed.step, wait]
    split
    · split
      · exact List.prefix_rfl
      · split <;> exact prefix_takeStaged _ _
    · exact List.prefix_rfl
  | settle disk =>
    rw [Feed.step, settle]
    split
    · exact prefix_takeStaged _ _
    · exact List.prefix_rfl
  | watch engine budgetMs glances =>
    rw [Feed.step, Interface.watch]
    split
    · split <;> exact prefix_takeStaged _ _
    · exact List.prefix_rfl
  | settleDuring look reading =>
    rw [Feed.step, Interface.settleDuring]
    split
    · exact prefix_takeStaged _ _
    · exact List.prefix_rfl
  | _ => exact List.prefix_rfl

/-- The interface stays one of its source, with its data from where it was. -/
theorem InOrder.kept {i j : Interface} (h : i.InOrder) (hrecords : j.records = i.records)
    (hsource : j.source = i.source) (hready : j.ready = i.ready) : j.InOrder := by
  refine ⟨fun n r hr => ?_, ?_⟩
  · rw [hrecords] at hr
    rw [hsource]
    exact h.numbered n r hr
  · rw [hready, hrecords]
    exact h.ready

/-! ## Without log files that somebody writes -/

theorem watch_of_mode {i : Interface} (h : i.mode ≠ .live) (engine : EngineSettings)
    (budgetMs : Nat) (glances : List Glance) :
    i.watch engine budgetMs glances = (i.waited, .ok .complete) := by
  unfold Interface.watch
  split
  · rename_i hlive _
    exact absurd hlive h
  · rfl

theorem settleDuring_of_mode {i : Interface} (h : i.mode ≠ .live) (look : Look)
    (reading : String → Disk) : i.settleDuring look reading = (i, .ok 0) := by
  unfold Interface.settleDuring
  split
  · rename_i hlive _
    exact absurd hlive h
  · rfl

/-- Nothing is read, and what is handed in is put at the end. -/
theorem Feed.step_of_mode {f : Feed} (hmode : f.interface.mode ≠ .live) (h : f.interface.InOrder)
    (call : Call) :
    (f.step call).interface.InOrder ∧ (f.step call).interface.mode = f.interface.mode ∧
      (f.step call).interface.source = f.interface.source := by
  cases call with
  | append record =>
    rw [Feed.step_append]
    split
    · rename_i hsource
      exact ⟨h.push hsource, rfl, rfl⟩
    · exact ⟨h, rfl, rfl⟩
  | register testId assertion =>
    rw [Feed.step, register]
    split
    · exact ⟨h, rfl, rfl⟩
    · exact ⟨h.kept rfl rfl rfl, rfl, rfl⟩
  | wait disk engine budgetMs cancelled =>
    rw [Feed.step, wait_of_mode hmode]
    exact ⟨h.kept rfl rfl rfl, rfl, rfl⟩
  | settle disk =>
    rw [Feed.step, settle_of_mode hmode]
    exact ⟨h, rfl, rfl⟩
  | watch engine budgetMs glances =>
    rw [Feed.step, watch_of_mode hmode]
    exact ⟨h.kept rfl rfl rfl, rfl, rfl⟩
  | settleDuring look reading =>
    rw [Feed.step, settleDuring_of_mode hmode]
    exact ⟨h, rfl, rfl⟩
  | _ => exact ⟨h.kept rfl rfl rfl, rfl, rfl⟩

theorem Feed.run_of_mode {f : Feed} (hmode : f.interface.mode ≠ .live) (h : f.interface.InOrder)
    (calls : List Call) :
    (f.run calls).interface.source = f.interface.source ∧ (f.run calls).interface.InOrder := by
  induction calls generalizing f with
  | nil => exact ⟨rfl, h⟩
  | cons call rest ih =>
    rcases f.step_of_mode hmode h call with ⟨horder, hkept, hsource⟩
    have hmode' : (f.step call).interface.mode ≠ .live := by
      rw [hkept]
      exact hmode
    rcases ih hmode' horder with ⟨hrest, hlast⟩
    exact ⟨hrest.trans hsource, hlast⟩

/-! ## With a store -/

section Looks

variable {i : Interface} {store : Store} (hmode : i.mode = .live) (hstore : i.store = some store)

include hmode hstore

theorem wait_cancelled (disk : Disk) (engine : EngineSettings) (budgetMs : Nat) :
    (i.wait disk engine budgetMs true).1 = { i with lastWait := some .interrupted } := by
  simp [wait, hmode, hstore]

/-- Also when a poll fails, the store is put back and what it staged is taken. -/
theorem wait_taken (disk : Disk) (engine : EngineSettings) (budgetMs : Nat) :
    ∃ lastWait, (i.wait disk engine budgetMs false).1 =
      { i.takeStaged (store.poll disk).1 with lastWait } := by
  rcases hpoll : store.poll disk with ⟨polled, _ | n⟩
  · exact ⟨(i.takeStaged polled).lastWait, by simp [wait, hmode, hstore, hpoll]⟩
  · exact ⟨some (ending engine budgetMs polled), by simp [wait, hmode, hstore, hpoll]⟩

theorem settle_taken (disk : Disk) :
    (i.settle disk).1 = i.takeStaged (store.pollThenFlush disk).1 := by
  simp [settle, hmode, hstore]

theorem watch_taken (engine : EngineSettings) (budgetMs : Nat) (glances : List Glance) :
    ∃ lastWait, (i.watch engine budgetMs glances).1 =
      { i.takeStaged (store.watch engine budgetMs 0 glances).1 with lastWait } := by
  rcases hwatch : store.watch engine budgetMs 0 glances with ⟨watched, _ | outcome⟩
  · exact ⟨(i.takeStaged watched).lastWait, by simp [Interface.watch, hmode, hstore, hwatch]⟩
  · exact ⟨some outcome, by simp [Interface.watch, hmode, hstore, hwatch]⟩

theorem settleDuring_taken (look : Look) (reading : String → Disk) :
    (i.settleDuring look reading).1 = i.takeStaged (store.settleDuring look reading).1 := by
  simp [Interface.settleDuring, hmode, hstore]

/-- Where the log files do not change, a wait looks at them once: further turns find nothing new,
and only let the time pass. -/
theorem wait_eq_watch {disk : Disk} (h : store.CaughtUp disk) (engine : EngineSettings)
    (budgetMs : Nat) {times : List Nat} (hwithin : ∀ t ∈ times, t ≤ budgetMs)
    (hlast : (0 :: times).getLast? = some budgetMs) :
    i.wait disk engine budgetMs false =
      i.watch engine budgetMs ((0 :: times).map (⟨false, Look.still disk store.folder, ·⟩)) := by
  have hwatch := Store.watch_still h engine budgetMs hwithin hlast
  simp only [wait, Interface.watch, hmode, hstore, hwatch, Bool.false_eq_true, if_false]
  rcases store.poll disk with ⟨polled, _ | n⟩ <;> rfl

theorem settle_eq_settleDuring (disk : Disk) :
    i.settle disk = i.settleDuring (Look.still disk store.folder) fun _ => disk := by
  simp only [settle, Interface.settleDuring, hmode, hstore, Store.settleDuring_still]

end Looks

/-- A live interface has its store back, with nothing staged. Its visible records that were not
handed in are, in order, all that a store has staged which reads the same and hands out nothing. -/
structure Feed.Shows (f : Feed) (source : Source) (ever : Store) : Prop where
  live : f.interface.mode = .live
  order : f.interface.InOrder
  back : f.interface.store = some ever.drain.1
  sameSource : f.interface.source = source
  own : ever.source = source
  grouped : ∃ groups, ever.Grouped [] groups
  appended : ∀ n ∈ f.appended, n < f.interface.records.length
  read : (f.interface.records.filter (·.seq ∉ f.appended)).map Record.unnumbered =
    ever.staged.map Record.unnumbered

/-- Records that are read come after those that were there, and are not handed in. -/
theorem read_pushAll {i : Interface} {appended : List Nat}
    (h : ∀ n ∈ appended, n < i.records.length) (records : List Record) :
    ((i.pushAll records).records.filter (·.seq ∉ appended)).map Record.unnumbered =
      (i.records.filter (·.seq ∉ appended)).map Record.unnumbered ++
        records.map Record.unnumbered := by
  induction records generalizing i with
  | nil => simp [pushAll]
  | cons record rest ih =>
    -- The number of the new record is beyond all that were handed in.
    have hnew : i.records.length ∉ appended := fun hmem => lt_irrefl _ (h _ hmem)
    have hfirst : ∀ n ∈ appended, n < (i.push record).records.length := by
      intro n hn
      have hlt := h n hn
      simp only [push, List.length_append]
      omega
    have hpushed : ((i.push record).records.filter (·.seq ∉ appended)).map Record.unnumbered =
        (i.records.filter (·.seq ∉ appended)).map Record.unnumbered ++ [record.unnumbered] := by
      simp [push, List.filter_append, hnew, Record.unnumbered]
    have hrest := ih hfirst
    rw [hpushed, List.append_assoc] at hrest
    exact hrest

namespace Feed.Shows

variable {f : Feed} {source : Source} {ever : Store} (h : f.Shows source ever)

include h

/-- What has no part in the visible records may change. -/
theorem kept {j : Interface} (hdata : f.interface.SameData j)
    (hsource : j.source = f.interface.source) (hready : j.ready = f.interface.ready) :
    (⟨j, f.appended⟩ : Feed).Shows source ever := by
  refine ⟨hdata.mode.trans h.live, h.order.kept hdata.records hsource hready,
    hdata.store.trans h.back, hsource.trans h.sameSource, h.own, h.grouped, ?_, ?_⟩
  · rw [hdata.records]
    exact h.appended
  · rw [hdata.records]
    exact h.read

/-- A record is handed in. -/
theorem append {record : Record} (hsource : record.source = f.interface.source) :
    (⟨f.interface.push record, f.appended ++ [f.interface.records.length]⟩ : Feed).Shows
      source ever := by
  refine ⟨h.live, h.order.push hsource, h.back, h.sameSource, h.own, h.grouped, ?_, ?_⟩
  · intro n hn
    simp only [push, List.length_append, List.length_singleton]
    rcases List.mem_append.1 hn with hold | hnew
    · have hlt := h.appended n hold
      omega
    · have hlast : n = f.interface.records.length := by simpa using hnew
      omega
  · -- The new number is only that of the new record.
    have hold : f.interface.records.filter
          (·.seq ∉ f.appended ++ [f.interface.records.length]) =
        f.interface.records.filter (·.seq ∉ f.appended) := by
      apply List.filter_congr
      intro r hr
      rcases List.mem_iff_getElem?.1 hr with ⟨n, hn⟩
      have hseq := (h.order.numbered n r hn).1
      have hlt : n < f.interface.records.length := (List.getElem?_eq_some_iff.1 hn).1
      have hother : r.seq ≠ f.interface.records.length := by omega
      simp [hother]
    rw [← h.read, ← hold]
    simp [push, List.filter_append]

/-- Whatever is read is shown, also when reading failed half-way: the store is put back, with
nothing staged. -/
theorem take {α : Type} {operation : Store → Store × α} (hreader : Store.Reader operation) :
    (⟨f.interface.takeStaged (operation ever.drain.1).1, f.appended⟩ : Feed).Shows source
      (operation ever).1 := by
  have hdrained := hreader.drained ever
  have hreads := hreader.reads ever
  have hsame : (operation ever).1.source = ever.source := hreads.grows.source
  rcases h.grouped with ⟨groups, hgroups⟩
  rcases hgroups.reads hreads with ⟨groups', hgroups'⟩
  generalize (operation ever.drain.1).1 = store at hdrained
  have hsources : ∀ r ∈ store.staged, r.source = f.interface.source := by
    intro r hr
    have hmem : r ∈ [] ++ (operation ever).1.staged := by
      rw [hdrained]
      exact List.mem_append_right ever.staged hr
    exact (hgroups'.sources r hmem).trans (hsame.trans (h.own.trans h.sameSource.symm))
  rcases takeStaged_frame f.interface store with ⟨hmode, hstore, -⟩
  refine ⟨hmode.trans h.live, h.order.takeStaged hsources, ?_, ?_, hsame.trans h.own,
    ⟨groups', hgroups'⟩, ?_, ?_⟩
  · rw [hstore, hdrained]
    rfl
  · rw [source_takeStaged]
    exact h.sameSource
  · intro n hn
    have hlength := (prefix_takeStaged f.interface store).length_le
    exact lt_of_lt_of_le (h.appended n hn) hlength
  · have hshown := read_pushAll h.appended store.staged
    rw [records_takeStaged, hshown, h.read, hdrained]
    exact List.map_append.symm

/-- One case for each call. -/
theorem step (call : Call) : (f.step call).Shows source (call.read ever) := by
  cases call with
  | append record =>
    rw [Feed.step_append]
    split
    · exact h.append ‹_›
    · exact h
  | register testId assertion =>
    rw [Feed.step, register]
    split
    · exact h
    · exact h.kept ⟨rfl, rfl, rfl⟩ rfl rfl
  | wait disk engine budgetMs cancelled =>
    cases cancelled with
    | true =>
      rw [Feed.step, wait_cancelled h.live h.back]
      exact h.kept ⟨rfl, rfl, rfl⟩ rfl rfl
    | false =>
      rcases wait_taken h.live h.back disk engine budgetMs with ⟨lastWait, hwait⟩
      have htake := h.take (Store.poll_reader disk)
      rw [Feed.step, hwait]
      exact htake.kept ⟨rfl, rfl, rfl⟩ rfl rfl
  | settle disk =>
    have htake := h.take (Store.pollThenFlush_reader disk)
    rw [Feed.step, settle_taken h.live h.back]
    exact htake
  | watch engine budgetMs glances =>
    rcases watch_taken h.live h.back engine budgetMs glances with ⟨lastWait, hwatch⟩
    have htake := h.take (Store.watch_reader engine budgetMs 0 glances)
    rw [Feed.step, hwatch]
    exact htake.kept ⟨rfl, rfl, rfl⟩ rfl rfl
  | settleDuring look reading =>
    have htake := h.take (Store.settleDuring_reader look reading)
    rw [Feed.step, settleDuring_taken h.live h.back]
    exact htake
  | _ => exact h.kept ⟨rfl, rfl, rfl⟩ rfl rfl

/-- All calls, one after the other. -/
theorem run (calls : List Call) :
    (f.run calls).Shows source (calls.foldl (fun s call => call.read s) ever) := by
  induction calls generalizing f ever with
  | nil => exact h
  | cons call rest ih => exact ih (h.step call)

end Feed.Shows

/-! ## All modes -/

theorem inOrder_fresh (source : Source) (mode : SessionMode) (store : Option Store) :
    (fresh source mode store).InOrder :=
  ⟨by simp [fresh], by simp [fresh]⟩

/-- The records of a replay are those that a load gives. -/
theorem inOrder_replay {disk : Disk} {source : Source} {logFolder : String} {i : Interface}
    (h : Interface.replay disk source logFolder = .ok i) : i.InOrder := by
  unfold Interface.replay at h
  have hreads := (Store.forLogFolder logFolder source).load_reads disk
  rcases hloaded : (Store.forLogFolder logFolder source).load disk with ⟨store, _ | n⟩ <;>
    rw [hloaded] at h hreads
  · cases h
  · cases h
    have hsame : store.source = source := hreads.grows.source
    have hfresh : (Store.forLogFolder logFolder source).Grouped [] [] :=
      Store.grouped_fresh source (Store.folderOf logFolder source)
    rcases hfresh.reads hreads with ⟨groups, hgroups⟩
    have hsources : ∀ r ∈ store.staged, r.source = source := by
      intro r hr
      exact (hgroups.sources r (by simpa using hr)).trans hsame
    exact (inOrder_fresh source .replay none).takeStaged hsources

/-- A live interface has read nothing when it is opened. -/
theorem shows_live (source : Source) (logFolder : String) :
    (Feed.start (Interface.live source logFolder)).Shows source
      (Store.forLogFolder logFolder source) :=
  { live := rfl
    order := inOrder_fresh source .live _
    back := rfl
    sameSource := rfl
    own := rfl
    grouped := ⟨[], Store.grouped_fresh source (Store.folderOf logFolder source)⟩
    appended := by simp [Feed.start]
    read := rfl }

/-- At every moment between calls, however the log files changed until then and whichever calls
failed: the visible records are numbered in their order and are of the interface's source, the
interface is ready once there is one, and whatever is called next only adds records at the end. A
live interface has its store back, with nothing staged. Its records that were not handed in are, in
order, all that the store ever read, each of them once. -/
theorem visible_records {i : Interface} (hopened : Opened i) (calls : List Call) :
    let f := (Feed.start i).run calls
    f.interface.source = i.source ∧ f.interface.InOrder ∧
      (∀ call, f.interface.records <+: (f.step call).interface.records) ∧
      (i.mode = .live → ∃ store, i.store = some store ∧
        let ever := calls.foldl (fun s call => call.read s) store
        f.interface.store = some { ever with staged := [] } ∧
          (f.interface.records.filter (·.seq ∉ f.appended)).map Record.unnumbered =
            ever.staged.map Record.unnumbered ∧
          ever.staged.map (·.seq) = List.range ever.recordCount) := by
  intro f
  have hprefix : ∀ call, f.interface.records <+: (f.step call).interface.records := f.prefix_step
  cases hopened with
  | inMemory source =>
    have hmode : (Interface.inMemory source).mode ≠ .live := by simp [Interface.inMemory, fresh]
    have hstart := inOrder_fresh source .inMemory none
    rcases Feed.run_of_mode (f := Feed.start _) hmode hstart calls with ⟨hsource, horder⟩
    exact ⟨hsource, horder, hprefix, fun hlive => absurd hlive hmode⟩
  | replay hreplay =>
    -- All log files were read when the interface was opened.
    have hmode : i.mode ≠ .live := by simp [(origin_of_replay hreplay).2]
    have hstart := inOrder_replay hreplay
    rcases Feed.run_of_mode (f := Feed.start i) hmode hstart calls with ⟨hsource, horder⟩
    exact ⟨hsource, horder, hprefix, fun hlive => absurd hlive hmode⟩
  | live source logFolder =>
    have hshows := (shows_live source logFolder).run calls
    rcases hshows.grouped with ⟨groups, hgroups⟩
    have hseqs := hgroups.seqs
    rw [List.nil_append] at hseqs
    exact ⟨hshows.sameSource, hshows.order, hprefix, fun _ =>
      ⟨_, rfl, hshows.back, hshows.read, hseqs⟩⟩

/-- The log file of a run that was cut off in its second line. -/
def cutOff : Disk :=
  Disk.empty.append "run/interfaces/library/a.log"
    (Utf8.ofString "\x7b\"path\":\"/\",\"request\":\x7b\x7d\x7d\nlost") 5

/-- A poll that meets another file, which is gone when it is measured. -/
def goneInPoll : Look :=
  { folder := .ok ["run/interfaces/library/a.log", "run/interfaces/library/b.log"]
    length := fun path => (cutOff.read path).map (·.bytes.length)
    reading := fun _ => cutOff }

/-- A record is handed in. Then a wait fails after it read one file, and settling fails since that
file was removed before its second line was settled. -/
def failing : List Call :=
  [.append (Record.made .library "/fed" .empty default),
    .watch {} 1000 [⟨false, goneInPoll, 0⟩],
    .settleDuring ⟨.ok [], fun _ => .error .notFound, fun _ => cutOff⟩ fun _ => Disk.empty]

/-- The live interface after the calls. -/
def failed : Feed := (Feed.start (Interface.live .library "run")).run failing

/-- Both calls fail, but the record that was read is shown, once. -/
theorem visible_records_failing :
    ((Interface.live .library "run").watch {} 1000 [⟨false, goneInPoll, 0⟩]).2.isOk = false ∧
      (((Feed.start (Interface.live .library "run")).run (failing.take 2)).interface.settleDuring
        ⟨.ok [], fun _ => .error .notFound, fun _ => cutOff⟩ fun _ => Disk.empty).2.isOk = false ∧
      failed.interface.records.map (·.path) = ["/fed", "/"] ∧ failed.interface.InOrder ∧
      ∃ store, (Interface.live .library "run").store = some store ∧
        (failed.interface.records.filter (·.seq ∉ failed.appended)).map Record.unnumbered =
          (failing.foldl (fun s call => call.read s) store).staged.map Record.unnumbered := by
  rcases visible_records (Opened.live .library "run") failing with ⟨-, horder, -, hlive⟩
  rcases hlive rfl with ⟨store, hstore, -, hread, -⟩
  exact ⟨by decide +kernel, by decide +kernel, by decide +kernel, horder, store, hstore, hread⟩

end Interface
end TraceAudit
