import TraceAudit.Proofs.Store.Interruption
import TraceAudit.Proofs.Store.Watching

/-!
# Reading what was read already

A store that has loaded a folder has nothing left to do there until a file changes, whatever the
files hold and however much of them was read before.

* `Store.InStep` is what a store keeps while files only grow: it has read no more of a file than the
  file holds;
* `Store.still_of_load`: after a load every file was read to its end, and what still waits would
  wait for ever;
* `Store.load_again` says so of any further polls, flushes and loads.
-/

namespace TraceAudit.Store

/-- Polls, flushes, loads and drains, while the files of a folder are created and written at their
ends. -/
def Appending (folder : String) : Disk → List Event → Prop
  | _, [] => True
  | disk, .change next :: rest => disk.GrowsIn folder next ∧ Appending folder next rest
  | _, .ingest _ :: _ => False
  | disk, .poll :: rest => Appending folder disk rest
  | disk, .flush :: rest => Appending folder disk rest
  | disk, .load :: rest => Appending folder disk rest
  | disk, .drain :: rest => Appending folder disk rest

/-- The event reads the folder as a whole. -/
def Event.rereads : Event → Bool
  | .poll | .flush | .load => true
  | .change _ | .ingest _ | .drain => false

/-! ## A store that keeps up with its files -/

/-- The store knows files of the folder only, and has read no more of them than they hold. -/
structure InStep (s : Store) (source : Source) (folder : String) (disk : Disk) : Prop extends
    s.Watches source folder disk where
  within : ∀ path ∈ disk.filesIn folder,
    ((Cursors.find? path s.files).getD Cursor.start).offset ≤ (disk.content path).length

section InStep

variable {s : Store} {source : Source} {folder path q : String} {disk : Disk} {n : Nat}

theorem inStep_fresh (source : Source) (folder : String) (disk : Disk) :
    (fresh source folder).InStep source folder disk where
  toWatches := watches_fresh source folder disk
  within := fun _ _ => Nat.zero_le _

theorem InStep.caughtUp (h : s.InStep source folder disk) : s.CaughtUp disk := by
  intro path hpath
  exact h.within path (h.sameFolder ▸ hpath)

theorem InStep.drain (h : s.InStep source folder disk) : s.drain.1.InStep source folder disk where
  toWatches := h.toWatches.drain
  within := h.within

/-- Files that grow hold what was read of them, and new ones are not known yet. -/
theorem InStep.change {next : Disk} (h : s.InStep source folder disk)
    (hgrows : disk.GrowsIn folder next) : s.InStep source folder next where
  toWatches := h.toWatches.change hgrows
  within := by
    intro path hpath
    cases hfind : Cursors.find? path s.files with
    | none => exact Nat.zero_le _
    | some c =>
      have hmem := ((h.toWatches.change hgrows).find?_eq_some hpath).1 hfind
      have hbefore : path ∈ disk.filesIn folder := h.listed _ hmem
      have hwithin := h.within path hbefore
      rw [hfind] at hwithin
      exact hwithin.trans (hgrows path hbefore).2.length_le

/-- No look gets beyond the end of a file. -/
theorem InStep.readFile (h : s.InStep source folder disk) (hq : q ∈ disk.filesIn folder)
    (final : Bool) : (s.readFile disk q final).1.InStep source folder disk where
  toWatches := h.toWatches.readFile hq final
  within := by
    intro path hpath
    by_cases hkey : Path.orderKey q = Path.orderKey path
    · have hsame : q = path := Disk.eq_of_orderKey_eq hq hpath hkey
      subst hsame
      rcases Disk.read_of_mem_filesIn hq with ⟨file, hread⟩
      have hwithin := h.within q hq
      rw [Disk.content_of_read hread] at hwithin ⊢
      rcases cursor_readFile hread hwithin final with ⟨c, hc, hoffset, -⟩
      simpa [hc] using hoffset
    · have hsame := find?_readFile_other s disk hkey final
      simpa [hsame] using h.within path hpath

theorem InStep.poll (h : s.InStep source folder disk) :
    (s.poll disk).1.InStep source folder disk :=
  poll_invariant (P := fun t => t.InStep source folder disk)
    (fun _ _ ht hq => ht.readFile (h.sameFolder ▸ hq) false) h

theorem InStep.flush (h : s.InStep source folder disk) :
    (s.flush disk).1.InStep source folder disk :=
  flush_invariant (P := fun t => t.InStep source folder disk)
    (fun _ q ht hq => ht.readFile (h.deferredFiles_listed q hq) true) h

theorem InStep.load (h : s.InStep source folder disk) :
    (s.load disk).1.InStep source folder disk :=
  load_invariant (P := fun s => s.InStep source folder disk) (fun _ hs => hs.poll)
    (fun _ hs => hs.flush) h

theorem History.InStep.run {h : History} {events : List Event}
    (hstep : h.store.InStep source folder h.disk) (happending : Appending folder h.disk events) :
    (h.run events).store.InStep source folder (h.run events).disk := by
  induction events generalizing h with
  | nil => exact hstep
  | cons event rest ih =>
    cases event with
    | change next =>
      rcases happending with ⟨hgrows, hrest⟩
      exact ih (h := h.step (.change next)) (hstep.change hgrows) hrest
    | poll => exact ih (h := h.step .poll) hstep.poll happending
    | ingest path => cases happending
    | flush => exact ih (h := h.step .flush) hstep.flush happending
    | load => exact ih (h := h.step .load) hstep.load happending
    | drain => exact ih (h := h.step .drain) hstep.drain happending

/-! ## After a load -/

/-- A file that was read to its end stays so, whatever is looked at again. -/
theorem InStep.hasSeen_readFile (h : s.InStep source folder disk) (hq : q ∈ disk.filesIn folder)
    (hpath : path ∈ disk.filesIn folder) (hseen : s.HasSeen disk path) (final : Bool) :
    (s.readFile disk q final).1.HasSeen disk path := by
  by_cases hkey : Path.orderKey q = Path.orderKey path
  · have hsame : q = path := Disk.eq_of_orderKey_eq hq hpath hkey
    subst hsame
    rcases Disk.read_of_mem_filesIn hq with ⟨file, hread⟩
    have hcontent := Disk.content_of_read hread
    have hwithin := h.within q hq
    rw [hcontent] at hwithin
    rcases cursor_readFile hread hwithin final with ⟨c, hc, -, hlength⟩
    simpa [HasSeen, hcontent, hc] using hlength
  · have hsame := find?_readFile_other s disk hkey final
    simpa [HasSeen, hsame] using hseen

theorem InStep.hasSeen_flush (h : s.InStep source folder disk)
    (hseen : ∀ path ∈ disk.filesIn folder, s.HasSeen disk path) :
    ∀ path ∈ disk.filesIn folder, (s.flush disk).1.HasSeen disk path := by
  have hboth : (s.flush disk).1.InStep source folder disk ∧
      ∀ path ∈ disk.filesIn folder, (s.flush disk).1.HasSeen disk path := by
    apply flush_invariant (P := fun t => t.InStep source folder disk ∧
      ∀ path ∈ disk.filesIn folder, t.HasSeen disk path) _ ⟨h, hseen⟩
    rintro t q ⟨hstep, hall⟩ hq
    have hlisted := h.deferredFiles_listed q hq
    refine ⟨hstep.readFile hlisted true, ?_⟩
    intro path hpath
    exact hstep.hasSeen_readFile hlisted hpath (hall path hpath) true
  exact hboth.2

/-- After a flush every file is quiet: it was settled, or nothing of it waits. -/
theorem InStep.quiet_flush (h : s.InStep source folder disk) (hflush : (s.flush disk).2 = .ok n) :
    ∀ path ∈ disk.filesIn folder, (s.flush disk).1.Quiet disk path := by
  have hsettled : Flushed disk s.deferredFiles s (s.flush disk).1 :=
    flushed_eachFile h.ordered (fun p hp => ((mem_deferredFiles h.ordered).1 hp).1)
      (deferredFiles_ordered h.ordered) (Prod.ext rfl hflush)
  intro path hpath
  by_cases hwaits : path ∈ s.deferredFiles
  · exact hsettled.quiet path hwaits
  · have hidle : s.waits path = false := by
      have hcursor := h.toWatches.mem_deferredFiles hpath
      cases hdeferred : s.waits path with
      | false => rfl
      | true => exact absurd (hcursor.2 hdeferred) hwaits
    rcases Disk.read_of_mem_filesIn hpath with ⟨file, hread⟩
    apply (quiet_of_not_waits hread hidle).of_find?
    apply hsettled.others
    intro p hp hkey
    exact hwaits (Disk.eq_of_orderKey_eq (h.deferredFiles_listed p hp) hpath hkey ▸ hp)

/-- There is nothing left to do after a load. -/
theorem still_of_load (h : s.InStep source folder disk) (hload : (s.load disk).2 = .ok n) :
    (s.load disk).1.poll disk = ((s.load disk).1, .ok 0) ∧
      (s.load disk).1.flush disk = ((s.load disk).1, .ok 0) := by
  have hloaded := h.load
  rcases poll_of_load hload with ⟨m, hpoll⟩
  by_cases hhas : disk.has folder = true
  · -- The poll has seen all files, and the flush has settled them.
    have hhas' : disk.has s.folder = true := by rw [h.sameFolder, hhas]
    have hparts := (load_eq hhas' hpoll).1
    rcases flush_of_load hhas' hload with ⟨k, hflush⟩
    have hseen : ∀ path ∈ disk.filesIn folder, (s.poll disk).1.HasSeen disk path := by
      intro path hpath
      exact hasSeen_poll h.caughtUp (h.sameFolder ▸ hpath)
    have hseen' := h.poll.hasSeen_flush hseen
    have hquiet := h.poll.quiet_flush hflush
    have hlisted := listed_of_poll hpoll hhas'
    rw [← hparts] at hseen' hquiet
    rw [h.sameFolder] at hlisted
    constructor
    · apply poll_seen
      · intro _
        rw [hloaded.sameFolder]
        exact hlisted
      · intro path hpath
        exact hseen' path (hloaded.sameFolder ▸ hpath)
    · apply flush_quiet hloaded.ordered
      intro path hpath
      exact hquiet path (hloaded.deferredFiles_listed path hpath)
  · -- Without a folder there are no files.
    have hnone : disk.filesIn folder = [] :=
      List.eq_nil_iff_forall_not_mem.2 fun path hpath => hhas (Disk.has_of_mem_filesIn hpath)
    constructor
    · simp [poll, hloaded.sameFolder, hhas]
    · apply flush_quiet hloaded.ordered
      intro path hpath
      have hlisted := hloaded.deferredFiles_listed path hpath
      rw [hnone] at hlisted
      cases hlisted

end InStep

/-! ## Again and again -/

/-- A moment at which there is nothing to do. -/
def History.Still (h : History) : Prop :=
  h.store.poll h.disk = (h.store, .ok 0) ∧ h.store.flush h.disk = (h.store, .ok 0)

theorem History.Still.step {h : History} (hstill : h.Still) {event : Event}
    (hevent : event.rereads = true) : h.step event = h ∧ h.returned event = some (.ok 0) := by
  rcases hstill with ⟨hpoll, hflush⟩
  cases event with
  | change disk => cases hevent
  | poll => simp [History.step, returned, hpoll]
  | ingest path => cases hevent
  | flush => simp [History.step, returned, hflush]
  | load =>
    have hload : h.store.load h.disk = (h.store, .ok 0) := by
      rw [load]
      split_ifs
      · simp [pollThenFlush, hpoll, hflush]
      · rfl
    simp [History.step, returned, hload]
  | drain => cases hevent

theorem History.Still.run {h : History} (hstill : h.Still) {again : List Event}
    (hagain : ∀ event ∈ again, event.rereads = true) : h.run again = h := by
  induction again with
  | nil => rfl
  | cons event rest ih =>
    have hstep := (hstill.step (hagain event List.mem_cons_self)).1
    have hrest := ih fun later hlater => hagain later (List.mem_cons_of_mem event hlater)
    calc
      h.run (event :: rest) = (h.step event).run rest := rfl
      _ = h := by rw [hstep, hrest]

/-- A load that succeeds, after files have grown while they were polled, flushed and loaded and
while records were handed out, is the last one with anything to do: as long as no file changes, all
further polls, flushes and loads give nothing, and leave the store as it is. -/
theorem load_again (source : Source) (folder : String) (disk : Disk) (events : List Event)
    (happending : Appending folder disk events) {n : Nat}
    (hload : ((History.start disk source folder).run events).returned .load = some (.ok n))
    (again : List Event) (hagain : ∀ event ∈ again, event.rereads = true) :
    let loaded := ((History.start disk source folder).run events).step .load
    loaded.run again = loaded ∧
      ∀ before event after, again = before ++ event :: after →
        (loaded.run before).returned event = some (.ok 0) := by
  intro loaded
  have hstep : ((History.start disk source folder).run events).store.InStep source folder
      ((History.start disk source folder).run events).disk :=
    History.InStep.run (h := History.start disk source folder) (inStep_fresh source folder disk)
      happending
  have hstill : loaded.Still := still_of_load hstep (Option.some.inj hload)
  refine ⟨hstill.run hagain, ?_⟩
  intro before event after hsplit
  have hbefore : ∀ e ∈ before, e.rereads = true := fun e he =>
    hagain e (hsplit ▸ List.mem_append_left _ he)
  have hevent : event.rereads = true := hagain event (by simp [hsplit])
  rw [hstill.run hbefore]
  exact (hstill.step hevent).2

/-- A file with a blank line. -/
def blankLine : Disk := Disk.empty.append "logs/a.log" (Utf8.ofString " \n") 5

/-- The same file with the first line of a document. -/
def opened : Disk := blankLine.append "logs/a.log" (Utf8.ofString "\x7b\n") 6

/-- The same file with a request on a line of its own, and a line that is cut off. -/
def cutOff : Disk :=
  opened.append "logs/a.log"
    (Utf8.ofString "\x7b\"path\":\"/a\",\"request\":\x7b\x7d\x7d\n\x7b\"pa") 7

/-- The file is blank at first, then it looks like a document, and at last it is read as lines. -/
theorem load_again_cutOff :
    let events := [.poll, .flush, .change opened, .poll, .drain, .change cutOff]
    let loaded := ((History.start blankLine .agent "logs").run events).step .load
    let again := [.poll, .load, .flush, .flush, .poll]
    ((History.start blankLine .agent "logs").run events).returned .load = some (.ok 1) ∧
      loaded.store.errors.map (·.line) = [some 2, some 4] ∧ loaded.run again = loaded ∧
      (loaded.run [.poll]).returned .load = some (.ok 0) := by
  intro events loaded again
  have happending : Appending "logs" blankLine events := ⟨by decide +kernel, by decide +kernel, trivial⟩
  have hload : ((History.start blankLine .agent "logs").run events).returned .load =
      some (.ok 1) := by decide +kernel
  have hagain : ∀ event ∈ again, event.rereads = true := by simp [again, Event.rereads]
  rcases load_again .agent "logs" blankLine events happending hload again hagain with
    ⟨hsame, hzero⟩
  exact ⟨hload, by decide +kernel, hsame, hzero [.poll] .load [.flush, .flush, .poll] rfl⟩

end TraceAudit.Store
