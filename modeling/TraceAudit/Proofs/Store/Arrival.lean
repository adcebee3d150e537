import TraceAudit.Proofs.Store.Finished
import TraceAudit.Proofs.Store.History

/-!
# The order of a load

A load looks at all files of a folder in the order of their names, and once more at those where
something was left behind.

* `Store.arrivals` is what a load gives, with the file and the line of every record: first the files
  that are read as they look, then those that are read again as lines, `Scan.isReread`;
* `Store.load_arrivals` says that it gives just that, and when this is the order of the names.
-/

namespace TraceAudit

open Scan

/-! ## Names -/

namespace Disk

/-- The names of the files in a folder, in order; none when it cannot be listed. -/
def logNames (d : Disk) (folder : String) : List String :=
  ((d.fileNames folder).toOption.getD []).filter fun name => d.isFile (Path.join folder name)

theorem filesIn_eq_map (d : Disk) (folder : String) :
    d.filesIn folder = (d.logNames folder).map (Path.join folder) := by
  cases hnames : d.fileNames folder with
  | error fault => simp [filesIn, filePaths, logNames, hnames, bind, Except.bind, Except.toOption]
  | ok names =>
    rw [filesIn_of_filePaths (filePaths_of_fileNames hnames), logNames, hnames, List.filter_map]
    rfl

theorem logNames_ordered (d : Disk) (folder : String) : (d.logNames folder).Pairwise (· < ·) := by
  cases hnames : d.fileNames folder with
  | error fault => simp [logNames, hnames, Except.toOption]
  | ok names =>
    have hsorted := (fileNames_ordered hnames).1
    rw [logNames, hnames]
    exact hsorted.filter _

end Disk

namespace Store

/-! ## The poll of a load -/

/-- The time of a file. -/
def fileTime (disk : Disk) (path : String) : Timestamp :=
  match disk.read path with
  | .ok file => file.time
  | .error _ => Timestamp.ofEpoch 0

/-- What entries of a file give, with the file. -/
def given (source : Source) (disk : Disk) (path : String) (entries : List Entry) :
    List (Option OsPath × Record) :=
  (entries.flatMap fun e => captured source (e, fileTime disk path)).map (some (.text path), ·)

theorem fileTime_of_read {disk : Disk} {path : String} {file : File}
    (h : disk.read path = .ok file) : fileTime disk path = file.time := by
  rw [fileTime, h]

/-- One look adds what its entries give. -/
theorem readFile_staged {s : Store} {disk : Disk} {path : String} {file : File} {c next : Cursor}
    {entries : List Entry} {final : Bool} (hread : disk.read path = .ok file)
    (hcursor : (Cursors.find? path s.files).getD Cursor.start = c)
    (hscan : c.scan (file.bytes.drop c.offset) final = (next, entries)) :
    (s.readFile disk path final).1.source = s.source ∧
      (s.readFile disk path final).1.files = Cursors.set path next s.files ∧
      (s.readFile disk path final).1.staged.map located =
        s.staged.map located ++ given s.source disk path entries := by
  have hsource := (takeAll_frame s path (file.time) entries).1
  have hstaged := takeAll_staged s path (file.time) entries
  rw [readFile_eq hread hcursor hscan, given, fileTime_of_read hread]
  exact ⟨hsource, rfl, hstaged⟩

/-- A store that has looked once at each of some files. -/
structure Looked (s : Store) (source : Source) (disk : Disk) (paths : List String) : Prop where
  sameSource : s.source = source
  files : s.files = paths.map fun path => (path, (Cursor.firstLook (disk.content path)).1)
  staged : s.staged.map located =
    paths.flatMap fun path => given source disk path (Cursor.firstLook (disk.content path)).2

theorem Looked.ingestGrown {s : Store} {source : Source} {disk : Disk} {paths : List String}
    {path : String} (h : s.Looked source disk paths)
    (hlast : ∀ p ∈ paths, Path.orderKey p < Path.orderKey path) {file : File}
    (hread : disk.read path = .ok file) :
    (Store.ingestGrown disk s path).1.Looked source disk (paths ++ [path]) := by
  -- Files come in order, so there is no cursor for this one, and its cursor comes last.
  have hfiles : ∀ entry ∈ s.files, Path.orderKey entry.1 < Path.orderKey path := by
    intro entry hentry
    rw [h.files] at hentry
    rcases List.mem_map.1 hentry with ⟨p, hp, rfl⟩
    exact hlast p hp
  have hnone := Cursors.find?_of_last hfiles
  rcases hlook : Cursor.firstLook (disk.content path) with ⟨next, found⟩
  have hscan : Cursor.start.scan (file.bytes.drop Cursor.start.offset) false = (next, found) := by
    rw [← hlook, Disk.content_of_read hread]
    rfl
  rcases readFile_staged (s := s) hread (by rw [hnone]; rfl) hscan with
    ⟨hsource, hset, hstaged⟩
  rw [ingestGrown_of_read hread, hnone, Option.any_none, if_neg Bool.false_ne_true]
  refine ⟨hsource.trans h.sameSource, ?_, ?_⟩
  · rw [hset, Cursors.set_of_last hfiles, h.files, List.map_append, List.map_singleton, hlook]
  · rw [hstaged, h.staged, h.sameSource, List.flatMap_append, List.flatMap_singleton, hlook]

theorem looked_poll (source : Source) (folder : String) (disk : Disk) :
    (disk.filesIn folder ≠ [] → ∃ n, ((fresh source folder).poll disk).2 = .ok n) ∧
      ((fresh source folder).poll disk).1.Looked source disk (disk.filesIn folder) := by
  rcases poll_eq (fresh source folder) disk with ⟨hstore, hresult⟩
  rw [hstore]
  have hall := eachFile_induct (Store.ingestGrown disk) (disk.filesIn folder)
    (motive := fun rest s => ∃ done, done ++ rest = disk.filesIn folder ∧
      s.Looked source disk done) ?_
    (s := fresh source folder) ⟨[], rfl, ⟨rfl, rfl, rfl⟩⟩
  · rcases hall with ⟨hok, done, hdone, hlooked⟩
    rw [List.append_nil] at hdone
    rw [hdone] at hlooked
    exact ⟨fun hne => hresult hne ▸ hok, hlooked⟩
  · -- The next file comes after all that were looked at.
    rintro s path rest ⟨done, hdone, hlooked⟩
    have hpath : path ∈ disk.filesIn folder := by
      rw [← hdone]
      simp
    rcases Disk.read_of_mem_filesIn hpath with ⟨file, hread⟩
    have hordered := Disk.filesIn_ordered disk folder
    rw [← hdone, List.pairwise_append] at hordered
    have hlast : ∀ p ∈ done, Path.orderKey p < Path.orderKey path := fun p hp =>
      hordered.2.2 p hp path List.mem_cons_self
    refine ⟨ingestGrown_ok hread s, done ++ [path], ?_, hlooked.ingestGrown hlast hread⟩
    rw [← hdone, List.append_assoc]
    rfl

/-! ## The flush of a load -/

/-- A store that has looked once at each of some files, and again at some of those that wait. -/
structure Settles (s : Store) (source : Source) (disk : Disk)
    (first : List (Option OsPath × Record)) (done rest : List String) : Prop where
  sameSource : s.source = source
  staged : s.staged.map located =
    first ++ done.flatMap fun path =>
      given source disk path (Cursor.secondLook (disk.content path))
  waits : ∀ path ∈ rest,
    Cursors.find? path s.files = some (Cursor.firstLook (disk.content path)).1 ∧
      (Cursor.firstLook (disk.content path)).1.deferred = true

theorem Settles.readFile {s : Store} {source : Source} {disk : Disk}
    {first : List (Option OsPath × Record)} {done rest : List String} {path : String}
    (h : s.Settles source disk first done (path :: rest))
    (hfirst : ∀ p ∈ rest, Path.orderKey path ≠ Path.orderKey p) {file : File}
    (hread : disk.read path = .ok file) :
    (s.readFile disk path true).1.Settles source disk first (done ++ [path]) rest := by
  rcases h.waits path List.mem_cons_self with ⟨hfind, hdeferred⟩
  rcases hlook : (Cursor.firstLook (disk.content path)).1.scan
    (file.bytes.drop (Cursor.firstLook (disk.content path)).1.offset) true with ⟨next, found⟩
  have hsecond : Cursor.secondLook (disk.content path) = found := by
    rw [Cursor.secondLook]
    simp only [hdeferred, if_true]
    rw [Disk.content_of_read hread] at hlook ⊢
    rw [hlook]
  rcases readFile_staged (s := s) hread (by rw [hfind]; rfl) hlook with ⟨hsource, hset, hstaged⟩
  refine ⟨hsource.trans h.sameSource, ?_, fun p hp => ?_⟩
  · rw [hstaged, h.staged, h.sameSource, List.flatMap_append, List.flatMap_singleton, hsecond,
      List.append_assoc]
  · rw [hset, Cursors.find?_set, if_neg (hfirst p hp)]
    exact h.waits p (List.mem_cons_of_mem path hp)

/-- The files among some that the first look leaves something of. -/
def waitingAmong (disk : Disk) (paths : List String) : List String :=
  paths.filter fun path => (Cursor.firstLook (disk.content path)).1.deferred

theorem Looked.deferredFiles {s : Store} {source : Source} {disk : Disk} {paths : List String}
    (h : s.Looked source disk paths) : s.deferredFiles = waitingAmong disk paths := by
  rw [Store.deferredFiles, h.files, List.filter_map, List.map_map, waitingAmong]
  exact List.map_id _

/-- All files that wait can be settled. -/
theorem Looked.settles {s : Store} {source : Source} {disk : Disk} {paths : List String}
    (h : s.Looked source disk paths)
    (hordered : paths.Pairwise fun a b => Path.orderKey a < Path.orderKey b) :
    s.Settles source disk (s.staged.map located) [] (waitingAmong disk paths) := by
  have hfiles : Cursors.Ordered s.files := by
    rw [h.files, Cursors.Ordered, List.pairwise_map]
    exact hordered
  refine ⟨h.sameSource, by simp, fun path hpath => ?_⟩
  rcases List.mem_filter.1 hpath with ⟨hlisted, hdeferred⟩
  refine ⟨Cursors.find?_of_mem hfiles ?_, hdeferred⟩
  rw [h.files]
  exact List.mem_map.2 ⟨path, hlisted, rfl⟩

theorem load_staged (source : Source) (folder : String) (disk : Disk) :
    (∃ n, (((fresh source folder).poll disk).1.flush disk).2 = .ok n) ∧
      (((fresh source folder).poll disk).1.flush disk).1.staged.map located =
        ((disk.filesIn folder).flatMap fun path =>
          given source disk path (Cursor.firstLook (disk.content path)).2) ++
        (waitingAmong disk (disk.filesIn folder)).flatMap fun path =>
          given source disk path (Cursor.secondLook (disk.content path)) := by
  have hlooked := (looked_poll source folder disk).2
  have hstart := hlooked.staged
  have hlisted := Disk.filesIn_ordered disk folder
  have hordered : (waitingAmong disk (disk.filesIn folder)).Pairwise fun a b =>
      Path.orderKey a < Path.orderKey b := hlisted.filter _
  have hsettles := hlooked.settles hlisted
  rw [flush, hlooked.deferredFiles]
  -- The files that wait are settled in the order of their names.
  have hall := eachFile_induct (fun s path => s.readFile disk path true)
    (waitingAmong disk (disk.filesIn folder))
    (motive := fun rest s => rest.Pairwise (fun a b => Path.orderKey a < Path.orderKey b) ∧
      ∃ done, done ++ rest = waitingAmong disk (disk.filesIn folder) ∧
        s.Settles source disk (((fresh source folder).poll disk).1.staged.map located) done rest) ?_
    (s := ((fresh source folder).poll disk).1) ⟨hordered, [], rfl, hsettles⟩
  · rcases hall with ⟨hok, -, done, hdone, hlast⟩
    rw [List.append_nil] at hdone
    rw [hlast.staged, hdone, hstart]
    exact ⟨hok, rfl⟩
  · rintro s path rest ⟨hrest, done, hdone, hsettles⟩
    have hpath : path ∈ waitingAmong disk (disk.filesIn folder) := by
      rw [← hdone]
      simp
    rcases Disk.read_of_mem_filesIn (List.mem_of_mem_filter hpath) with ⟨file, hread⟩
    rcases List.pairwise_cons.1 hrest with ⟨hfirst, hrest⟩
    have hne : ∀ p ∈ rest, Path.orderKey path ≠ Path.orderKey p := fun p hp =>
      ne_of_lt (hfirst p hp)
    refine ⟨⟨_, by rw [readFile_eq hread rfl rfl]⟩, hrest, done ++ [path], ?_,
      hsettles.readFile hne hread⟩
    rw [← hdone, List.append_assoc]
    rfl

/-! ## The order of records -/

/-- A record with the name of its file and the number of its line. -/
structure Placed where
  name : String
  place : Nat
  record : Record

/-- The order of the names of the files, and of the lines in a file. -/
def Placed.InOrder (a b : Placed) : Prop :=
  a.name < b.name ∨ (a.name = b.name ∧ a.place ≤ b.place)

instance (a b : Placed) : Decidable (Placed.InOrder a b) :=
  inferInstanceAs (Decidable (_ ∨ _))

/-- The records of a file in a folder, in the order of its entries. -/
def placedIn (source : Source) (disk : Disk) (folder name : String) : List Placed :=
  let path := Path.join folder name
  (fileEntries (disk.content path)).flatMap fun e =>
    (captured source (e, fileTime disk path)).map fun record => ⟨name, e.place, record⟩

/-- The file in a folder is read again as lines. -/
def isLate (disk : Disk) (folder name : String) : Bool :=
  isReread (disk.content (Path.join folder name))

/-- What a load gives, in its order. -/
def arrivals (source : Source) (disk : Disk) (folder : String) : List Placed :=
  let names := disk.logNames folder
  (names.filter (!isLate disk folder ·) ++ names.filter (isLate disk folder ·)).flatMap
    (placedIn source disk folder)

/-- The file and the record of a placed one. -/
def Placed.located (folder : String) (p : Placed) : Option OsPath × Record :=
  (some (.text (Path.join folder p.name)), p.record)

theorem placedIn_located (source : Source) (disk : Disk) (folder name : String) :
    (placedIn source disk folder name).map (Placed.located folder) =
      given source disk (Path.join folder name)
        (fileEntries (disk.content (Path.join folder name))) := by
  simp [placedIn, given, List.map_flatMap, Function.comp_def, Placed.located]

theorem given_append (source : Source) (disk : Disk) (path : String) (a b : List Entry) :
    given source disk path (a ++ b) = given source disk path a ++ given source disk path b := by
  simp [given]

theorem given_of_isBroken {entries : List Entry} (h : ∀ e ∈ entries, e.isBroken = true)
    (source : Source) (disk : Disk) (path : String) : given source disk path entries = [] := by
  have hnone : entries.flatMap (fun e => captured source (e, fileTime disk path)) = [] := by
    apply List.flatMap_eq_nil_iff.2
    intro e he
    have hbroken := h e he
    cases e with
    | value line json => cases hbroken
    | broken line fault => rfl
  rw [given, hnone]
  rfl

theorem given_looks (source : Source) (disk : Disk) (path : String) :
    given source disk path (Cursor.firstLook (disk.content path)).2 =
        (if isReread (disk.content path) then []
        else given source disk path (fileEntries (disk.content path))) ∧
      (if (Cursor.firstLook (disk.content path)).1.deferred then
          given source disk path (Cursor.secondLook (disk.content path)) else []) =
        (if isReread (disk.content path) then
          given source disk path (fileEntries (disk.content path)) else []) := by
  have hlooks := Cursor.looks (disk.content path)
  cases hreread : isReread (disk.content path) with
  | true =>
    -- The first look gives nothing, and the second one everything.
    rcases hlooks.reread hreread with ⟨hdeferred, hfirst⟩
    have hwhole := hlooks.whole
    rw [hfirst, List.nil_append] at hwhole
    rw [hfirst, hdeferred, hwhole]
    exact ⟨rfl, rfl⟩
  | false =>
    -- The second look gives no more than errors.
    have hsettled := given_of_isBroken (hlooks.settled hreread) source disk path
    have hwhole := congrArg (given source disk path) hlooks.whole
    rw [given_append, hsettled, List.append_nil] at hwhole
    rw [hwhole, hsettled]
    exact ⟨rfl, ite_self []⟩

theorem flatMap_filter {α β : Type} (xs : List α) (keep : α → Bool) (f : α → List β) :
    (xs.filter keep).flatMap f = xs.flatMap fun x => if keep x then f x else [] := by
  induction xs with
  | nil => rfl
  | cons x rest ih =>
    rw [List.flatMap_cons, ← ih, List.filter_cons]
    split <;> simp

/-- A load of a folder is a poll and a flush, also when there is nothing to read. -/
theorem load_fresh (source : Source) (folder : String) (disk : Disk) :
    ((fresh source folder).load disk).1 = (((fresh source folder).poll disk).1.flush disk).1 := by
  cases hhas : disk.has folder with
  | false =>
    have hpoll : (fresh source folder).poll disk = (fresh source folder, .ok 0) := by
      simp [poll, fresh, hhas]
    have hload : (fresh source folder).load disk = (fresh source folder, .ok 0) := by
      simp [load, fresh, hhas]
    rw [hpoll, hload]
    rfl
  | true =>
    cases hpoll : ((fresh source folder).poll disk).2 with
    | ok n => exact (load_eq (s := fresh source folder) hhas hpoll).1
    | error fault =>
      -- A poll fails only when there is no file to read.
      have hnone : disk.filesIn folder = [] := by
        by_contra hne
        rcases (looked_poll source folder disk).1 hne with ⟨n, hn⟩
        rw [hpoll] at hn
        cases hn
      have hsame := (poll_eq (fresh source folder) disk).1
      rw [show (fresh source folder).folder = folder from rfl, hnone] at hsame
      rcases hpolled : (fresh source folder).poll disk with ⟨next, result⟩
      rw [hpolled] at hpoll hsame
      cases hpoll
      have hnext : next = fresh source folder := hsame
      have hthere : disk.has (fresh source folder).folder = true := hhas
      have hload : (fresh source folder).load disk = (next, .error fault) := by
        rw [load, if_pos hthere, pollThenFlush, hpolled]
      rw [hload, hnext]
      rfl

/-- A load of a folder with files in it succeeds. -/
theorem load_ok {folder path : String} {disk : Disk} (h : path ∈ disk.filesIn folder)
    (source : Source) : ∃ n, ((fresh source folder).load disk).2 = .ok n := by
  have hthere : disk.has (fresh source folder).folder = true := Disk.has_of_mem_filesIn h
  rcases (looked_poll source folder disk).1 (List.ne_nil_of_mem h) with ⟨n, hpoll⟩
  exact (load_eq hthere hpoll).2 (load_staged source folder disk).1

/-- What a load hands out are its arrivals. -/
theorem load_located (source : Source) (folder : String) (disk : Disk) :
    ((fresh source folder).load disk).1.drain.2.map located =
      (arrivals source disk folder).map (Placed.located folder) := by
  have hfirst : (disk.filesIn folder).flatMap
        (fun path => given source disk path (Cursor.firstLook (disk.content path)).2) =
      ((disk.logNames folder).filter (!isLate disk folder ·)).flatMap fun name =>
        (placedIn source disk folder name).map (Placed.located folder) := by
    rw [Disk.filesIn_eq_map, List.flatMap_map, flatMap_filter]
    apply List.flatMap_congr
    intro name _
    rw [(given_looks source disk (Path.join folder name)).1, placedIn_located, isLate]
    cases isReread (disk.content (Path.join folder name)) <;> rfl
  have hsecond : (waitingAmong disk (disk.filesIn folder)).flatMap
        (fun path => given source disk path (Cursor.secondLook (disk.content path))) =
      ((disk.logNames folder).filter (isLate disk folder ·)).flatMap fun name =>
        (placedIn source disk folder name).map (Placed.located folder) := by
    rw [waitingAmong, flatMap_filter, Disk.filesIn_eq_map, List.flatMap_map, flatMap_filter]
    apply List.flatMap_congr
    intro name _
    rw [(given_looks source disk (Path.join folder name)).2, placedIn_located, isLate]
  calc
    ((fresh source folder).load disk).1.drain.2.map located
      = (((fresh source folder).poll disk).1.flush disk).1.staged.map located := by
        rw [drain, load_fresh]
    _ = _ := (load_staged source folder disk).2
    _ = _ := by rw [hfirst, hsecond, ← List.flatMap_append]
    _ = (arrivals source disk folder).map (Placed.located folder) := by
        rw [arrivals, List.map_flatMap]

theorem placedIn_name {source : Source} {disk : Disk} {folder name : String} {p : Placed}
    (h : p ∈ placedIn source disk folder name) : p.name = name := by
  rcases List.mem_flatMap.1 h with ⟨e, -, hp⟩
  rcases List.mem_map.1 hp with ⟨record, -, rfl⟩
  rfl

theorem placedIn_ordered (source : Source) (disk : Disk) (folder name : String) :
    (placedIn source disk folder name).Pairwise Placed.InOrder := by
  refine List.pairwise_flatMap.2 ⟨fun e _ => ?_, ?_⟩
  · exact List.pairwise_map.2 (List.pairwise_of_forall fun a b => Or.inr ⟨rfl, le_refl _⟩)
  · apply (fileEntries_ordered _).imp
    intro a b hlt p hp q hq
    rcases List.mem_map.1 hp with ⟨r, -, rfl⟩
    rcases List.mem_map.1 hq with ⟨r', -, rfl⟩
    exact Or.inr ⟨rfl, hlt.le⟩

/-- Files in the order of their names give records in order. -/
theorem flatMap_placedIn_ordered {names : List String} (h : names.Pairwise (· < ·))
    (source : Source) (disk : Disk) (folder : String) :
    (names.flatMap (placedIn source disk folder)).Pairwise Placed.InOrder := by
  refine List.pairwise_flatMap.2 ⟨fun name _ => placedIn_ordered source disk folder name, ?_⟩
  apply h.imp
  intro a b hlt p hp q hq
  have hp := placedIn_name hp
  have hq := placedIn_name hq
  rw [← hp, ← hq] at hlt
  exact Or.inl hlt

/-- The order of a load is that of the names and lines, unless a file that is read again as lines
comes before another file by its name, and both give records. -/
theorem arrivals_inOrder_iff (source : Source) (disk : Disk) (folder : String) :
    (arrivals source disk folder).Pairwise Placed.InOrder ↔
      ∀ a ∈ disk.logNames folder, ∀ b ∈ disk.logNames folder,
        isLate disk folder a = true → isLate disk folder b = false →
        placedIn source disk folder a ≠ [] → placedIn source disk folder b ≠ [] → b < a := by
  have hnames := disk.logNames_ordered folder
  rw [arrivals, List.flatMap_append, List.pairwise_append]
  -- In both parts the order is that of the names, so only pairs across them count.
  constructor
  · rintro ⟨-, -, hacross⟩ a ha b hb hlate hsoon hgives hgives'
    rcases List.exists_mem_of_ne_nil _ hgives with ⟨q, hq⟩
    rcases List.exists_mem_of_ne_nil _ hgives' with ⟨p, hp⟩
    have hbefore := hacross p (List.mem_flatMap.2 ⟨b, by simp [hb, hsoon], hp⟩)
      q (List.mem_flatMap.2 ⟨a, by simp [ha, hlate], hq⟩)
    rw [Placed.InOrder, placedIn_name hp, placedIn_name hq] at hbefore
    rcases hbefore with hlt | ⟨heq, -⟩
    · exact hlt
    · rw [heq, hlate] at hsoon
      cases hsoon
  · intro hcond
    refine ⟨flatMap_placedIn_ordered (hnames.filter _) source disk folder,
      flatMap_placedIn_ordered (hnames.filter _) source disk folder, ?_⟩
    intro p hp q hq
    rcases List.mem_flatMap.1 hp with ⟨b, hb, hp⟩
    rcases List.mem_flatMap.1 hq with ⟨a, ha, hq⟩
    rcases List.mem_filter.1 hb with ⟨hb, hsoon⟩
    rcases List.mem_filter.1 ha with ⟨ha, hlate⟩
    have hlt := hcond a ha b hb hlate (by simpa using hsoon) (List.ne_nil_of_mem hq)
      (List.ne_nil_of_mem hp)
    rw [Placed.InOrder, placedIn_name hp, placedIn_name hq]
    exact Or.inl hlt

theorem Placed.InOrder.place_le {a b : Placed} (h : a.InOrder b) (hname : a.name = b.name) :
    a.place ≤ b.place := by
  rcases h with hlt | ⟨-, hle⟩
  · rw [hname] at hlt
    exact absurd hlt (lt_irrefl _)
  · exact hle

/-- The records of one file always come in the order of its lines. -/
theorem arrivals_place_le (source : Source) (disk : Disk) (folder : String) :
    (arrivals source disk folder).Pairwise fun a b => a.name = b.name → a.place ≤ b.place := by
  have hnames := disk.logNames_ordered folder
  have hsoon := flatMap_placedIn_ordered (hnames.filter (!isLate disk folder ·)) source disk folder
  have hlate := flatMap_placedIn_ordered (hnames.filter (isLate disk folder ·)) source disk folder
  rw [arrivals, List.flatMap_append, List.pairwise_append]
  refine ⟨hsoon.imp Placed.InOrder.place_le, hlate.imp Placed.InOrder.place_le, ?_⟩
  intro p hp q hq hname
  rcases List.mem_flatMap.1 hp with ⟨b, hb, hp⟩
  rcases List.mem_flatMap.1 hq with ⟨a, ha, hq⟩
  -- A file is read again or it is not.
  rw [placedIn_name hp, placedIn_name hq] at hname
  have hb := (List.mem_filter.1 hb).2
  have ha := (List.mem_filter.1 ha).2
  rw [hname, ha] at hb
  cases hb

/-- A load hands out the records of all files, those of one file in the order of its lines. They
are in the order of the names of the files just when no file that looks like a document but is read
again as lines comes, by its name, before another file with records. -/
theorem load_arrivals (source : Source) (folder : String) (disk : Disk) :
    ((fresh source folder).load disk).1.drain.2.map located =
        (arrivals source disk folder).map (Placed.located folder) ∧
      (arrivals source disk folder).Perm
        ((disk.logNames folder).flatMap (placedIn source disk folder)) ∧
      ((arrivals source disk folder).Pairwise fun a b => a.name = b.name → a.place ≤ b.place) ∧
      ((arrivals source disk folder).Pairwise Placed.InOrder ↔
        ∀ a ∈ disk.logNames folder, ∀ b ∈ disk.logNames folder,
          isLate disk folder a = true → isLate disk folder b = false →
          placedIn source disk folder a ≠ [] → placedIn source disk folder b ≠ [] → b < a) := by
  refine ⟨load_located source folder disk, ?_, arrivals_place_le source disk folder,
    arrivals_inOrder_iff source disk folder⟩
  have hsplit := List.filter_append_perm (isLate disk folder ·) (disk.logNames folder)
  exact (List.perm_append_comm.trans hsplit).flatMap_right _

/-- The first line of the first file is broken. -/
def brokenFirst : Disk :=
  (Disk.empty.append "logs/a.log"
    (Utf8.ofString "garbage\n\x7b\"path\":\"/a\",\"request\":\x7b\x7d\x7d\n") 0).append "logs/b.log"
    (Utf8.ofString "\x7b\"path\":\"/b\",\"request\":\x7b\x7d\x7d\n") 0

theorem logNames_brokenFirst : brokenFirst.logNames "logs" = ["a.log", "b.log"] := by
  have hlookup : brokenFirst.lookup "logs" = .ok .folder := by decide +kernel
  have hwalk : brokenFirst.walk (Disk.start "logs") (Path.pieces "logs") =
      .ok (Disk.start "logs" ++ ["logs"]) := by decide +kernel
  have hnames : brokenFirst.fileNames "logs" =
      .ok (["a.log", "b.log"].mergeSort fun a b => a ≤ b) := by
    rw [Disk.fileNames_of_walk hlookup hwalk]
    congr 2
  have hsorted : ["a.log", "b.log"].mergeSort (fun a b => a ≤ b) = ["a.log", "b.log"] :=
    List.mergeSort_of_pairwise (by decide)
  have hread : ["a.log", "b.log"].filter
      (fun name => brokenFirst.isFile (Path.join "logs" name)) = ["a.log", "b.log"] := by
    decide +kernel
  rw [Disk.logNames, hnames, hsorted]
  exact hread

/-- The second file is handed out before the first one. -/
theorem load_out_of_order :
    (∃ n, ((fresh .library "logs").load brokenFirst).2 = .ok n) ∧
      ((fresh .library "logs").load brokenFirst).1.drain.2.map (·.logFile) =
        [some (.text "logs/b.log"), some (.text "logs/a.log")] ∧
      ¬(arrivals .library brokenFirst "logs").Pairwise Placed.InOrder := by
  have harrivals : arrivals .library brokenFirst "logs" =
      (["a.log", "b.log"].filter (!isLate brokenFirst "logs" ·) ++
        ["a.log", "b.log"].filter (isLate brokenFirst "logs" ·)).flatMap
          (placedIn .library brokenFirst "logs") := by
    rw [arrivals, logNames_brokenFirst]
  refine ⟨?_, ?_, ?_⟩
  · have hlisted : "logs/a.log" ∈ brokenFirst.filesIn "logs" := by
      rw [Disk.filesIn_eq_map, logNames_brokenFirst]
      decide
    exact load_ok hlisted .library
  · have hlocated := congrArg (List.map Prod.fst) (load_located .library "logs" brokenFirst)
    rw [List.map_map, List.map_map, harrivals] at hlocated
    exact hlocated.trans (by decide +kernel)
  · rw [harrivals]
    decide +kernel

end Store
end TraceAudit
