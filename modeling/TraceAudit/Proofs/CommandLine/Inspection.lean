import TraceAudit.Proofs.CommandLine.FolderNames
import TraceAudit.Proofs.Text.Distinct

/-!
# What `inspect` accounts for

`inspect` reads the names of the folders it finds as sources, and then loads the folders that the
sources are kept in. These are the folders it found unless a name decorates a number.

* `Command.interfaceFolders` are the folders it finds, and `Command.loadNamed` loads one of them;
* `Summary.Counts` says what a summary counts, and `Summary.counts_ofRecords` that it does;
* `Command.inspect_accounts` compares what is summarized with what is found.
  `Command.padded_misread` is a folder that is listed and not read.
-/

namespace TraceAudit

/-! ## Summaries -/

theorem Command.mem_tally {texts : List String} {text : String} {count : Nat} :
    (text, count) ∈ tally texts ↔ 0 < count ∧ count = texts.count text := by
  simp only [tally, List.mem_map, Prod.mk.injEq, Text.mem_distinct]
  constructor
  · rintro ⟨listed, hmem, rfl, rfl⟩
    exact ⟨List.count_pos_iff.2 hmem, rfl⟩
  · rintro ⟨hpos, rfl⟩
    exact ⟨text, List.count_pos_iff.1 hpos, rfl, rfl⟩

/-- What a summary counts: the requests, also by their endpoints, and the responses. It lists the
errors. -/
structure Command.Summary.Counts (summary : Summary) (records : List Record)
    (errors : List CorruptEntry) : Prop where
  requests : summary.requests = records.countP Record.isRequest
  responses : summary.responses = records.countP fun r => !r.isRequest
  endpoints : ∀ path count, (path, count) ∈ summary.endpoints ↔
    0 < count ∧ count = records.countP fun r => r.isRequest && r.path == path
  ordered : summary.endpoints.Pairwise fun a b => a.1 < b.1
  errors : summary.errors = errors

theorem Source.rank_injective {a b : Source} (h : a.rank = b.rank) : a = b := by
  cases a <;> cases b <;> simp only [rank] at h <;> first | rfl | omega | skip
  rename_i n m
  have hnumber : n = m := UInt8.toNat_inj.1 (by omega)
  rw [hnumber]

namespace Command

theorem Summary.counts_ofRecords (source : Source) (records : List Record)
    (errors : List CorruptEntry) :
    (Summary.ofRecords source records errors).Counts records errors := by
  rcases Summary.ofRecords_counts source records errors with ⟨hrequests, hresponses⟩
  have hcount : ∀ path, ((records.filter Record.isRequest).map (·.path)).count path =
      records.countP fun r => r.isRequest && r.path == path := by
    intro path
    rw [List.count_eq_countP, List.countP_map, List.countP_filter]
    exact List.countP_congr fun r _ => by simp [and_comm]
  refine ⟨hrequests, hresponses, fun path count => ?_, ?_, rfl⟩
  · rw [← hcount path]
    exact mem_tally
  · exact List.pairwise_map.2 (Text.pairwise_distinct _)

/-! ## Folders -/

/-- The folders for interfaces in a log folder. A log folder may have no place for them. -/
def interfaceFolders (disk : Disk) (logFolder : String) : List String :=
  (disk.folderNames (Path.join logFolder "interfaces")).toOption.getD []

/-- The reader of a source once it has loaded the folder of a name. -/
def loadNamed (disk : Disk) (logFolder : String) (source : Source) (name : String) : Store :=
  ((Store.fresh source (Path.join (Path.join logFolder "interfaces") name)).load disk).1

variable {disk : Disk} {logFolder : String}

theorem nodup_interfaceFolders : (interfaceFolders disk logFolder).Nodup := by
  rw [interfaceFolders]
  cases hnames : disk.folderNames (Path.join logFolder "interfaces") with
  | error fault => exact List.nodup_nil
  | ok names => exact (Disk.namesIn_ordered hnames).1.imp fun hlt => ne_of_lt hlt

theorem sourcesIn_eq :
    sourcesIn disk logFolder =
      ((interfaceFolders disk logFolder).filterMap Source.ofName?).mergeSort Source.before := by
  rw [sourcesIn, interfaceFolders]
  cases disk.folderNames (Path.join logFolder "interfaces") with
  | error fault => simp [Except.toOption]
  | ok names => rfl

theorem sourcesIn_perm :
    (sourcesIn disk logFolder).Perm
      ((interfaceFolders disk logFolder).filterMap Source.ofName?) := by
  rw [sourcesIn_eq]
  exact List.mergeSort_perm _ _

theorem sourcesIn_ordered :
    (sourcesIn disk logFolder).Pairwise fun a b => a.rank ≤ b.rank := by
  have htrans : ∀ a b c : Source, a.before b = true → b.before c = true → a.before c = true := by
    intro a b c hab hbc
    exact decide_eq_true ((of_decide_eq_true hab).trans (of_decide_eq_true hbc))
  have htotal : ∀ a b : Source, (a.before b || b.before a) = true := by
    intro a b
    rw [Bool.or_eq_true]
    exact (Nat.le_total a.rank b.rank).imp decide_eq_true decide_eq_true
  rw [sourcesIn_eq]
  exact (List.pairwise_mergeSort htrans htotal _).imp of_decide_eq_true

/-- `inspect` summarizes the folders that the sources are kept in. -/
theorem run_inspect_loaded (hfolder : disk.isFolder logFolder = true)
    (hload : ∀ source ∈ sourcesIn disk logFolder,
      ∃ n, ((Store.forLogFolder logFolder source).load disk).2 = .ok n) (reporting : Reporting) :
    run disk reporting (.inspect logFolder) =
      inspectionResponse reporting logFolder ((sourcesIn disk logFolder).map fun source =>
        Summary.ofRecords source (loadNamed disk logFolder source source.name).staged
          (loadNamed disk logFolder source source.name).errors) := by
  refine run_inspect hfolder (fun source hsource => ?_) reporting
  rcases hload source hsource with ⟨n, hn⟩
  rw [readInterface_replayed hn, Interface.replayed_records, Interface.replayed_corruptEntries]
  rfl

/-- Where no name decorates a number, no two folders are read as the same source. -/
theorem nodup_sourcesIn
    (hplain : ∀ folder ∈ interfaceFolders disk logFolder, ∀ n, ¬Source.Decorates folder n) :
    (sourcesIn disk logFolder).Nodup := by
  refine sourcesIn_perm.nodup_iff.2 (List.pairwise_filterMap.2 ?_)
  refine nodup_interfaceFolders.imp_of_mem ?_
  rintro a b ha hb hne source hsource other hother rfl
  have ha' := (Source.eq_name_iff hsource).2 (hplain a ha)
  have hb' := (Source.eq_name_iff hother).2 (hplain b hb)
  exact hne (ha'.trans hb'.symm)

/-- Where no name decorates a number, the sources are strictly ascending. -/
theorem sourcesIn_ascending
    (hplain : ∀ folder ∈ interfaceFolders disk logFolder, ∀ n, ¬Source.Decorates folder n) :
    (sourcesIn disk logFolder).Pairwise fun a b => a.rank < b.rank := by
  refine (sourcesIn_ordered.and (nodup_sourcesIn hplain)).imp ?_
  rintro a b ⟨hle, hne⟩
  exact lt_of_le_of_ne hle fun heq => hne (Source.rank_injective heq)

/-- What `inspect` shows of a log folder whose interfaces can be loaded: summaries in the order of
the sources, one for each folder whose name is read as a source. Each of them counts what is in the
folder of the name that its source has. This is the name that was read, unless that one decorates
the number of an auxiliary application. Where no name does so, the sources are strictly ascending,
and all folders that are found are summarized. -/
theorem inspect_accounts {disk : Disk} {logFolder : String}
    (hfolder : disk.isFolder logFolder = true)
    (hload : ∀ source ∈ sourcesIn disk logFolder,
      ∃ n, ((Store.forLogFolder logFolder source).load disk).2 = .ok n) :
    let folders := interfaceFolders disk logFolder
    ∃ summaries : List Summary,
      (∀ reporting, run disk reporting (.inspect logFolder) =
        inspectionResponse reporting logFolder summaries) ∧
      folders.Nodup ∧
      (summaries.map (·.source)).Perm (folders.filterMap Source.ofName?) ∧
      (summaries.map (·.source)).Pairwise (fun a b => a.rank ≤ b.rank) ∧
      (∀ summary ∈ summaries,
        let store := loadNamed disk logFolder summary.source summary.source.name
        summary.Counts store.staged store.errors) ∧
      (∀ text source, Source.ofName? text = some source →
        (text = source.name ↔ ∀ n, ¬Source.Decorates text n)) ∧
      ((∀ folder ∈ folders, ∀ n, ¬Source.Decorates folder n) →
        (summaries.map (·.source)).Pairwise (fun a b => a.rank < b.rank) ∧
        ∀ folder ∈ folders, ∀ source, Source.ofName? folder = some source →
          ∃ summary ∈ summaries, summary.source = source ∧
            let store := loadNamed disk logFolder source folder
            summary.Counts store.staged store.errors) := by
  intro folders
  let summarized (source : Source) : Summary :=
    Summary.ofRecords source (loadNamed disk logFolder source source.name).staged
      (loadNamed disk logFolder source source.name).errors
  have hsources : ((sourcesIn disk logFolder).map summarized).map (·.source) =
      sourcesIn disk logFolder := by
    rw [List.map_map]
    exact List.map_id _
  refine ⟨(sourcesIn disk logFolder).map summarized, run_inspect_loaded hfolder hload,
    nodup_interfaceFolders, ?_, ?_, ?_, fun text source => Source.eq_name_iff, ?_⟩
  · rw [hsources]
    exact sourcesIn_perm
  · rw [hsources]
    exact sourcesIn_ordered
  · intro summary hsummary
    rcases List.mem_map.1 hsummary with ⟨source, -, rfl⟩
    exact Summary.counts_ofRecords source _ _
  · intro hplain
    rw [hsources]
    refine ⟨sourcesIn_ascending hplain, fun folder hmem source hsource => ?_⟩
    -- The folder that was found is the one that its source names.
    have hname := (Source.eq_name_iff hsource).2 (hplain folder hmem)
    have hlisted : source ∈ sourcesIn disk logFolder :=
      sourcesIn_perm.mem_iff.2 (List.mem_filterMap.2 ⟨folder, hmem, hsource⟩)
    refine ⟨summarized source, List.mem_map_of_mem hlisted, rfl, ?_⟩
    rw [hname]
    exact Summary.counts_ofRecords source _ _

/-- The only folder that is found is summarized. -/
theorem inspect_accounts_finished :
    ∃ summaries : List Summary,
      (∀ reporting, run Session.finishedRun reporting (.inspect "run") =
        inspectionResponse reporting "run" summaries) ∧
      (summaries.map (·.source)).Pairwise (fun a b => a.rank < b.rank) ∧
      ∃ summary ∈ summaries, summary.source = .library ∧ summary.requests = 1 := by
  have hfolders : interfaceFolders Session.finishedRun "run" = ["library"] := by decide +kernel
  have hloads : ∀ source ∈ sourcesIn Session.finishedRun "run",
      ((Store.forLogFolder "run" source).load Session.finishedRun).2.isOk = true := by
    decide +kernel
  have hread : Source.ofName? "library" = some .library := rfl
  rcases inspect_accounts (by decide +kernel) fun source hsource =>
    Session.exists_of_isOk (hloads source hsource) with
    ⟨summaries, hrun, -, -, -, -, -, hplain⟩
  have hnone : ∀ folder ∈ interfaceFolders Session.finishedRun "run",
      ∀ n, ¬Source.Decorates folder n := by
    intro folder hmem
    rw [hfolders, List.mem_singleton] at hmem
    rw [hmem]
    exact (Source.eq_name_iff hread).1 rfl
  rcases hplain hnone with ⟨hascending, heach⟩
  rcases heach "library" (by simp [hfolders]) .library hread with
    ⟨summary, hsummary, hsource, hcounts⟩
  have hrequests : (loadNamed Session.finishedRun "run" .library "library").staged.countP
      Record.isRequest = 1 := by decide +kernel
  exact ⟨summaries, hrun, hascending, summary, hsummary, hsource,
    hcounts.requests.trans hrequests⟩

/-- A log folder with two requests, in a folder with a zero in front of its number. -/
def paddedRun : Disk :=
  Disk.empty.append "run/interfaces/buddy07/a.log"
    (Utf8.ofString "\x7b\"path\":\"/b\",\"request\":\x7b\x7d\x7d\n" ++
      Utf8.ofString "\x7b\"path\":\"/c\",\"request\":\x7b\x7d\x7d\n") 5

/-- The folder is found and read as a source, but it is not the one that is loaded. -/
theorem padded_misread :
    interfaceFolders paddedRun "run" = ["buddy07"] ∧
      Source.ofName? "buddy07" = some (.buddy 7) ∧ (Source.buddy 7).name ≠ "buddy07" ∧
      (loadNamed paddedRun "run" (.buddy 7) "buddy07").staged.countP Record.isRequest = 2 ∧
      ∃ summary : Summary, summary.source = .buddy 7 ∧ summary.requests = 0 ∧
        ∀ reporting, run paddedRun reporting (.inspect "run") =
          inspectionResponse reporting "run" [summary] := by
  have hsources : sourcesIn paddedRun "run" = [.buddy 7] := by decide +kernel
  have hloads : ∀ source ∈ sourcesIn paddedRun "run",
      ((Store.forLogFolder "run" source).load paddedRun).2.isOk = true := by decide +kernel
  have hrun := @run_inspect_loaded paddedRun "run" (by decide +kernel)
    fun source hsource => Session.exists_of_isOk (hloads source hsource)
  rw [hsources] at hrun
  exact ⟨by decide +kernel, by decide +kernel, by decide +kernel, by decide +kernel, _, rfl,
    by decide +kernel, hrun⟩

end Command
end TraceAudit
