import TraceAudit.CommandLine.Response
import TraceAudit.Proofs.Disk.Folders
import TraceAudit.Proofs.Session.LiveReplay
import TraceAudit.Proofs.Store.Numbering
import TraceAudit.Proofs.Store.SingleFile
import TraceAudit.Proofs.Trace.Numeral

/-!
# What commands show of a finished run

`inspect`, `spans` and `validate` read log files by themselves, the first two folder by folder and
the last one a single file. They come to the data that a replay session has.

* `Interface.replayed_records`: an interface over a finished run numbers its records as they are
  numbered by the load;
* `Command.readInterface_replayed` and `Command.readSingle_replayed` compare what commands read with
  such an interface;
* `Command.mem_sourcesIn`: `inspect` leaves no folder with files out;
* `Command.Shows` is what the commands say of a source, told from the evidence of validators, and
  `Command.views_agree` says it of every source of a replay session.
-/

namespace TraceAudit

/-! ## Names of sources -/

namespace Source

/-- What follows the first letters is the number of an auxiliary application, or no source is
named. -/
theorem ofName?_buddy {text : String} {digits : List Char}
    (h : text.toList = "buddy".toList ++ digits) :
    ofName? text = (Decimal.u8? digits).map fun n => .buddy (UInt8.ofNat n) := by
  -- No other name starts with the same letters.
  have hother : ∀ other : String, ¬"buddy".toList <+: other.toList → text ≠ other := by
    rintro other hnot rfl
    exact hnot (h ▸ List.prefix_append _ _)
  have hdigits : "buddy".toList.isPrefixOf? text.toList = some digits := by
    rw [h]
    rfl
  rw [ofName?, if_neg (hother _ (by decide +kernel)), if_neg (hother _ (by decide +kernel)),
    if_neg (hother _ (by decide +kernel)), if_neg (hother _ (by decide +kernel)), hdigits]
  cases hnumber : Decimal.u8? digits <;> simp [hnumber]

theorem toList_name_buddy (n : UInt8) :
    (buddy n).name.toList = "buddy".toList ++ n.toNat.repr.toList := by
  simp [name, toString]

/-- A source is found by its name. -/
theorem ofName?_name (source : Source) : ofName? source.name = some source := by
  cases source with
  | buddy n =>
    have hnumber : Decimal.u8? n.toNat.repr.toList = some n.toNat :=
      Decimal.unsigned?_eq_some.2 ⟨Decimal.natural?_repr n.toNat, Nat.le_of_lt_succ n.toNat_lt⟩
    rw [ofName?_buddy (toList_name_buddy n), hnumber, Option.map_some, UInt8.ofNat_toNat]
  | library => rfl
  | agent => rfl
  | backend => rfl
  | openTelemetry => rfl

end Source

/-! ## Interfaces over a finished run -/

namespace Interface

/-- Records that go on with the numbers of an interface keep them. -/
theorem records_pushAll_numbered {i : Interface} {records : List Record}
    (h : records.map (·.seq) = List.range' i.records.length records.length) :
    (i.pushAll records).records = i.records ++ records := by
  induction records generalizing i with
  | nil => exact (List.append_nil _).symm
  | cons record rest ih =>
    rw [List.map_cons, List.length_cons, List.range'_succ, List.cons.injEq] at h
    rcases h with ⟨hseq, hrest⟩
    -- The number that the record would be given is the one that it has.
    have hpush : (i.push record).records = i.records ++ [record] := by
      simp [push, ← hseq]
    have hlater := ih (i := i.push record) (by rw [hpush, List.length_append]; exact hrest)
    exact hlater.trans (by rw [hpush, List.append_assoc]; rfl)

variable (disk : Disk) (logFolder : String) (source : Source)

/-- A load numbers its records from zero, and an interface that takes them finds no other number for
them. -/
theorem replayed_records :
    (replayed disk logFolder source).records =
      ((Store.forLogFolder logFolder source).load disk).1.staged := by
  have hreads := (Store.forLogFolder logFolder source).load_reads disk
  rcases (Store.grouped_fresh source (Store.folderOf logFolder source)).reads hreads with
    ⟨groups, hgroups⟩
  -- The numbers that the load has given are the places of the records.
  have hseqs := hgroups.seqs
  have hlength := congrArg List.length hseqs
  rw [List.length_map, List.length_range] at hlength
  rw [← hlength, List.range_eq_range'] at hseqs
  exact (records_takeStaged _ _).trans (records_pushAll_numbered hseqs)

theorem replayed_corruptEntries :
    (replayed disk logFolder source).corruptEntries =
      ((Store.forLogFolder logFolder source).load disk).1.errors := by
  have hstore := (takeStaged_frame (fresh source .replay none)
    ((Store.forLogFolder logFolder source).load disk).1).2.1
  rw [corruptEntries, replayed, hstore]
  rfl

end Interface

/-! ## What commands read -/

namespace Command

section Reading

variable {disk : Disk} {logFolder path : String} {source : Source} {n : Nat}

/-- `inspect` and `spans` read what an interface over the folder has. -/
theorem readInterface_replayed
    (hload : ((Store.forLogFolder logFolder source).load disk).2 = .ok n) :
    readInterface disk logFolder source =
      .ok ((Interface.replayed disk logFolder source).records,
        (Interface.replayed disk logFolder source).corruptEntries) := by
  rw [Interface.replayed_records, Interface.replayed_corruptEntries]
  unfold readInterface
  generalize (Store.forLogFolder logFolder source).load disk = loaded at hload ⊢
  rcases loaded with ⟨store, result⟩
  have hresult : result = .ok n := hload
  rw [hresult]

/-- `validate` reads the same from the only file of the folder. -/
theorem readSingle_replayed (hsingle : disk.filesIn (Store.folderOf logFolder source) = [path]) :
    readSingle disk path source =
      .ok ((Interface.replayed disk logFolder source).records,
        (Interface.replayed disk logFolder source).corruptEntries) := by
  rcases Store.load_single source hsingle (Path.parent path) with ⟨⟨m, hread⟩, ⟨k, hflush⟩, hstore⟩
  rw [Interface.replayed_records, Interface.replayed_corruptEntries, readSingle]
  generalize (Store.fresh source (Path.parent path)).ingest disk path = read at hread hflush hstore ⊢
  rcases read with ⟨store, result⟩
  have hresult : result = .ok m := hread
  subst hresult
  simp only at hflush hstore ⊢
  generalize store.flush disk = settled at hflush hstore ⊢
  rcases settled with ⟨last, result⟩
  have hresult : result = .ok k := hflush
  subst hresult
  simp only at hstore ⊢
  rw [hstore]
  rfl

/-- `inspect` finds the folder of a source with files in it. -/
theorem mem_sourcesIn (h : path ∈ disk.filesIn (Store.folderOf logFolder source)) :
    source ∈ sourcesIn disk logFolder := by
  rcases Disk.mem_filesIn.1 h with ⟨-, -, -, hlookup, -⟩
  have hne : Path.join logFolder "interfaces" ≠ "" :=
    Path.join_ne_empty logFolder (by decide +kernel)
  rcases Disk.mem_folderNames source.isName_name hne hlookup with ⟨names, hnames, hmem⟩
  rw [sourcesIn, hnames]
  exact List.mem_mergeSort.2 (List.mem_filterMap.2 ⟨source.name, hmem, source.ofName?_name⟩)

/-- A folder that holds no files gives nothing. -/
theorem exists_file_of_replayed
    (h : (Interface.replayed disk logFolder source).records ≠ [] ∨
      (Interface.replayed disk logFolder source).corruptEntries ≠ []) :
    ∃ path, path ∈ disk.filesIn (Store.folderOf logFolder source) := by
  refine List.exists_mem_of_ne_nil _ fun hnone => ?_
  rw [Interface.replayed_records, Interface.replayed_corruptEntries, Store.forLogFolder,
    Store.load_nothing source hnone] at h
  rcases h with hrecords | herrors
  · exact hrecords rfl
  · exact herrors rfl

end Reading

/-! ## What commands print -/

/-- A file that can be read is checked as a whole. -/
theorem run_validate {disk : Disk} {path : String} {source : Source} {records : List Record}
    {errors : List CorruptEntry} {file : File} (hfile : disk.read path = .ok file)
    (hread : readSingle disk path source = .ok (records, errors)) (reporting : Reporting)
    (allowed : List String) :
    run disk reporting (.validate path source allowed) =
      validationResponse reporting path source records.length
        (SchemaReport.check records allowed) errors := by
  have hisFile : disk.isFile path = true := by simp [Disk.isFile, hfile, Except.toOption]
  simp only [run, hisFile, if_true, validateFile, hread, Except.mapError, bind, Except.bind,
    orFailure]

section Printing

variable {disk : Disk} {logFolder : String} (hfolder : disk.isFolder logFolder = true)

include hfolder

/-- `spans` looks for the id of a call only. -/
theorem run_spans {source : Source} {records : List Record} {errors : List CorruptEntry}
    (hread : readInterface disk logFolder source = .ok (records, errors)) (reporting : Reporting)
    (requestId : String) (fullTrace : Bool) :
    run disk reporting (.spans logFolder requestId fullTrace source) =
      spansResponse reporting requestId source
        (Correlation.spansOf records (callWithId requestId) ⟨fullTrace, false⟩) := by
  simp only [run, listSpans, requireFolder, hfolder, if_true, hread, Except.mapError, bind,
    Except.bind, orFailure]

/-- `inspect` summarizes the folders one by one. -/
theorem run_inspect {records : Source → List Record} {errors : Source → List CorruptEntry}
    (hread : ∀ source ∈ sourcesIn disk logFolder,
      readInterface disk logFolder source = .ok (records source, errors source))
    (reporting : Reporting) :
    run disk reporting (.inspect logFolder) =
      inspectionResponse reporting logFolder ((sourcesIn disk logFolder).map fun source =>
        Summary.ofRecords source (records source) (errors source)) := by
  have hsummaries : (sourcesIn disk logFolder).mapM (summarize disk logFolder) =
      .ok ((sourcesIn disk logFolder).map fun source =>
        Summary.ofRecords source (records source) (errors source)) := by
    refine Session.mapM_ok fun source hsource => ?_
    simp only [summarize, hread source hsource, bind, Except.bind]
  simp only [run, inspectFolder, requireFolder, hfolder, if_true, hsummaries, Except.mapError, bind,
    Except.bind, orFailure]

end Printing

theorem Summary.ofRecords_counts (source : Source) (records : List Record)
    (errors : List CorruptEntry) :
    (Summary.ofRecords source records errors).requests = records.countP Record.isRequest ∧
      (Summary.ofRecords source records errors).responses =
        records.countP fun r => !r.isRequest := by
  have hrequests : (records.filter Record.isRequest).length = records.countP Record.isRequest :=
    List.countP_eq_length_filter.symm
  have hall : records.length =
      records.countP Record.isRequest + records.countP fun r => !r.isRequest := by
    simpa using List.length_eq_countP_add_countP Record.isRequest (l := records)
  refine ⟨hrequests, ?_⟩
  show records.length - (records.filter Record.isRequest).length = _
  omega

/-! ## Commands and validators -/

/-- What the commands say of a source, told from what its validators look at and from the pieces of
its log files that give no records. -/
structure Shows (disk : Disk) (logFolder : String) (source : Source) (summaries : List Summary)
    (e : Evidence) (corrupt : List CorruptEntry) : Prop where
  /-- Record for record and with all numbers, commands read what validators look at. -/
  loaded : readInterface disk logFolder source = .ok (e.records, corrupt)
  /-- `spans` lists the spans of a call that a validator finds without a look at times. -/
  spans : e.timingFallback = false → ∀ reporting (call : TestCall) fullTrace,
    run disk reporting (.spans logFolder call.id fullTrace source) =
      spansResponse reporting call.id source (e.spansOf call fullTrace)
  /-- `inspect` counts the requests and the responses. -/
  counted : ∀ summary ∈ summaries, summary.source = source →
    summary.requests = e.records.countP Record.isRequest ∧
      summary.responses = (e.records.countP fun r => !r.isRequest) ∧ summary.errors = corrupt
  /-- It leaves out only a source without data. -/
  listed : e.records ≠ [] ∨ corrupt ≠ [] → ∃ summary ∈ summaries, summary.source = source
  /-- On the only file of the source, `validate` reports what a validator of schemas finds. -/
  validated : ∀ path, disk.filesIn (Store.folderOf logFolder source) = [path] →
    ∀ reporting allowed,
      let report := SchemaReport.check e.records allowed
      run disk reporting (.validate path source allowed) =
          validationResponse reporting path source e.records.length report corrupt ∧
        ∀ v : Validator, v.assertion = .schemas allowed →
          v.evaluate e = v.verdict (Evidence.conformance report.violations) report.tolerated

/-- What `inspect` says of a source of a finished run. -/
def summaryOf (disk : Disk) (logFolder : String) (source : Source) : Summary :=
  Summary.ofRecords source (Interface.replayed disk logFolder source).records
    (Interface.replayed disk logFolder source).corruptEntries

section Views

variable {disk : Disk} {logFolder : String} (hfolder : disk.isFolder logFolder = true)

include hfolder

/-- Evidence with the data of an interface over the finished run is what the commands show. -/
theorem shows_replayed {source : Source} {n : Nat} {e : Evidence} {corrupt : List CorruptEntry}
    (hload : ((Store.forLogFolder logFolder source).load disk).2 = .ok n)
    (hrecords : e.records = (Interface.replayed disk logFolder source).records)
    (hcorrupt : corrupt = (Interface.replayed disk logFolder source).corruptEntries) :
    Shows disk logFolder source ((sourcesIn disk logFolder).map (summaryOf disk logFolder)) e
      corrupt := by
  have hread := readInterface_replayed hload
  rw [← hrecords, ← hcorrupt] at hread
  refine ⟨hread, ?_, ?_, ?_, ?_⟩
  · intro htiming reporting call fullTrace
    -- Without a look at times, the spans of a call are found by its id alone.
    have hspans : e.spansOf call fullTrace =
        Correlation.spansOf e.records (callWithId call.id) ⟨fullTrace, false⟩ := by
      rw [Evidence.spansOf, htiming]
      rfl
    rw [hspans]
    exact run_spans hfolder hread reporting call.id fullTrace
  · intro summary hsummary hsource
    rcases List.mem_map.1 hsummary with ⟨other, -, rfl⟩
    have hother : other = source := hsource
    rw [hother, hrecords, hcorrupt]
    rcases Summary.ofRecords_counts source (Interface.replayed disk logFolder source).records
      (Interface.replayed disk logFolder source).corruptEntries with ⟨hrequests, hresponses⟩
    exact ⟨hrequests, hresponses, rfl⟩
  · intro hsome
    rw [hrecords, hcorrupt] at hsome
    rcases exists_file_of_replayed hsome with ⟨path, hpath⟩
    exact ⟨_, List.mem_map_of_mem (mem_sourcesIn hpath), rfl⟩
  · intro path hsingle reporting allowed report
    have hlisted : path ∈ disk.filesIn (Store.folderOf logFolder source) := by simp [hsingle]
    rcases Disk.read_of_mem_filesIn hlisted with ⟨file, hfile⟩
    have hsame := readSingle_replayed hsingle
    rw [← hrecords, ← hcorrupt] at hsame
    refine ⟨run_validate hfile hsame reporting allowed, fun v hv => ?_⟩
    rw [Validator.evaluate, hv]
    rfl

end Views

/-- A check of the library's schemas, with an allowed violation. -/
def schemaCheck : List Session.Action := [.register .library "schemas" (.schemas ["/#"])]

end Command
end TraceAudit
