import Mathlib.Logic.Relation
import TraceAudit.Proofs.Store.History

/-!
# What reading can do to a store

Whatever a store reads, and also when it fails half-way, it only moves its cursors and takes
entries:

* `Store.Move` is one such step and `Store.Reads` any number of them;
* `Store.readFile_reads`, `Store.poll_reads`, `Store.flush_reads`, `Store.load_reads` say so of the
  operations;
* `Store.Reads.grows` is what all of this keeps: records and errors are added at the end, and the
  counter counts the records;
* `Store.Counts` relates the number that an operation gives to that counter.
-/

namespace TraceAudit.Store

/-- One step of reading: the cursors are set, or an entry of a file is taken. -/
inductive Move : Store → Store → Prop
  | cursors (s : Store) (files : List (String × Cursor)) : Move s { s with files }
  | entry (s : Store) (file : String) (time : Timestamp) (entry : Entry) :
      Move s (s.take file time entry)

/-- Any number of steps of reading. -/
abbrev Reads : Store → Store → Prop := Relation.ReflTransGen Move

/-! ## Every operation reads -/

section Reads

variable {s t : Store} {disk : Disk} {path : String}

theorem Reads.cursors (h : s.Reads t) (files : List (String × Cursor)) :
    s.Reads { t with files } :=
  h.tail (.cursors t files)

theorem takeAll_reads (s : Store) (file : String) (time : Timestamp) (entries : List Entry) :
    s.Reads (s.takeAll file time entries) := by
  induction entries generalizing s with
  | nil => exact Relation.ReflTransGen.refl
  | cons entry rest ih =>
    have hfirst : s.Reads (s.take file time entry) := .single (.entry s file time entry)
    exact hfirst.trans (ih (s.take file time entry))

theorem readFile_reads (s : Store) (disk : Disk) (path : String) (final : Bool) :
    s.Reads (s.readFile disk path final).1 := by
  cases hread : disk.read path with
  | error fault =>
    -- The cursor is put back as it was.
    have hkept : (s.readFile disk path final).1 =
        { s with
          files := Cursors.set path ((Cursors.find? path s.files).getD Cursor.start) s.files } := by
      simp [readFile, hread]
    rw [hkept]
    exact Reads.cursors .refl _
  | ok file =>
    rw [readFile_eq hread rfl rfl]
    exact (takeAll_reads s path (file.time) _).cursors _

theorem eachFile_reads {each : Store → String → Store × Except StoreError Nat}
    (heach : ∀ (s : Store) path, s.Reads (each s path).1) (s : Store) (paths : List String) :
    s.Reads (eachFile each s paths).1 :=
  eachFile_invariant (P := s.Reads) each paths
    (fun t path hreads _ => hreads.trans (heach t path)) .refl

theorem poll_reads (s : Store) (disk : Disk) : s.Reads (s.poll disk).1 :=
  poll_invariant (P := s.Reads)
    (fun t path hreads _ => hreads.trans (t.readFile_reads disk path false)) .refl

theorem flush_reads (s : Store) (disk : Disk) : s.Reads (s.flush disk).1 :=
  flush_invariant (P := s.Reads)
    (fun t path hreads _ => hreads.trans (t.readFile_reads disk path true)) .refl

theorem load_reads (s : Store) (disk : Disk) : s.Reads (s.load disk).1 :=
  load_invariant (P := s.Reads) (fun t hreads => hreads.trans (t.poll_reads disk))
    (fun t hreads => hreads.trans (t.flush_reads disk)) .refl

end Reads

/-! ## What reading keeps -/

/-- The store is the same but for records and errors at the ends of its lists. -/
structure Grows (s t : Store) : Prop where
  source : t.source = s.source
  errors : s.errors <+: t.errors
  staged : ∃ new, t.staged = s.staged ++ new ∧ t.nextSeq = s.nextSeq + new.length

theorem grows_refl (s : Store) : s.Grows s :=
  ⟨rfl, List.prefix_rfl, [], by simp⟩

theorem Grows.trans {s t u : Store} (hst : s.Grows t) (htu : t.Grows u) : s.Grows u := by
  rcases hst.staged with ⟨new, hnew, hcount⟩
  rcases htu.staged with ⟨more, hmore, hcount'⟩
  refine ⟨htu.source.trans hst.source, hst.errors.trans htu.errors, new ++ more, ?_, ?_⟩
  · rw [hmore, hnew, List.append_assoc]
  · rw [hcount', hcount, List.length_append, Nat.add_assoc]

theorem number_length (file : String) (exchange seq : Nat) (records : List Record) :
    (number file exchange seq records).length = records.length := by
  induction records generalizing seq with
  | nil => rfl
  | cons first rest ih => simp [number, ih]

theorem Move.grows {s t : Store} (h : Move s t) : s.Grows t := by
  cases h with
  | cursors files => exact ⟨rfl, List.prefix_rfl, [], by simp⟩
  | entry file time entry =>
    rw [take_eq]
    exact ⟨rfl, List.prefix_append _ _, _, rfl, by simp [number_length]⟩

theorem Reads.grows {s t : Store} (h : s.Reads t) : s.Grows t := by
  induction h with
  | refl => exact s.grows_refl
  | tail _ hmove ih => exact ih.trans hmove.grows

/-! ## What operations return -/

/-- The number that an operation gives is that of the records that it staged. -/
def Counts (s : Store) (outcome : Store × Except StoreError Nat) : Prop :=
  ∀ n, outcome.2 = .ok n → outcome.1.nextSeq = s.nextSeq + n

theorem readFile_counts (s : Store) (disk : Disk) (path : String) (final : Bool) :
    s.Counts (s.readFile disk path final) := by
  intro n hn
  cases hread : disk.read path with
  | error fault => simp [readFile, hread] at hn
  | ok file =>
    rcases hscan : ((Cursors.find? path s.files).getD Cursor.start).scan
      (file.bytes.drop ((Cursors.find? path s.files).getD Cursor.start).offset) final with
      ⟨next, found⟩
    rw [readFile_eq hread rfl hscan] at hn ⊢
    -- The number is what the counter has gone up by, so it does not matter that it is a difference.
    have hgrows := (takeAll_reads s path (file.time) found).grows
    rcases hgrows.staged with ⟨new, -, hcount⟩
    cases hn
    simp only [hcount]
    omega

theorem ingestGrown_counts (disk : Disk) (s : Store) (path : String) :
    s.Counts (ingestGrown disk s path) := by
  intro n hn
  cases hread : disk.read path with
  | error fault => simp [ingestGrown, hread] at hn
  | ok file =>
    rw [ingestGrown_of_read hread] at hn ⊢
    split_ifs at hn ⊢ with hseen
    · -- A file that has not changed is not read.
      cases hn
      rfl
    · exact s.readFile_counts disk path false n hn

theorem eachFile_counts {each : Store → String → Store × Except StoreError Nat}
    (heach : ∀ (s : Store) path, s.Counts (each s path)) (s : Store) (paths : List String) :
    s.Counts (eachFile each s paths) := by
  induction paths generalizing s with
  | nil =>
    intro n hn
    cases hn
    rfl
  | cons path rest ih =>
    intro n hn
    have hfirst := heach s path
    rw [eachFile] at hn ⊢
    rcases hpath : each s path with ⟨next, _ | m⟩
    · simp [hpath] at hn
    · have hrest := ih next
      rw [hpath] at hfirst
      rcases htail : eachFile each next rest with ⟨last, _ | k⟩
      · simp [hpath, htail] at hn
      · rw [htail] at hrest
        have hm : next.nextSeq = s.nextSeq + m := hfirst m rfl
        have hk : last.nextSeq = next.nextSeq + k := hrest k rfl
        simp only [hpath, htail, Except.ok.injEq] at hn ⊢
        omega

theorem poll_counts (s : Store) (disk : Disk) : s.Counts (s.poll disk) := by
  rw [poll]
  split_ifs
  · cases disk.filePaths s.folder with
    | error fault =>
      intro n hn
      cases hn
    | ok paths => exact eachFile_counts (ingestGrown_counts disk) s paths
  · intro n hn
    cases hn
    rfl

theorem flush_counts (s : Store) (disk : Disk) : s.Counts (s.flush disk) :=
  eachFile_counts (fun t path => t.readFile_counts disk path true) s _

theorem load_counts (s : Store) (disk : Disk) : s.Counts (s.load disk) := by
  intro n hn
  rw [load] at hn ⊢
  split_ifs at hn ⊢
  · have hpoll := s.poll_counts disk
    rw [pollThenFlush] at hn ⊢
    rcases hpolled : s.poll disk with ⟨next, _ | m⟩
    · simp [hpolled] at hn
    · have hflush := next.flush_counts disk
      rw [hpolled] at hpoll
      rcases hflushed : next.flush disk with ⟨last, _ | k⟩
      · simp [hpolled, hflushed] at hn
      · rw [hflushed] at hflush
        have hm : next.nextSeq = s.nextSeq + m := hpoll m rfl
        have hk : last.nextSeq = next.nextSeq + k := hflush k rfl
        simp only [hpolled, hflushed, Except.ok.injEq] at hn ⊢
        omega
  · cases hn
    rfl

/-- An operation that gives a number has put as many records at the end of the staged ones. -/
theorem Counts.staged {s : Store} {outcome : Store × Except StoreError Nat} {n : Nat}
    (h : s.Counts outcome) (hreads : s.Reads outcome.1) (hn : outcome.2 = .ok n) :
    ∃ new, outcome.1.staged = s.staged ++ new ∧ new.length = n := by
  rcases hreads.grows.staged with ⟨new, hnew, hcount⟩
  have hcount' := h n hn
  exact ⟨new, hnew, by omega⟩

end TraceAudit.Store
