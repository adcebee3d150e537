import Mathlib.Data.List.Basic
import TraceAudit.Proofs.Store.Progress

/-!
# The numbers of records

A store numbers its records in the order in which it reads them, and gives the two halves of an
exchange one number more.

* `Store.Numbered` says what a reader of the records can rely on;
* `Store.Grouped` is the invariant behind it: the records are exchanges one after the other, each
  under its place among them;
* `Store.Grouped.move` keeps it through one step of reading, `Store.History.run_grouped` through any
  history;
* `Store.run_numbered` is what holds at every moment of a history, and of every next event.
-/

namespace TraceAudit.Store

/-- Records as a store numbers them. -/
structure Numbered (source : Source) (count : Nat) (records : List Record) : Prop where
  /-- There are as many records as were counted, and each has its place as its number. -/
  seqs : records.map (·.seq) = List.range count
  sources : ∀ r ∈ records, r.source = source
  ordered : records.Pairwise fun a b => a.exchange ≤ b.exchange
  /-- The numbers of exchanges start at zero and leave none out. -/
  gapless : ∀ r ∈ records, ∀ n ≤ r.exchange, ∃ r' ∈ records, r'.exchange = n
  /-- The records of one exchange stand side by side. -/
  exchanges : ∀ r ∈ records, ∃ before exchange after, records = before ++ exchange ++ after ∧
    IsExchange exchange ∧ (∀ r' ∈ exchange, r'.exchange = r.exchange) ∧
    ∀ r' ∈ before ++ after, r'.exchange ≠ r.exchange

/-! ## One exchange -/

theorem recordsOf_isExchange {source : Source} {time : Timestamp} {json : Json}
    {records : List Record} (h : recordsOf source time json = .ok records) :
    IsExchange records ∧ ∀ r ∈ records, r.source = source := by
  unfold recordsOf at h
  cases henvelope : Envelope.ofJson json with
  | error error => simp [henvelope] at h
  | ok envelope =>
    cases hrecords : envelope.records source time with
    | error fault => simp [henvelope, hrecords] at h
    | ok found =>
      have heq : found = records := by simpa [henvelope, hrecords] using h
      exact heq ▸ Envelope.records_isExchange hrecords

/-- A reading is refused, or it gives the records of one exchange. -/
theorem captured_cases (source : Source) (reading : Reading) :
    ((corruption source reading).isNone = false ∧ captured source reading = []) ∨
      ((corruption source reading).isNone = true ∧ IsExchange (captured source reading) ∧
        ∀ r ∈ captured source reading, r.source = source) := by
  rcases reading with ⟨entry, time⟩
  cases entry with
  | broken line fault => cases line <;> exact Or.inl ⟨rfl, rfl⟩
  | value line json =>
    cases hrecords : recordsOf source time json with
    | error cause =>
      exact Or.inl ⟨by simp [corruption, hrecords], by simp [captured, hrecords, Except.toOption]⟩
    | ok records =>
      have hcaptured : captured source (.value line json, time) = records := by
        simp [captured, hrecords, Except.toOption]
      rw [hcaptured]
      exact Or.inr ⟨by simp [corruption, hrecords], recordsOf_isExchange hrecords⟩

section Number

variable (file : String) (exchange seq : Nat) (records : List Record)

theorem number_seqs :
    (number file exchange seq records).map (·.seq) = List.range' seq records.length := by
  induction records generalizing seq with
  | nil => rfl
  | cons first rest ih => simp [number, ih, List.range'_succ]

theorem mem_number {r : Record} (h : r ∈ number file exchange seq records) :
    r.exchange = exchange ∧ ∃ old ∈ records, r.source = old.source := by
  induction records generalizing seq with
  | nil => cases h
  | cons first rest ih =>
    rcases List.mem_cons.1 h with rfl | hrest
    · exact ⟨rfl, first, List.mem_cons_self, rfl⟩
    · rcases ih (seq + 1) hrest with ⟨hexchange, old, hold, hsource⟩
      exact ⟨hexchange, old, List.mem_cons_of_mem first hold, hsource⟩

/-- Numbers and the file are the same for both halves of an exchange. -/
theorem number_isExchange {records : List Record} (h : IsExchange records) :
    IsExchange (number file exchange seq records) := by
  cases h with
  | request hkind => exact .request hkind
  | answered hrequest hresponse hpath hhost htime hid _ =>
    exact .answered hrequest hresponse hpath hhost htime hid rfl

end Number

/-! ## The records of a store -/

/-- The records so far, handed out ones included, are exchanges one after the other, each of them
under its place. -/
structure Grouped (s : Store) (handed : List Record) (groups : List (List Record)) : Prop where
  records : handed ++ s.staged = groups.flatten
  seqs : (handed ++ s.staged).map (·.seq) = List.range s.nextSeq
  sources : ∀ r ∈ handed ++ s.staged, r.source = s.source
  count : groups.length = s.nextExchange
  exchange : ∀ n group, groups[n]? = some group →
    IsExchange group ∧ ∀ r ∈ group, r.exchange = n

section Grouped

variable {s t : Store} {handed : List Record} {groups : List (List Record)}

theorem grouped_fresh (source : Source) (folder : String) : (fresh source folder).Grouped [] [] :=
  ⟨rfl, rfl, by simp [fresh], rfl, by simp⟩

theorem Grouped.drain (h : s.Grouped handed groups) :
    s.drain.1.Grouped (handed ++ s.drain.2) groups := by
  have hsame : (handed ++ s.drain.2) ++ s.drain.1.staged = handed ++ s.staged := by
    simp [Store.drain]
  refine ⟨?_, ?_, ?_, h.count, h.exchange⟩
  · rw [hsame]
    exact h.records
  · rw [hsame]
    exact h.seqs
  · rw [hsame]
    exact h.sources

theorem Grouped.take (h : s.Grouped handed groups) (file : String) (time : Timestamp)
    (entry : Entry) : ∃ groups', (s.take file time entry).Grouped handed groups' := by
  rw [take_eq]
  rcases captured_cases s.source (entry, time) with ⟨hrefused, hnone⟩ | ⟨hgiven, hexchange, hsource⟩
  · -- A refused entry adds nothing to the records.
    refine ⟨groups, ?_, ?_, ?_, ?_, h.exchange⟩
    · simpa [hnone, number] using h.records
    · simpa [hnone, number] using h.seqs
    · simpa [hnone, number] using h.sources
    · simpa [hrefused] using h.count
  · -- An accepted one adds a group, whose place is the number of exchanges so far.
    refine ⟨groups ++ [number file s.nextExchange s.nextSeq (captured s.source (entry, time))],
      ?_, ?_, ?_, ?_, ?_⟩
    · simp only [List.flatten_append, List.flatten_singleton, ← h.records, List.append_assoc]
    · -- The new numbers go on where the old ones stop.
      have hrange := List.range_add (n := s.nextSeq)
        (m := (captured s.source (entry, time)).length)
      simp only [← List.append_assoc, List.map_append, number_seqs, hrange]
      rw [← List.map_append, h.seqs, List.range'_eq_map_range]
    · intro r hr
      simp only [← List.append_assoc] at hr
      rcases List.mem_append.1 hr with hold | hnew
      · exact h.sources r hold
      · rcases (mem_number file s.nextExchange s.nextSeq _ hnew).2 with ⟨old, hold, heq⟩
        exact heq.trans (hsource old hold)
    · simp [hgiven, h.count]
    · -- The groups that were there keep their places, and only the last place is new.
      intro n group hgroup
      rcases Nat.lt_trichotomy n groups.length with hlt | heq | hgt
      · rw [List.getElem?_append_left hlt] at hgroup
        exact h.exchange n group hgroup
      · rw [heq, List.getElem?_concat_length, Option.some.injEq] at hgroup
        rw [← hgroup, heq, h.count]
        refine ⟨number_isExchange file _ _ hexchange, fun r hr => ?_⟩
        exact (mem_number file s.nextExchange s.nextSeq _ hr).1
      · have hbeyond : (groups ++ [number file s.nextExchange s.nextSeq
            (captured s.source (entry, time))])[n]? = none := by
          rw [List.getElem?_eq_none_iff, List.length_append]
          exact hgt
        rw [hbeyond] at hgroup
        cases hgroup

theorem Grouped.move (h : s.Grouped handed groups) (hmove : Move s t) :
    ∃ groups', t.Grouped handed groups' := by
  cases hmove with
  | cursors files => exact ⟨groups, h.records, h.seqs, h.sources, h.count, h.exchange⟩
  | entry file time entry => exact h.take file time entry

theorem Grouped.reads (h : s.Grouped handed groups) (hreads : s.Reads t) :
    ∃ groups', t.Grouped handed groups' := by
  induction hreads with
  | refl => exact ⟨groups, h⟩
  | tail _ hmove ih =>
    rcases ih with ⟨found, hfound⟩
    exact hfound.move hmove

/-- Groups under their places are numbered without a gap. -/
theorem Grouped.numbered (h : s.Grouped handed groups) :
    Numbered s.source s.recordCount (handed ++ s.staged) := by
  have hgroup : ∀ r ∈ handed ++ s.staged, ∃ group, groups[r.exchange]? = some group ∧
      r ∈ group := by
    intro r hr
    rw [h.records] at hr
    rcases List.mem_flatten.1 hr with ⟨group, hmem, hrgroup⟩
    rcases List.mem_iff_getElem?.1 hmem with ⟨n, hn⟩
    have hexchange : r.exchange = n := (h.exchange n group hn).2 r hrgroup
    exact ⟨group, hexchange ▸ hn, hrgroup⟩
  refine ⟨h.seqs, h.sources, ?_, ?_, ?_⟩
  · -- Records of one group have one number, and those of a later group a greater one.
    rw [h.records]
    refine List.pairwise_flatten.2 ⟨fun group hmem => ?_, List.pairwise_iff_getElem.2 ?_⟩
    · rcases List.mem_iff_getElem?.1 hmem with ⟨n, hn⟩
      have hsame := (h.exchange n group hn).2
      apply List.pairwise_of_forall_mem_list
      intro a ha b hb
      exact le_of_eq ((hsame a ha).trans (hsame b hb).symm)
    · intro i j hi hj hij a ha b hb
      have hia := (h.exchange i _ (List.getElem?_eq_getElem hi)).2 a ha
      have hjb := (h.exchange j _ (List.getElem?_eq_getElem hj)).2 b hb
      omega
  · intro r hr n hn
    rcases hgroup r hr with ⟨group, hplace, -⟩
    rcases List.getElem?_eq_some_iff.1 hplace with ⟨hlt, -⟩
    have hlt' : n < groups.length := lt_of_le_of_lt hn hlt
    rcases h.exchange n _ (List.getElem?_eq_getElem hlt') with ⟨hexchange, hsame⟩
    -- No exchange is without records.
    have hne : groups[n] ≠ [] := by
      intro hnil
      rw [hnil] at hexchange
      cases hexchange
    rcases List.exists_mem_of_ne_nil _ hne with ⟨r', hr'⟩
    refine ⟨r', ?_, hsame r' hr'⟩
    rw [h.records]
    exact List.mem_flatten.2 ⟨_, List.getElem_mem hlt', hr'⟩
  · intro r hr
    rcases hgroup r hr with ⟨group, hplace, -⟩
    rcases List.getElem?_eq_some_iff.1 hplace with ⟨hlt, heq⟩
    rcases h.exchange _ group hplace with ⟨hexchange, hsame⟩
    refine ⟨(groups.take r.exchange).flatten, group, (groups.drop (r.exchange + 1)).flatten, ?_,
      hexchange, hsame, ?_⟩
    · have hsplit : groups = groups.take r.exchange ++ [group] ++ groups.drop (r.exchange + 1) := by
        rw [← heq, List.take_append_getElem hlt, List.take_append_drop]
      rw [h.records]
      conv => lhs; rw [hsplit]
      simp
    · -- What comes before has smaller numbers, and what comes after greater ones.
      intro r' hr'
      rcases List.mem_append.1 hr' with hbefore | hafter
      · rcases List.mem_flatten.1 hbefore with ⟨other, hother, hmem⟩
        rcases List.mem_take_iff_getElem.1 hother with ⟨i, hi, rfl⟩
        have hi' := (h.exchange i _ (List.getElem?_eq_getElem (by omega))).2 r' hmem
        omega
      · rcases List.mem_flatten.1 hafter with ⟨other, hother, hmem⟩
        rcases List.mem_drop_iff_getElem.1 hother with ⟨i, hi, rfl⟩
        have hplace' := List.getElem?_eq_getElem (l := groups) (i := r.exchange + 1 + i) (by omega)
        have hi' := (h.exchange _ _ hplace').2 r' hmem
        omega

end Grouped

/-! ## Histories -/

namespace History

/-- What a call of the store returns: how many records it staged, or why it stopped. -/
def returned (h : History) : Event → Option (Except StoreError Nat)
  | .poll => some (h.store.poll h.disk).2
  | .ingest path => some (h.store.ingest h.disk path).2
  | .flush => some (h.store.flush h.disk).2
  | .load => some (h.store.load h.disk).2
  | .change _ => none
  | .drain => none

/-- An event reads, and says how much, or it hands out. -/
theorem step_cases (h : History) (event : Event) :
    (h.store.Reads (h.step event).store ∧ (h.step event).handed = h.handed ∧
        ∀ n, h.returned event = some (.ok n) →
          (h.step event).store.nextSeq = h.store.nextSeq + n) ∨
      (event = .drain ∧ h.returned event = none) := by
  cases event with
  | change disk => exact Or.inl ⟨.refl, rfl, by simp [returned]⟩
  | poll =>
    refine Or.inl ⟨h.store.poll_reads h.disk, rfl, fun n hn => ?_⟩
    exact h.store.poll_counts h.disk n (Option.some.inj hn)
  | ingest path =>
    refine Or.inl ⟨h.store.readFile_reads h.disk path false, rfl, fun n hn => ?_⟩
    exact h.store.readFile_counts h.disk path false n (Option.some.inj hn)
  | flush =>
    refine Or.inl ⟨h.store.flush_reads h.disk, rfl, fun n hn => ?_⟩
    exact h.store.flush_counts h.disk n (Option.some.inj hn)
  | load =>
    refine Or.inl ⟨h.store.load_reads h.disk, rfl, fun n hn => ?_⟩
    exact h.store.load_counts h.disk n (Option.some.inj hn)
  | drain => exact Or.inr ⟨rfl, rfl⟩

theorem step_grouped {h : History} {groups : List (List Record)}
    (hgroups : h.store.Grouped h.handed groups) (event : Event) :
    ∃ groups', (h.step event).store.Grouped (h.step event).handed groups' := by
  rcases h.step_cases event with ⟨hreads, hhanded, -⟩ | ⟨rfl, -⟩
  · rw [hhanded]
    exact hgroups.reads hreads
  · exact ⟨groups, hgroups.drain⟩

theorem run_grouped {h : History} {groups : List (List Record)}
    (hgroups : h.store.Grouped h.handed groups) (events : List Event) :
    ∃ groups', (h.run events).store.Grouped (h.run events).handed groups' := by
  induction events generalizing h groups with
  | nil => exact ⟨groups, hgroups⟩
  | cons event rest ih =>
    rcases step_grouped hgroups event with ⟨next, hnext⟩
    exact ih hnext

theorem step_source (h : History) (event : Event) :
    (h.step event).store.source = h.store.source := by
  rcases h.step_cases event with ⟨hreads, -, -⟩ | ⟨rfl, -⟩
  · exact hreads.grows.source
  · rfl

theorem run_source (h : History) (events : List Event) :
    (h.run events).store.source = h.store.source := by
  induction events generalizing h with
  | nil => rfl
  | cons event rest ih => exact (ih (h.step event)).trans (h.step_source event)

theorem step_errors (h : History) (event : Event) :
    h.store.errors <+: (h.step event).store.errors := by
  rcases h.step_cases event with ⟨hreads, -, -⟩ | ⟨rfl, -⟩
  · exact hreads.grows.errors
  · exact List.prefix_rfl

end History

/-- At every moment, whatever was called and changed until then: the records that were handed out
and those that are staged are numbered in their order, exchange by exchange; and whatever comes next
adds errors at the end only, and as many records as it says. -/
theorem run_numbered (source : Source) (folder : String) (disk : Disk) (events : List Event) :
    let h := (History.start disk source folder).run events
    Numbered source h.store.recordCount (h.handed ++ h.store.staged) ∧
      ∀ event, h.store.errors <+: (h.step event).store.errors ∧
        ∀ n, h.returned event = some (.ok n) →
          ∃ new, (h.step event).store.staged = h.store.staged ++ new ∧ new.length = n := by
  intro h
  have hsource : h.store.source = source := (History.start disk source folder).run_source events
  constructor
  · have hfresh : (History.start disk source folder).store.Grouped [] [] :=
      grouped_fresh source folder
    rcases History.run_grouped hfresh events with ⟨groups, hgroups⟩
    rw [← hsource]
    exact hgroups.numbered
  · intro event
    refine ⟨h.step_errors event, fun n hn => ?_⟩
    rcases h.step_cases event with ⟨hreads, -, hcount⟩ | ⟨-, hnone⟩
    · rcases hreads.grows.staged with ⟨new, hnew, hlength⟩
      have hcount' := hcount n hn
      exact ⟨new, hnew, by omega⟩
    · rw [hnone] at hn
      cases hn

/-- A file with a request and its response, and a line that is no envelope in between. -/
def exchanged : Disk :=
  Disk.empty.append "logs/a.log"
    (Utf8.ofString
      ("\x7b\"path\":\"/a\",\"request\":\x7b\x7d\x7d\n\x7b\x7d\n" ++
        "\x7b\"path\":\"/b\",\"request\":\x7b\x7d,\"response\":\x7b\"status_code\":200\x7d\x7d\n"))
    5

/-- The same file with one more request. -/
def requested : Disk :=
  exchanged.append "logs/a.log" (Utf8.ofString "\x7b\"path\":\"/c\",\"request\":\x7b\x7d\x7d\n") 7

/-- Three records are handed out before a missing file is asked for, and one more comes later. -/
theorem run_numbered_exchanged :
    let h := (History.start exchanged .agent "logs").run
      [.poll, .drain, .ingest "logs/b.log", .change requested]
    Numbered .agent 3 (h.handed ++ h.store.staged) ∧
      ∃ new, (h.step .poll).store.staged = h.store.staged ++ new ∧ new.length = 1 := by
  rcases run_numbered .agent "logs" exchanged
    [.poll, .drain, .ingest "logs/b.log", .change requested] with ⟨hnumbered, hnext⟩
  have hcount : ((History.start exchanged .agent "logs").run
      [.poll, .drain, .ingest "logs/b.log", .change requested]).store.recordCount = 3 := by
    decide +kernel
  rw [hcount] at hnumbered
  exact ⟨hnumbered, (hnext .poll).2 1 (by decide +kernel)⟩

end TraceAudit.Store
