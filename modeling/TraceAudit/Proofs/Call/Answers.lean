import TraceAudit.Proofs.Json.Members
import TraceAudit.Proofs.Session.Course
import TraceAudit.Session.Client

/-!
# Which entry answers a call

The calls of a test are answered by its own entries, whatever other tests do in between:

* `Journal.ofLines_eq` and `Journal.ofLines_broken` are what the lines of a journal give;
* `CallReplay.Counts` is what a client keeps of the calls before, `CallReplay.Counts.send` what one
  call does to it, `CallReplay.Counts.sendAll` what calls in order do;
* `CallReplay.load_of_readable` and `CallReplay.load_of_broken` are what opening a folder gives;
* `replayed_calls` puts these together.
-/

namespace TraceAudit

namespace Journal

/-! ## The lines of a journal -/

/-- The line is nothing but white space. -/
def isBlankLine (line : List Char) : Bool := (Text.trim line).isEmpty

/-- The line is an entry unless it is blank. -/
def Readable (line : List Char) : Prop :=
  isBlankLine line = false → (JournalEntry.ofText? line).isSome = true

instance (line : List Char) : Decidable (Readable line) :=
  inferInstanceAs (Decidable (_ → _))

/-- The entries of lines all of which can be read. -/
def entriesOf (lines : List (List Char)) : Journal :=
  (lines.filter fun line => !isBlankLine line).filterMap JournalEntry.ofText?

theorem ofLines_blank {line : List Char} (hblank : isBlankLine line = true) (number : Nat)
    (rest : List (List Char)) : ofLines number (line :: rest) = ofLines (number + 1) rest := by
  rw [isBlankLine] at hblank
  simp [ofLines, hblank]

theorem ofLines_entry {line : List Char} {entry : JournalEntry}
    (hblank : isBlankLine line = false) (hentry : JournalEntry.ofText? line = some entry)
    (number : Nat) (rest : List (List Char)) :
    ofLines number (line :: rest) = (ofLines (number + 1) rest).map (entry :: ·) := by
  rw [isBlankLine] at hblank
  simp only [ofLines, hblank, hentry]
  cases ofLines (number + 1) rest <;> rfl

theorem ofLines_eq {lines : List (List Char)} (h : ∀ line ∈ lines, Readable line) (number : Nat) :
    ofLines number lines = .ok (entriesOf lines) := by
  induction lines generalizing number with
  | nil => rfl
  | cons line rest ih =>
    have hrest := ih (fun l hl => h l (List.mem_cons_of_mem line hl)) (number + 1)
    cases hblank : isBlankLine line with
    | true =>
      have hsame : entriesOf (line :: rest) = entriesOf rest := by simp [entriesOf, hblank]
      rw [ofLines_blank hblank, hrest, hsame]
    | false =>
      rcases Option.isSome_iff_exists.1 (h line List.mem_cons_self hblank) with ⟨entry, hentry⟩
      have hcons : entriesOf (line :: rest) = entry :: entriesOf rest := by
        simp [entriesOf, hblank, hentry]
      rw [ofLines_entry hblank hentry, hrest, hcons]
      rfl

/-- The lines before the first one that cannot be read only count towards its number. -/
theorem ofLines_broken {before : List (List Char)} {line : List Char}
    (hbefore : ∀ l ∈ before, Readable l) (hline : ¬ Readable line) (after : List (List Char))
    (number : Nat) :
    ofLines number (before ++ line :: after) =
      .error (number + before.length, EntryFault.find line) := by
  induction before generalizing number with
  | nil =>
    have hsplit : isBlankLine line = false ∧ JournalEntry.ofText? line = none := by
      simpa [Readable] using hline
    have hblank : (Text.trim line).isEmpty = false := hsplit.1
    simp [ofLines, hblank, hsplit.2]
  | cons first rest ih =>
    have hrest := ih (fun l hl => hbefore l (List.mem_cons_of_mem first hl)) (number + 1)
    have hplace : number + 1 + rest.length = number + (first :: rest).length := by
      simp only [List.length_cons]
      omega
    rw [hplace] at hrest
    rw [List.cons_append]
    cases hblank : isBlankLine first with
    | true => rw [ofLines_blank hblank, hrest]
    | false =>
      have hentry := hbefore first List.mem_cons_self hblank
      rcases Option.isSome_iff_exists.1 hentry with ⟨entry, hentry⟩
      rw [ofLines_entry hblank hentry, hrest]
      rfl

/-- The place of the first line that cannot be read. -/
def firstBroken (lines : List (List Char)) : Nat := lines.findIdx fun line => ¬ Readable line

theorem split_firstBroken {lines : List (List Char)} (h : ∃ line ∈ lines, ¬ Readable line) :
    ∃ line, lines[firstBroken lines]? = some line ∧ ¬ Readable line ∧
      (∀ l ∈ lines.take (firstBroken lines), Readable l) ∧
      lines = lines.take (firstBroken lines) ++ line :: lines.drop (firstBroken lines + 1) := by
  have hlt : firstBroken lines < lines.length := by
    rw [firstBroken, List.findIdx_lt_length]
    simpa using h
  have hbroken : ¬ Readable lines[firstBroken lines] := by
    have hfound := List.findIdx_getElem (p := fun line => decide (¬ Readable line)) (w := hlt)
    exact of_decide_eq_true hfound
  refine ⟨lines[firstBroken lines], List.getElem?_eq_getElem hlt, hbroken, ?_, ?_⟩
  · intro l hl
    rcases List.mem_take_iff_getElem.1 hl with ⟨k, hk, rfl⟩
    have hbefore : k < firstBroken lines := lt_of_lt_of_le hk (Nat.min_le_left _ _)
    simpa using List.not_of_lt_findIdx hbefore
  · rw [← List.drop_eq_getElem_cons hlt, List.take_append_drop]

/-! ## Looking up an entry -/

/-- The last entry with a test and a number. -/
def last? (journal : Journal) (testId : String) (index : Nat) : Option JournalEntry :=
  (journal.filter fun e => e.testId = testId ∧ e.index = index).getLast?

theorem find?_eq (journal : Journal) (testId : String) (index : Nat) :
    journal.find? testId index = (journal.last? testId index).map (·.call) := by
  have hsame : (fun e : JournalEntry => e.testId == testId && e.index == index) =
      fun e => decide (e.testId = testId ∧ e.index = index) := by
    funext e
    simp [Bool.decide_and, beq_eq_decide]
  rw [find?, last?, List.getLast?_filter, hsame]

/-- What a test is told that asks for its call with a number. -/
def reply (journal : Journal) (testId : String) (index : Nat) : Except SessionError TestCall :=
  match journal.last? testId index with
  | some entry => .ok entry.call
  | none => .error (.notJournaled testId index)

theorem reply_id (journal : Journal) (testId : String) (index : Nat) {id : String}
    (h : (journal.last? testId index).map (·.call.id) = some id) :
    ∃ call, journal.reply testId index = .ok call ∧ call.id = id := by
  rcases Option.map_eq_some_iff.1 h with ⟨entry, hentry, hid⟩
  exact ⟨entry.call, by simp [reply, hentry], hid⟩

theorem load_of_text {disk : Disk} {logFolder text : String}
    (h : disk.readText (pathIn logFolder) = .ok text) :
    load disk logFolder =
      (ofText text.toList).mapError fun (line, fault) => .badEntry (pathIn logFolder) line fault := by
  have hhas : disk.has (pathIn logFolder) = true := by
    rw [Disk.readText, Disk.read] at h
    rw [Disk.has]
    cases hfound : disk.lookup (pathIn logFolder) with
    | error fault => simp [hfound, bind, Except.bind] at h
    | ok node => rfl
  simp [load, hhas, h]

end Journal

namespace CallReplay

/-! ## What a client keeps -/

/-- The number of calls of a test among calls. -/
def callsOf (testId : String) (calls : List Outgoing) : Nat :=
  calls.countP fun call => call.testId = testId

theorem callsOf_snoc (testId : String) (before : List Outgoing) (call : Outgoing) :
    callsOf testId (before ++ [call]) =
      if testId = call.testId then callsOf testId before + 1 else callsOf testId before := by
  rw [callsOf, List.countP_append, List.countP_singleton]
  by_cases hsame : testId = call.testId
  · simp [callsOf, hsame]
  · simp [callsOf, hsame, Ne.symm hsame]

/-- The client has a journal, and has counted the calls of each test by itself. -/
structure Counts (client : CallReplay) (journal : Journal) (before : List Outgoing) : Prop where
  sameJournal : client.journal = journal
  counted : ∀ testId, client.count testId = callsOf testId before

theorem Counts.start (journal : Journal) : Counts (start journal) journal [] :=
  ⟨rfl, fun _ => rfl⟩

/-- A call counts whether it is answered or not, and the answer is that of its number. -/
theorem answer_eq (client : CallReplay) (testId : String) :
    client.answer testId =
      ({ client with made := Members.insert testId (client.count testId + 1) client.made },
        match client.journal.find? testId (client.count testId) with
        | some call => .ok call
        | none => .error (client.count testId)) := by
  rw [answer]
  cases client.journal.find? testId (client.count testId) <;> rfl

theorem Counts.send {client : CallReplay} {journal : Journal} {before : List Outgoing}
    (h : Counts client journal before) (call : Outgoing) :
    Counts (client.send call).1 journal (before ++ [call]) ∧
      (client.send call).2 = journal.reply call.testId (callsOf call.testId before) := by
  have hanswer := answer_eq client call.testId
  rw [h.counted, h.sameJournal, Journal.find?_eq] at hanswer
  refine ⟨⟨?_, ?_⟩, ?_⟩
  · rw [CallReplay.send, hanswer]
  · intro testId
    have hcount : (client.send call).1.count testId =
        (Members.find? testId (Members.insert call.testId
          (callsOf call.testId before + 1) client.made)).getD 0 := by
      rw [CallReplay.send, hanswer]
      rfl
    have hbefore : (Members.find? testId client.made).getD 0 = callsOf testId before :=
      h.counted testId
    rw [hcount, Members.find?_insert, callsOf_snoc]
    -- Only the number of the test that calls goes up.
    split
    · rename_i hsame
      rw [hsame]
      rfl
    · exact hbefore
  · rw [CallReplay.send, hanswer, Journal.reply]
    cases journal.last? call.testId (callsOf call.testId before) <;> rfl

/-- Each of several calls is answered by its test and its number among the calls of that test. -/
theorem Counts.sendAll {client : CallReplay} {journal : Journal} {before : List Outgoing}
    (h : Counts client journal before) (calls : List Outgoing) :
    (client.sendAll calls).2.length = calls.length ∧
      ∀ earlier call later, calls = earlier ++ call :: later →
        (client.sendAll calls).2[earlier.length]? =
          some (journal.reply call.testId (callsOf call.testId (before ++ earlier))) := by
  induction calls generalizing client before with
  | nil =>
    refine ⟨rfl, ?_⟩
    intro earlier call later hcalls
    simp at hcalls
  | cons first rest ih =>
    rcases h.send first with ⟨hnext, hanswer⟩
    rcases ih hnext with ⟨hlength, hrest⟩
    refine ⟨by simp [CallReplay.sendAll, hlength], ?_⟩
    intro earlier call later hcalls
    cases earlier with
    | nil =>
      rcases List.cons.inj hcalls with ⟨rfl, rfl⟩
      simpa [CallReplay.sendAll] using hanswer
    | cons e others =>
      rcases List.cons.inj hcalls with ⟨rfl, hothers⟩
      have hfound := hrest others call later hothers
      rw [List.append_assoc] at hfound
      simpa [CallReplay.sendAll] using hfound

/-! ## The client of a folder -/

/-- The client of a journal whose lines can all be read starts with its entries. -/
theorem load_of_readable {disk : Disk} {logFolder text : String}
    (htext : disk.readText (Journal.pathIn logFolder) = .ok text)
    (hreadable : ∀ line ∈ Text.lines text.toList, Journal.Readable line) :
    load disk logFolder = .ok (start (Journal.entriesOf (Text.lines text.toList))) := by
  have hjournal : Journal.load disk logFolder =
      .ok (Journal.entriesOf (Text.lines text.toList)) := by
    rw [Journal.load_of_text htext, Journal.ofText, Journal.ofLines_eq hreadable]
    rfl
  rw [load, hjournal]
  rfl

/-- A journal with a line that cannot be read has no client, and the error has the number of the
first such line, counted from one. -/
theorem load_of_broken {disk : Disk} {logFolder text : String}
    (htext : disk.readText (Journal.pathIn logFolder) = .ok text)
    (hbroken : ∃ line ∈ Text.lines text.toList, ¬ Journal.Readable line) :
    ∃ line, (Text.lines text.toList)[Journal.firstBroken (Text.lines text.toList)]? = some line ∧
      ¬ Journal.Readable line ∧
      load disk logFolder = .error (.badEntry (Journal.pathIn logFolder)
        (Journal.firstBroken (Text.lines text.toList) + 1) (EntryFault.find line)) := by
  rcases Journal.split_firstBroken hbroken with ⟨line, hfound, hline, hbefore, hlines⟩
  refine ⟨line, hfound, hline, ?_⟩
  have hnumber : 1 + ((Text.lines text.toList).take
      (Journal.firstBroken (Text.lines text.toList))).length =
        Journal.firstBroken (Text.lines text.toList) + 1 := by
    have hlt := (List.getElem?_eq_some_iff.1 hfound).1
    rw [List.length_take, Nat.min_eq_left (Nat.le_of_lt hlt), Nat.add_comm]
  have hlist : Journal.ofText text.toList = .error
      (Journal.firstBroken (Text.lines text.toList) + 1, EntryFault.find line) := by
    rw [← hnumber, ← Journal.ofLines_broken hbefore hline _ 1, ← hlines]
    rfl
  have hjournal : Journal.load disk logFolder = .error (.badEntry (Journal.pathIn logFolder)
      (Journal.firstBroken (Text.lines text.toList) + 1) (EntryFault.find line)) := by
    rw [Journal.load_of_text htext, hlist]
    rfl
  rw [load, hjournal]
  rfl

end CallReplay

/-! ## The client of a session -/

theorem Session.send_eq {s : Session} {client : CallReplay} (h : s.calls = some client)
    (call : Outgoing) :
    s.send call = ({ s with calls := some (client.send call).1 }, (client.send call).2) := by
  simp [Session.send, Session.call, CallReplay.send, h]

theorem Session.sendAll_eq {s : Session} {client : CallReplay} (h : s.calls = some client)
    (calls : List Outgoing) : (s.sendAll calls).2 = (client.sendAll calls).2 := by
  induction calls generalizing s client with
  | nil => rfl
  | cons call rest ih =>
    have hnext : ({ s with calls := some (client.send call).1 } : Session).calls =
        some (client.send call).1 := rfl
    simp [Session.sendAll, CallReplay.sendAll, Session.send_eq h, ih hnext]

/-- A session that replays a log folder has the client of the folder. -/
theorem Session.calls_replay {disk : Disk} {scenario : Scenario} {engine : EngineSettings}
    {logFolder : String} {s : Session} (h : replay disk scenario engine logFolder = .ok s) :
    ∃ client, CallReplay.load disk logFolder = .ok client ∧ s.calls = some client := by
  rcases replay_parts h with ⟨interfaces, journal, -, hjournal, rfl⟩
  exact ⟨CallReplay.start journal, by simp [CallReplay.load, hjournal, Except.map], rfl⟩

/-- A session whose folder has no client cannot be opened. It fails at the journal, unless its log
files could not be read before that. -/
theorem Session.replay_error {disk : Disk} {scenario : Scenario} {engine : EngineSettings}
    {logFolder : String} {fault : JournalError}
    (h : CallReplay.load disk logFolder = .error fault) :
    ∃ e, replay disk scenario engine logFolder = .error e ∧
      (e = .journal fault ∨ ∃ other, e = .store other) := by
  have hjournal : Journal.load disk logFolder = .error fault := by
    rw [CallReplay.load] at h
    cases hload : Journal.load disk logFolder with
    | error e => simpa [hload, Except.map] using h
    | ok journal => simp [hload, Except.map] at h
  rw [replay]
  split
  · cases hinterfaces : scenario.sources.mapM (Interface.replay disk · logFolder) with
    | error e =>
      exact ⟨.store e, by simp [bind, Except.bind, Except.mapError], Or.inr ⟨e, rfl⟩⟩
    | ok interfaces =>
      exact ⟨.journal fault, by simp [hjournal, bind, Except.bind, Except.mapError], Or.inl rfl⟩
  · exact ⟨.store (.folderNotFound logFolder), rfl, Or.inr ⟨_, rfl⟩⟩

/-! ## Both together -/

/-- When every line of a journal is blank or an entry, the folder has a client, and a call at any
place among any calls is answered by the last entry with its test and with its number among the
calls of that test, or else is told this test and this number. Otherwise there is neither a client
nor a session, and the error has the number of the first line that cannot be read. -/
theorem replayed_calls {disk : Disk} {logFolder text : String}
    (htext : disk.readText (Journal.pathIn logFolder) = .ok text) :
    let lines := Text.lines text.toList
    ((∀ line ∈ lines, Journal.Readable line) →
      ∃ client, CallReplay.load disk logFolder = .ok client ∧
        (∀ calls, (client.sendAll calls).2.length = calls.length) ∧
        (∀ earlier call later,
          (client.sendAll (earlier ++ call :: later)).2[earlier.length]? =
            some ((Journal.entriesOf lines).reply call.testId
              (CallReplay.callsOf call.testId earlier))) ∧
        ∀ scenario engine s, Session.replay disk scenario engine logFolder = .ok s →
          ∀ calls, (s.sendAll calls).2 = (client.sendAll calls).2) ∧
    ((∃ line ∈ lines, ¬ Journal.Readable line) →
      ∃ line, lines[Journal.firstBroken lines]? = some line ∧ ¬ Journal.Readable line ∧
        let fault := JournalError.badEntry (Journal.pathIn logFolder)
          (Journal.firstBroken lines + 1) (EntryFault.find line)
        CallReplay.load disk logFolder = .error fault ∧
        ∀ scenario engine, ∃ e, Session.replay disk scenario engine logFolder = .error e ∧
          (e = .journal fault ∨ ∃ other, e = .store other)) := by
  intro lines
  refine ⟨?_, ?_⟩
  · intro hreadable
    have hclient := CallReplay.load_of_readable htext hreadable
    have hcounts := CallReplay.Counts.start (Journal.entriesOf lines)
    refine ⟨_, hclient, fun calls => (hcounts.sendAll calls).1, ?_, ?_⟩
    · intro earlier call later
      exact (hcounts.sendAll _).2 earlier call later rfl
    · intro scenario engine s hs calls
      rcases Session.calls_replay hs with ⟨client, hsame, hcalls⟩
      rw [hclient] at hsame
      cases hsame
      exact Session.sendAll_eq hcalls calls
  · intro hbroken
    rcases CallReplay.load_of_broken htext hbroken with ⟨line, hfound, hline, hclient⟩
    exact ⟨line, hfound, hline, hclient, fun scenario engine => Session.replay_error hclient⟩

/-- A line of a journal. -/
def journaled (testId index id : String) : List Char :=
  "\x7b\"test_id\":\"".toList ++ testId.toList ++ "\",\"index\":".toList ++ index.toList ++
    ",\"request\":\x7b\"id\":\"".toList ++ id.toList ++ "\",\"method\":\"GET\",\"path\":".toList ++
    "\"/\",\"issued_at\":".toList ++ "\"2024-05-01T00:00:00Z\"\x7d\x7d\n".toList

/-- The entries of two tests in turn. One of them was written twice, and one is left out. -/
def twoTests : List Char :=
  journaled "a" "0" "first" ++ "  \n".toList ++ journaled "b" "0" "other" ++
    journaled "a" "0" "again" ++ journaled "a" "2" "third"

/-- The disk of a run with a journal. -/
def journalDisk (text : List Char) : Disk :=
  Disk.empty.append "run/weblog/requests.jsonl" (Utf8.encode text) 5

theorem readText_journalDisk (text : List Char) (h : Utf8.decode (Utf8.encode text) = some text) :
    (journalDisk text).readText (Journal.pathIn "run") = .ok (String.ofList text) := by
  have hread : (journalDisk text).read (Journal.pathIn "run") =
      .ok ⟨Utf8.encode text, 5000000000⟩ := rfl
  rw [Disk.readText, hread]
  simp [bind, Except.bind, Utf8.toString?, h]

/-- The second call of the one test is missed; its third one is answered all the same, with calls
of the other test in between. When the journal goes on with a line that is cut off, there is no
client. -/
theorem replayed_calls_two_tests :
    (∃ client, CallReplay.load (journalDisk twoTests) "run" = .ok client ∧
      let answers := (client.sendAll [.get "a" "/x", .post "b" "/" (.nat 1), .get "a" "/",
        .get "b" "/", .get "a" "/"]).2
      answers.length = 5 ∧
        (∃ call, answers[0]? = some (.ok call) ∧ call.id = "again") ∧
        answers[2]? = some (.error (.notJournaled "a" 1)) ∧
        ∃ call, answers[4]? = some (.ok call) ∧ call.id = "third") ∧
    CallReplay.load (journalDisk (twoTests ++ ['c'])) "run" =
      .error (.badEntry (Journal.pathIn "run") 6 (EntryFault.find ['c'])) := by
  have htext := readText_journalDisk twoTests (by decide +kernel)
  have hcut := readText_journalDisk (twoTests ++ ['c']) (by decide +kernel)
  refine ⟨?_, ?_⟩
  · have hreadable : ∀ line ∈ Text.lines (String.ofList twoTests).toList,
        Journal.Readable line := by
      rw [String.toList_ofList]
      decide +kernel
    rcases (replayed_calls htext).1 hreadable with ⟨client, hclient, hlength, hanswers, -⟩
    rw [String.toList_ofList] at hanswers
    refine ⟨client, hclient, ?_⟩
    intro answers
    refine ⟨hlength _, ?_, ?_, ?_⟩
    · have hzero := hanswers [] (.get "a" "/x") [.post "b" "/" (.nat 1), .get "a" "/", .get "b" "/",
        .get "a" "/"]
      have hlast : ((Journal.entriesOf (Text.lines twoTests)).last? "a" 0).map (·.call.id) =
          some "again" := by
        decide +kernel
      rcases Journal.reply_id _ _ _ hlast with ⟨call, hcall, hid⟩
      exact ⟨call, hzero.trans (congrArg some hcall), hid⟩
    · have htwo := hanswers [.get "a" "/x", .post "b" "/" (.nat 1)] (.get "a" "/") [.get "b" "/",
        .get "a" "/"]
      have hnone : (Journal.entriesOf (Text.lines twoTests)).last? "a" 1 = none := by
        decide +kernel
      have hmiss : (Journal.entriesOf (Text.lines twoTests)).reply "a" 1 =
          .error (.notJournaled "a" 1) := by
        rw [Journal.reply, hnone]
      exact htwo.trans (congrArg some hmiss)
    · have hfour := hanswers [.get "a" "/x", .post "b" "/" (.nat 1), .get "a" "/", .get "b" "/"]
        (.get "a" "/") []
      have hlast : ((Journal.entriesOf (Text.lines twoTests)).last? "a" 2).map (·.call.id) =
          some "third" := by
        decide +kernel
      rcases Journal.reply_id _ _ _ hlast with ⟨call, hcall, hid⟩
      exact ⟨call, hfour.trans (congrArg some hcall), hid⟩
  · have hbroken : ∃ line ∈ Text.lines (String.ofList (twoTests ++ ['c'])).toList,
        ¬ Journal.Readable line := by
      rw [String.toList_ofList]
      exact ⟨['c'], by decide +kernel, by decide +kernel⟩
    rcases (replayed_calls hcut).2 hbroken with ⟨line, hfound, -, hload, -⟩
    rw [String.toList_ofList] at hfound hload
    have hplace : Journal.firstBroken (Text.lines (twoTests ++ ['c'])) = 5 := by decide +kernel
    have hline : (Text.lines (twoTests ++ ['c']))[5]? = some ['c'] := by decide +kernel
    rw [hplace, hline] at hfound
    cases hfound
    rw [hplace] at hload
    exact hload

end TraceAudit
