import TraceAudit.Call.Journal
import TraceAudit.Proofs.Call.Answers
import TraceAudit.Proofs.Json.OneLine
import TraceAudit.Proofs.Json.Written
import TraceAudit.Proofs.Time.Written

/-!
# Calls survive the journal

A call is read from many notations and written in one. What is written is on one line, and reading
it gives the same call.

* `TestCall.Proper` holds of every call that was read (`TestCall.proper_of_ofText?`): its times can
  be written and its status code has 16 bits;
* `TestCall.reads_toJson` takes the text of a written call apart, `TestCall.Proper.ofTree?_tree`
  gets the call back from the parts;
* `recorded_call_survives` puts them together;
* `Journal.ofText_again` goes on from calls to whole journals.
-/

namespace TraceAudit

/-! ## What the members are read as -/

namespace JsonTree

theorem natural?_ofNat {n max : Nat} (hn : n ≤ max) (hmax : max ≤ Decimal.maxU64) :
    natural? max (.number (.ofNat n)) = some n := by
  have hword : n ≤ Decimal.maxU64 := hn.trans hmax
  have hvalue : (Numeral.ofNat n).value? = some (.int n) := by
    simp [Numeral.value?, Numeral.ofNat, Numeral.isPlain, Decimal.valueOf_repr, hword,
      -Nat.toList_repr]
  simp [natural?, hvalue, hn]

theorem le_of_natural? {max n : Nat} {tree : JsonTree} (h : tree.natural? max = some n) :
    n ≤ max := by
  unfold natural? at h
  split at h
  · split at h
    · split at h
      · rename_i hrange
        cases h
        omega
      · cases h
    · cases h
  · cases h

theorem optional?_eq_some {α : Type} {read : JsonTree → Option α} {tree : JsonTree} {a : α}
    (h : tree.optional? read = some (some a)) : read tree = some a := by
  unfold optional? at h
  split at h
  · cases h
  · simpa using h

theorem optional?_of_ne_null {α : Type} {read : JsonTree → Option α} {tree : JsonTree} {a : α}
    (hnull : tree ≠ .null) (h : read tree = some a) : tree.optional? read = some (some a) := by
  cases tree with
  | null => exact absurd rfl hnull
  | _ => simp [optional?, h]

theorem list?_map {α : Type} {read : JsonTree → Option α} {write : α → JsonTree}
    (h : ∀ a, read (write a) = some a) (items : List α) :
    list? read (.array (items.map write)) = some items := by
  have hread : read ∘ write = fun a => pure a := funext h
  rw [list?, List.mapM_map, hread, List.mapM_pure, List.map_id']
  rfl

end JsonTree

namespace Fields

variable {α : Type} {fields : Fields} {key : String} {position : Nat} {read : JsonTree → Option α}

theorem exists_of_required? {a : α} (h : fields.required? key position read = some a) :
    ∃ tree, read tree = some a := by
  rcases Option.bind_eq_some_iff.1 h with ⟨found, -, h⟩
  rcases Option.bind_eq_some_iff.1 h with ⟨tree, -, h⟩
  exact ⟨tree, h⟩

theorem exists_of_default? {a default : α}
    (h : fields.default? key position read default = some a) :
    a = default ∨ ∃ tree, read tree = some a := by
  rcases Option.bind_eq_some_iff.1 h with ⟨found, -, h⟩
  cases found with
  | none =>
    cases h
    exact Or.inl rfl
  | some tree => exact Or.inr ⟨tree, h⟩

theorem exists_of_keyedDefault? {a default : α}
    (h : fields.keyedDefault? key position read default = some a) :
    a = default ∨ ∃ tree, read tree = some a := by
  cases fields with
  | keyed members => exact exists_of_default? h
  | positional items => exact Or.inr (exists_of_required? h)

end Fields

open Reader

/-! ## Replies -/

namespace Reply

/-- What is true of every reply that was read: the status code has 16 bits. -/
def Proper (r : Reply) : Prop := ∀ n ∈ r.statusCode, n ≤ 65535

theorem proper_of_ofTree? {tree : JsonTree} {r : Reply} (h : ofTree? tree = some r) : r.Proper := by
  rcases Option.bind_eq_some_iff.1 h with ⟨fields, -, h⟩
  rcases Option.bind_eq_some_iff.1 h with ⟨statusCode, hstatus, h⟩
  rcases Option.bind_eq_some_iff.1 h with ⟨headers, -, h⟩
  rcases Option.bind_eq_some_iff.1 h with ⟨body, -, h⟩
  rcases Option.bind_eq_some_iff.1 h with ⟨error, -, h⟩
  cases h
  intro n hn
  cases Option.mem_def.1 hn
  rcases Fields.exists_of_keyedDefault? hstatus with hnone | ⟨tree, htree⟩
  · cases hnone
  · exact JsonTree.le_of_natural? (JsonTree.optional?_eq_some htree)

def headerTree (header : String × String) : JsonTree :=
  .array [.string (some header.1), .string (some header.2)]

/-- The text of a written reply, taken apart. -/
def tree (r : Reply) : JsonTree :=
  .object <|
    (r.statusCode.map fun n => (some "status_code", .number (.ofNat n))).toList ++
    [ (some "headers", .array (r.headers.map headerTree)),
      (some "body", .string (some r.body)) ] ++
    (r.error.map fun e => (some "error", .string (some e))).toList

theorem reads_toJson (r : Reply) : Reads r.toJson.compactText r.tree := by
  have hheader (p : String × String) :
      Reads (Json.arr [.str p.1, .str p.2]).compactText (headerTree p) :=
    reads_arr (.cons (reads_str p.1).inside (.cons (reads_str p.2).inside .nil))
  have hheaders := reads_arr (allRead_map (fun p => (hheader p).inside) r.headers)
  refine reads_obj (List.rel_append (List.rel_append ?_ ?_) ?_)
  · exact readsMember_optional fun n => ⟨rfl, readsInside_nat n⟩
  · exact .cons ⟨rfl, hheaders.inside⟩ (.cons ⟨rfl, (reads_str r.body).inside⟩ .nil)
  · exact readsMember_optional fun e => ⟨rfl, (reads_str e).inside⟩

theorem Proper.ofTree?_tree {r : Reply} (h : r.Proper) : ofTree? r.tree = some r := by
  rcases r with ⟨statusCode, headers, body, error⟩
  have hheader (p : String × String) : JsonTree.pair? (headerTree p) = some p := rfl
  have hheaders := JsonTree.list?_map hheader headers
  -- Which keys there are depends on the two members that may be left out.
  cases statusCode with
  | none =>
    cases error <;> simp [ofTree?, tree, Fields.ofTree?, Fields.keyedDefault?, Fields.default?,
      Fields.get?, JsonTree.optional?, JsonTree.text?, hheaders]
  | some n =>
    have hstatus := JsonTree.natural?_ofNat (h n rfl) (by decide)
    cases error <;> simp [ofTree?, tree, Fields.ofTree?, Fields.keyedDefault?, Fields.default?,
      Fields.get?, JsonTree.optional?, JsonTree.text?, hheaders, hstatus]

end Reply

/-! ## Calls -/

namespace TestCall

/-- What is true of every call that was read. -/
structure Proper (c : TestCall) : Prop where
  times : ∀ t ∈ c.times, t.Proper
  reply : ∀ r ∈ c.reply, r.Proper

theorem proper_of_time? {tree : JsonTree} {t : Timestamp} (h : time? tree = some t) : t.Proper := by
  rcases Option.bind_eq_some_iff.1 h with ⟨text, -, h⟩
  exact Timestamp.proper_of_read (Timestamp.ofText?_eq_some.1 h)

theorem proper_of_ofTree? {tree : JsonTree} {c : TestCall} (h : ofTree? tree = some c) :
    c.Proper := by
  rcases Option.bind_eq_some_iff.1 h with ⟨fields, -, h⟩
  rcases Option.bind_eq_some_iff.1 h with ⟨id, -, h⟩
  rcases Option.bind_eq_some_iff.1 h with ⟨method, -, h⟩
  rcases Option.bind_eq_some_iff.1 h with ⟨path, -, h⟩
  rcases Option.bind_eq_some_iff.1 h with ⟨issuedAt, hissued, h⟩
  rcases Option.bind_eq_some_iff.1 h with ⟨completedAt, hcompleted, h⟩
  rcases Option.bind_eq_some_iff.1 h with ⟨reply, hreply, h⟩
  cases h
  constructor
  · intro t ht
    rcases List.mem_cons.1 ht with rfl | ht
    · rcases Fields.exists_of_required? hissued with ⟨tree, htree⟩
      exact proper_of_time? htree
    · cases Option.mem_toList.1 ht
      rcases Fields.exists_of_default? hcompleted with hnone | ⟨tree, htree⟩
      · cases hnone
      · exact proper_of_time? (JsonTree.optional?_eq_some htree)
  · intro r hr
    cases Option.mem_def.1 hr
    rcases Fields.exists_of_default? hreply with hnone | ⟨tree, htree⟩
    · cases hnone
    · exact Reply.proper_of_ofTree? (JsonTree.optional?_eq_some htree)

/-- The text of a written call, taken apart. -/
def tree (c : TestCall) : JsonTree :=
  .object <|
    [ (some "id", .string (some c.id)),
      (some "method", .string (some c.method)),
      (some "path", .string (some c.path)),
      (some "issued_at", .string (some c.issuedAt.render)),
      (some "completed_at", (c.completedAt.map fun t => .string (some t.render)).getD .null) ] ++
    (c.reply.map fun r => (some "response", r.tree)).toList

theorem reads_toJson (c : TestCall) : Reads c.toJson.compactText c.tree := by
  have hcompleted : Reads
      (Json.ofOption (fun t => .str (Timestamp.render t)) c.completedAt).compactText
      ((c.completedAt.map fun t => .string (some t.render)).getD .null) := by
    cases c.completedAt with
    | none => exact reads_null
    | some t => exact reads_str t.render
  refine reads_obj (List.rel_append ?_ ?_)
  · exact .cons ⟨rfl, (reads_str c.id).inside⟩ <| .cons ⟨rfl, (reads_str c.method).inside⟩ <|
      .cons ⟨rfl, (reads_str c.path).inside⟩ <| .cons ⟨rfl, (reads_str c.issuedAt.render).inside⟩ <|
      .cons ⟨rfl, hcompleted.inside⟩ .nil
  · exact readsMember_optional fun r => ⟨rfl, r.reads_toJson.inside⟩

theorem time?_render {t : Timestamp} (h : t.Proper) :
    time? (.string (some t.render)) = some t := by
  have hread := Timestamp.ofText?_eq_some.2 h.read_render
  simp [time?, JsonTree.text?, hread]

theorem Proper.ofTree?_tree {c : TestCall} (h : c.Proper) : ofTree? c.tree = some c := by
  rcases c with ⟨id, method, path, issuedAt, completedAt, reply⟩
  have hissued := time?_render (h.times issuedAt List.mem_cons_self)
  have hcompleted : JsonTree.optional? time?
      ((completedAt.map fun t => .string (some t.render)).getD .null) = some completedAt := by
    cases completedAt with
    | none => rfl
    | some t =>
      have ht := h.times t (List.mem_cons_of_mem issuedAt (Option.mem_toList.2 rfl))
      exact JsonTree.optional?_of_ne_null nofun (time?_render ht)
  have hreply : ∀ r ∈ reply, JsonTree.optional? Reply.ofTree? r.tree = some (some r) :=
    fun r hr => JsonTree.optional?_of_ne_null nofun (h.reply r hr).ofTree?_tree
  cases reply with
  | none =>
    simp [ofTree?, tree, Fields.ofTree?, Fields.required?, Fields.default?, Fields.get?,
      JsonTree.text?, hissued, hcompleted]
  | some r =>
    simp [ofTree?, tree, Fields.ofTree?, Fields.required?, Fields.default?, Fields.get?,
      JsonTree.text?, hissued, hcompleted, hreply r rfl]

/-! ## The round trip -/

theorem Proper.isWritable {c : TestCall} (h : c.Proper) :
    c.times.all Timestamp.isWritable = true := by
  rw [List.all_eq_true]
  intro t ht
  have ht := h.times t ht
  simp [Timestamp.isWritable, ht.year, ht.offset]

theorem Proper.text?_eq {c : TestCall} (h : c.Proper) : c.text? = some c.toJson.compactText := by
  rw [text?, if_pos h.isWritable]

theorem Proper.ofText?_compactText {c : TestCall} (h : c.Proper) :
    ofText? c.toJson.compactText = some c := by
  have hread := JsonTree.read_of_reads c.reads_toJson
  simp [ofText?, hread, h.ofTree?_tree]

theorem proper_of_ofText? {text : List Char} {c : TestCall} (h : ofText? text = some c) :
    c.Proper := by
  rcases Option.bind_eq_some_iff.1 h with ⟨tree, -, h⟩
  exact proper_of_ofTree? h

end TestCall

/-- Whatever text a call was read from, it can be written, and what is written is a single line that
is read as the same call. So the call keeps its window, and is written the same the next time. -/
theorem recorded_call_survives {text : List Char} {c : TestCall}
    (h : TestCall.ofText? text = some c) :
    ∃ written, c.text? = some written ∧
      ('\n' ∉ written ∧ '\r' ∉ written ∧ Text.lines written = [written]) ∧
      TestCall.ofText? written = some c ∧
      ∀ back, TestCall.ofText? written = some back →
        back.window? = c.window? ∧ back.text? = some written := by
  have hproper := TestCall.proper_of_ofText? h
  have hnoControl := Json.hasNoControl_compactText c.toJson
  have hfeed := hnoControl.notMem (c := '\n') (by decide)
  have hreturn := hnoControl.notMem (c := '\r') (by decide)
  have hne : c.toJson.compactText ≠ [] := List.cons_ne_nil _ _
  have hback := hproper.ofText?_compactText
  refine ⟨c.toJson.compactText, hproper.text?_eq,
    ⟨hfeed, hreturn, Text.lines_of_notMem hne hfeed⟩, hback, ?_⟩
  -- There is only one call to be read, so what follows is about the same call.
  intro back hread
  rw [hback] at hread
  cases hread
  exact ⟨rfl, hproper.text?_eq⟩

/-- A call in the form of an array. It was issued in a leap second west of Greenwich and completed
east of it, with a fraction of more than nine digits, and its id holds line ends. -/
def leapSecondText : List Char :=
  "[\"a\\n\\u000db\", \"GET\", \"/\\u00e9\", \"1990-12-31t15:59:60.25-08:00\",".toList ++
    "\"1991-01-01 05:30:00.12345678999+05:30\", [null, [[\"k\", \"v\"]], \"\\t\", \"no\"]]".toList

def leapSecondCall : TestCall :=
  { id := "a\n\rb"
    method := "GET"
    path := "/é"
    issuedAt := ⟨1990, 12, 31, 15, 59, 59, 999999999, -480⟩
    completedAt := some ⟨1991, 1, 1, 5, 30, 0, 123456789, 330⟩
    reply := some ⟨none, [("k", "v")], "\t", some "no"⟩ }

theorem recorded_call_survives_leap_second :
    TestCall.ofText? leapSecondText = some leapSecondCall ∧
      ∃ written, leapSecondCall.text? = some written ∧
        ('\n' ∉ written ∧ '\r' ∉ written ∧ Text.lines written = [written]) ∧
        TestCall.ofText? written = some leapSecondCall ∧
        ∀ back, TestCall.ofText? written = some back →
          back.window? = leapSecondCall.window? ∧ back.text? = some written := by
  have hread : TestCall.ofText? leapSecondText = some leapSecondCall := by decide +kernel
  exact ⟨hread, recorded_call_survives hread⟩

/-! ## Journals -/

namespace JournalEntry

/-- What is true of every entry that was read. -/
structure Proper (e : JournalEntry) : Prop where
  index : e.index ≤ Decimal.maxU64
  call : e.call.Proper

theorem proper_of_ofText? {line : List Char} {e : JournalEntry} (h : ofText? line = some e) :
    e.Proper := by
  rcases Option.bind_eq_some_iff.1 h with ⟨tree, -, h⟩
  rcases Option.bind_eq_some_iff.1 h with ⟨fields, -, h⟩
  rcases Option.bind_eq_some_iff.1 h with ⟨testId, -, h⟩
  rcases Option.bind_eq_some_iff.1 h with ⟨index, hindex, h⟩
  rcases Option.bind_eq_some_iff.1 h with ⟨call, hcall, h⟩
  cases h
  rcases Fields.exists_of_required? hindex with ⟨indexTree, hindex⟩
  rcases Fields.exists_of_required? hcall with ⟨callTree, hcall⟩
  exact ⟨JsonTree.le_of_natural? hindex, TestCall.proper_of_ofTree? hcall⟩

theorem Proper.text?_eq {e : JournalEntry} (h : e.Proper) :
    e.text? = some e.toJson.compactText := by
  rw [text?, if_pos h.call.isWritable]

theorem Proper.ofText?_compactText {e : JournalEntry} (h : e.Proper) :
    ofText? e.toJson.compactText = some e := by
  have hreads : Reads e.toJson.compactText (.object [(some "test_id", .string (some e.testId)),
      (some "index", .number (.ofNat e.index)), (some "request", e.call.tree)]) :=
    reads_obj <| .cons ⟨rfl, (reads_str e.testId).inside⟩ <| .cons ⟨rfl, readsInside_nat e.index⟩ <|
      .cons ⟨rfl, e.call.reads_toJson.inside⟩ .nil
  have hindex := JsonTree.natural?_ofNat h.index le_rfl
  simp [ofText?, JsonTree.read_of_reads hreads, Fields.ofTree?, Fields.required?, Fields.get?,
    JsonTree.text?, hindex, h.call.ofTree?_tree]

end JournalEntry

namespace Journal

theorem isBlankLine_compactText (e : JournalEntry) : isBlankLine e.toJson.compactText = false := by
  have htrim : Text.trim e.toJson.compactText = e.toJson.compactText := by
    refine Text.trim_eq_self_of_ends ?_ ?_
    · rintro c ⟨⟩
      rfl
    · intro c hc
      rw [JournalEntry.toJson, Json.compactText, List.getLast?_concat] at hc
      cases hc
      rfl
  rw [isBlankLine, htrim]
  rfl

theorem ofLines_written {journal : Journal} (h : ∀ e ∈ journal, e.Proper) (number : Nat) :
    ofLines number (journal.map fun e => e.toJson.compactText) = .ok journal := by
  induction journal generalizing number with
  | nil => rfl
  | cons e rest ih =>
    have he := (h e List.mem_cons_self).ofText?_compactText
    rw [List.map_cons, ofLines_entry (isBlankLine_compactText e) he,
      ih fun e' he' => h e' (List.mem_cons_of_mem e he')]
    rfl

theorem ofText_written {journal : Journal} (h : ∀ e ∈ journal, e.Proper) :
    ∃ text, journal.text? = some text ∧ ofText text = .ok journal := by
  have hlines : journal.mapM JournalEntry.text? =
      some (journal.map fun e => e.toJson.compactText) := by
    induction journal with
    | nil => rfl
    | cons e rest ih =>
      have he := (h e List.mem_cons_self).text?_eq
      have hrest := ih fun e' he' => h e' (List.mem_cons_of_mem e he')
      simp [List.mapM_cons, he, hrest]
  -- No line has an end of its own, so the lines of the text are those of the entries.
  have hclean : ∀ line ∈ journal.map fun e => e.toJson.compactText,
      '\n' ∉ line ∧ '\r' ∉ line := by
    intro line hline
    rcases List.mem_map.1 hline with ⟨e, -, rfl⟩
    have hnoControl := Json.hasNoControl_compactText e.toJson
    exact ⟨hnoControl.notMem (by decide), hnoControl.notMem (by decide)⟩
  refine ⟨_, by rw [text?, hlines]; rfl, ?_⟩
  rw [ofText, Text.lines_ended hclean, ofLines_written h]

theorem proper_of_ofLines {number : Nat} {lines : List (List Char)} {journal : Journal}
    (h : ofLines number lines = .ok journal) : ∀ e ∈ journal, e.Proper := by
  induction lines generalizing number journal with
  | nil =>
    cases h
    simp
  | cons line rest ih =>
    rw [ofLines] at h
    split at h
    · exact ih h
    · split at h
      · cases h
      · rename_i entry hentry
        rcases bind_eq_ok.1 h with ⟨entries, hrest, h⟩
        cases h
        exact List.forall_mem_cons.2 ⟨JournalEntry.proper_of_ofText? hentry, ih hrest⟩

/-- A journal that was read is written again without its blank lines, and read back. -/
theorem ofText_again {text : List Char} {journal : Journal} (h : ofText text = .ok journal) :
    ∃ written, journal.text? = some written ∧ ofText written = .ok journal :=
  ofText_written (proper_of_ofLines h)

end Journal
end TraceAudit
