import Mathlib.Data.List.Forall2
import TraceAudit.Proofs.Json.Members
import TraceAudit.Proofs.Trace.Numeral

/-!
# Three ways to write the same spans

The decoders of the three formats have little in common, but they read the same spans out of all
payloads that say the same.

* `TracedSpan` is a span as its tracer knows it, `TracedSpan.span` what is to be decoded of it;
* `WritesObject` and `WritesRow` are the two written forms of a span, with all the choices that a
  writer has, and `WritesV04`, `WritesV05` and `WritesAgentV02` those of a payload;
* `WritesObject.decode` and `WritesRow.decode` read one span, `decodeSpans_written` any payload.
-/

namespace TraceAudit

/-- A finite map, by its entries in the order of their keys. -/
structure Dictionary (α : Type) where
  entries : List (String × α)
  ordered : Members.Ordered entries

/-- A span as its tracer knows it. A parent id of zero stands for no parent, an empty type for
none. -/
structure TracedSpan where
  traceId : UInt64
  spanId : UInt64
  parentId : UInt64
  service : String
  name : String
  resource : String
  kind : String
  start : Int64
  duration : Int64
  error : Int64
  tags : Dictionary String
  metrics : Dictionary Number

/-- The decoded span, without the value that it is decoded from. -/
def TracedSpan.span (t : TracedSpan) : Span where
  traceId := t.traceId.toNat
  spanId := t.spanId.toNat
  parentId := if t.parentId = 0 then none else some t.parentId.toNat
  service := t.service
  name := t.name
  resource := t.resource
  kind := if t.kind = "" then none else some t.kind
  start := t.start.toInt
  duration := t.duration.toInt
  error := t.error.toInt
  tags := t.tags.entries
  metrics := t.metrics.entries.map fun (key, number) => (key, number.toDouble)
  raw := .null

def Span.withoutRaw (s : Span) : Span := { s with raw := .null }

/-! ## Written forms -/

/-- An array with one written value for each item. -/
def WritesArray {α : Type} (writes : α → Json → Prop) (items : List α) (v : Json) : Prop :=
  ∃ values, v = .arr values ∧ List.Forall₂ writes items values

/-- An object with the members of a span, and possibly others. -/
structure WritesObject (keys : IdKeys) (t : TracedSpan) (obj : Json) : Prop where
  traceId : ∃ v, obj.get? keys.traceId = some v ∧ WritesId t.traceId v
  spanId : ∃ v, obj.get? keys.spanId = some v ∧ WritesId t.spanId v
  parentId : ∃ v, obj.get? keys.parentId = some v ∧ WritesId t.parentId v
  service : obj.get? "service" = some (.str t.service)
  name : obj.get? "name" = some (.str t.name)
  resource : obj.get? "resource" = some (.str t.resource)
  kind : obj.get? "type" = some (.str t.kind)
  start : obj.get? "start" = some (Json.int t.start.toInt)
  duration : obj.get? "duration" = some (Json.int t.duration.toInt)
  error : obj.get? "error" = some (Json.int t.error.toInt)
  tags : obj.get? "meta" = some (.obj (t.tags.entries.map fun (k, text) => (k, .str text)))
  metrics : obj.get? "metrics" =
    some (.obj (t.metrics.entries.map fun (k, number) => (k, .num number)))

/-- The index of some entry of the table with this text. -/
def WritesIndex (table : List String) (text : String) (v : Json) : Prop :=
  ∃ i, table[i]? = some text ∧ i < Word.count64 ∧ v = Json.nat i

/-- The same index as the key of a member. -/
def WritesKey (table : List String) (text : String) (key : String) : Prop :=
  ∃ i, table[i]? = some text ∧ i < Word.count64 ∧ key = toString i

/-- An object whose keys are indices, its members in any order. -/
def WritesMembers {α : Type} (table : List String) (writes : α → Json → Prop) (d : Dictionary α)
    (v : Json) : Prop :=
  ∃ pairs members, v = .obj members ∧ pairs.Perm d.entries ∧
    List.Forall₂ (fun (p : String × α) m => WritesKey table p.1 m.1 ∧ writes p.2 m.2) pairs members

/-- A row of twelve fields, its texts written as indices. -/
inductive WritesRow (table : List String) (t : TracedSpan) : Json → Prop
  | row {service name resource traceId spanId parentId tags metrics kind : Json} :
      WritesIndex table t.service service → WritesIndex table t.name name →
      WritesIndex table t.resource resource → WritesId t.traceId traceId →
      WritesId t.spanId spanId → WritesId t.parentId parentId →
      WritesMembers table (WritesIndex table) t.tags tags →
      WritesMembers table (fun number v => v = .num number) t.metrics metrics →
      WritesIndex table t.kind kind →
      WritesRow table t (.arr [service, name, resource, traceId, spanId, parentId,
        Json.int t.start.toInt, Json.int t.duration.toInt, Json.int t.error.toInt, tags, metrics,
        kind])

def WritesV04 (traces : List (List TracedSpan)) (payload : Json) : Prop :=
  WritesArray (WritesArray (WritesObject .library)) traces payload

def WritesV05 (traces : List (List TracedSpan)) (payload : Json) : Prop :=
  ∃ table v, payload = .arr [.arr (table.map .str), v] ∧
    WritesArray (WritesArray (WritesRow table)) traces v

/-- An object with an array under a key. -/
def WritesMember {α : Type} (key : String) (writes : α → Json → Prop) (items : List α)
    (obj : Json) : Prop :=
  ∃ v, obj.get? key = some v ∧ WritesArray writes items v

/-- The spans of the traces are dealt out in their order, to tracers and to chunks of theirs. -/
def WritesAgentV02 (traces : List (List TracedSpan)) (payload : Json) : Prop :=
  ∃ groups : List (List (List TracedSpan)), groups.flatten.flatten = traces.flatten ∧
    WritesMember "tracerPayloads"
      (WritesMember "chunks" (WritesMember "spans" (WritesObject .agent))) groups payload

/-- A span as an object, with its ids as they are given. -/
def TracedSpan.object (t : TracedSpan) (keys : IdKeys) (traceId spanId parentId : Json) : Json :=
  .obj
    [ (keys.traceId, traceId),
      (keys.spanId, spanId),
      (keys.parentId, parentId),
      ("service", .str t.service),
      ("name", .str t.name),
      ("resource", .str t.resource),
      ("type", .str t.kind),
      ("start", Json.int t.start.toInt),
      ("duration", Json.int t.duration.toInt),
      ("error", Json.int t.error.toInt),
      ("meta", .obj (t.tags.entries.map fun (k, text) => (k, .str text))),
      ("metrics", .obj (t.metrics.entries.map fun (k, number) => (k, .num number))) ]

/-- Every span has a written form, with each notation of its ids. -/
theorem TracedSpan.object_written (t : TracedSpan) {keys : IdKeys}
    (hkeys : keys = .library ∨ keys = .agent) {traceId spanId parentId : Json}
    (htrace : WritesId t.traceId traceId) (hspan : WritesId t.spanId spanId)
    (hparent : WritesId t.parentId parentId) :
    WritesObject keys t (t.object keys traceId spanId parentId) := by
  rcases hkeys with rfl | rfl
  · exact ⟨⟨_, rfl, htrace⟩, ⟨_, rfl, hspan⟩, ⟨_, rfl, hparent⟩, rfl, rfl, rfl, rfl, rfl, rfl, rfl,
      rfl, rfl⟩
  · exact ⟨⟨_, rfl, htrace⟩, ⟨_, rfl, hspan⟩, ⟨_, rfl, hparent⟩, rfl, rfl, rfl, rfl, rfl, rfl, rfl,
      rfl, rfl⟩

/-! ## One span -/

theorem parentOf_toNat (id : UInt64) :
    parentOf (some id.toNat) = if id = 0 then none else some id.toNat := by
  by_cases hid : id = 0
  · simp [parentOf, hid]
  · have hne : id.toNat ≠ 0 := fun h => hid (UInt64.toNat_inj.1 h)
    simp [parentOf, hid, hne]

theorem textMember_of_get? {obj : Json} {key text : String}
    (h : obj.get? key = some (.str text)) : textMember obj key = text := by
  simp [textMember, h, Json.asString?]

theorem numberMember_of_get? {obj : Json} {key : String} {i : Int64}
    (h : obj.get? key = some (Json.int i.toInt)) : numberMember obj key = i.toInt := by
  rw [numberMember, h, Option.bind_some, lenientI64?_int, Option.getD_some]

theorem WritesObject.decode {keys : IdKeys} {t : TracedSpan} {obj : Json}
    (h : WritesObject keys t obj) (index : Nat) :
    decodeObject keys index obj = .ok { t.span with raw := obj } := by
  rcases h.traceId with ⟨traceId, htraceMember, htrace⟩
  rcases h.spanId with ⟨spanId, hspanMember, hspan⟩
  rcases h.parentId with ⟨parentId, hparentMember, hparent⟩
  have hobject : obj.isObject = true := by
    cases obj with
    | obj members => rfl
    | _ => cases htraceMember
  have htraceId : requiredId obj index keys.traceId = .ok t.traceId.toNat := by
    simp [requiredId, htraceMember, htrace.spanId?]
  have hspanId : requiredId obj index keys.spanId = .ok t.spanId.toNat := by
    simp [requiredId, hspanMember, hspan.spanId?]
  have hparentId : parentOf ((obj.get? keys.parentId).bind Json.spanId?) = t.span.parentId := by
    rw [hparentMember, Option.bind_some, hparent.spanId?, parentOf_toNat]
    rfl
  have htags : tableMember obj "meta" = t.tags.entries.map fun p => (p.1, .str p.2) := by
    simp [tableMember, h.tags, Json.asObject?]
  have hmetrics : tableMember obj "metrics" = t.metrics.entries.map fun p => (p.1, .num p.2) := by
    simp [tableMember, h.metrics, Json.asObject?]
  rw [decodeObject, htraceId, hspanId, hparentId, htags, hmetrics, textMember_of_get? h.service,
    textMember_of_get? h.name, textMember_of_get? h.resource, textMember_of_get? h.kind,
    numberMember_of_get? h.start, numberMember_of_get? h.duration, numberMember_of_get? h.error]
  simp [hobject, bind, Except.bind, Function.comp_def, List.filterMap_map, Json.tagText,
    Json.asDouble?, TracedSpan.span, kindOf]

section Row

variable {table : List String}

theorem WritesIndex.tableEntry {text : String} {v : Json} (h : WritesIndex table text v) :
    tableEntry table v = .ok text := by
  rcases h with ⟨i, hentry, hlt, rfl⟩
  have hnatural : (Json.nat i).natural? = some i := by simp [Json.nat, Json.natural?]
  have hindex : (Json.nat i).lenientU64? = some i :=
    Json.lenientU64?_eq_some.2 ⟨hnatural, hlt⟩
  rw [TraceAudit.tableEntry, hindex]
  simp [hentry]

theorem WritesKey.keyEntry {text key : String} (h : WritesKey table text key) :
    keyEntry table key = .ok text := by
  rcases h with ⟨i, hentry, hlt, rfl⟩
  have hread : Decimal.u64? (toString i).toList = some i := Decimal.u64?_repr hlt
  rw [TraceAudit.keyEntry, hread, Option.getD_some]
  exact WritesIndex.tableEntry ⟨i, hentry, hlt, rfl⟩

theorem rowTags_written {pairs : List (String × String)} {members : List (String × Json)}
    (h : List.Forall₂ (fun (p : String × String) m =>
      WritesKey table p.1 m.1 ∧ WritesIndex table p.2 m.2) pairs members)
    (acc : List (String × String)) :
    rowTags table acc members =
      .ok (pairs.foldl (fun acc p => Members.insert p.1 p.2 acc) acc) := by
  induction h generalizing acc with
  | nil => rfl
  | @cons p m pairs members hm _ ih =>
    rw [rowTags, hm.1.keyEntry, hm.2.tableEntry]
    exact ih (Members.insert p.1 p.2 acc)

theorem rowMetrics_written {pairs : List (String × Number)} {members : List (String × Json)}
    (h : List.Forall₂ (fun (p : String × Number) m =>
      WritesKey table p.1 m.1 ∧ m.2 = .num p.2) pairs members)
    (acc : List (String × Double)) :
    rowMetrics table acc members =
      .ok ((pairs.map fun (key, number) => (key, number.toDouble)).foldl
        (fun acc p => Members.insert p.1 p.2 acc) acc) := by
  induction h generalizing acc with
  | nil => rfl
  | @cons p m pairs members hm _ ih =>
    rw [rowMetrics, hm.1.keyEntry, hm.2]
    exact ih (Members.insert p.1 p.2.toDouble acc)

theorem WritesRow.decode {t : TracedSpan} {row : Json} (h : WritesRow table t row) (index : Nat) :
    decodeRow table index row = .ok { t.span with raw := row } := by
  cases h with
  | @row service name resource traceId spanId parentId tags metrics kind hservice hname hresource
      htrace hspan hparent htags hmetrics hkind =>
    rcases htags with ⟨tagPairs, tagMembers, rfl, htagOrder, htagPairs⟩
    rcases hmetrics with ⟨metricPairs, metricMembers, rfl, hmetricOrder, hmetricPairs⟩
    -- The members come in the order of their indices and are put back in the order of their texts.
    have htags : rowTags table [] tagMembers = .ok t.span.tags := by
      have hput := Members.ofList_of_perm t.tags.ordered htagOrder
      rw [rowTags_written htagPairs]
      exact congrArg Except.ok hput
    have hmetrics : rowMetrics table [] metricMembers = .ok t.span.metrics := by
      have hordered : Members.Ordered t.span.metrics :=
        List.pairwise_map.2 t.metrics.ordered
      have hput := Members.ofList_of_perm hordered (hmetricOrder.map _)
      rw [rowMetrics_written hmetricPairs]
      exact congrArg Except.ok hput
    have hparentId : parentOf parentId.spanId? = t.span.parentId := by
      rw [hparent.spanId?, parentOf_toNat]
      rfl
    have htraceId : rowId index "trace_id" traceId = .ok t.traceId.toNat := by
      simp [rowId, htrace.spanId?]
    have hspanId : rowId index "span_id" spanId = .ok t.spanId.toNat := by
      simp [rowId, hspan.spanId?]
    simp only [decodeRow, Json.asObject?, Option.getD_some]
    rw [htags, hmetrics, hkind.tableEntry, hservice.tableEntry, hname.tableEntry,
      hresource.tableEntry, htraceId, hspanId, hparentId, lenientI64?_int, lenientI64?_int,
      lenientI64?_int]
    rfl

end Row

/-! ## Many spans -/

section Each

variable {decodeOne : Nat → Json → Except DecodeError Span} {writes : TracedSpan → Json → Prop}

theorem decodeEach_written
    (hone : ∀ index t v, writes t v → decodeOne index v = .ok { t.span with raw := v })
    {spans : List TracedSpan} {values : List Json} (h : List.Forall₂ writes spans values)
    (index : Nat) :
    ∃ found, decodeEach decodeOne index values = .ok found ∧
      found.map Span.withoutRaw = spans.map TracedSpan.span := by
  induction h generalizing index with
  | nil => exact ⟨[], rfl, rfl⟩
  | @cons t v spans values hv _ ih =>
    rcases ih (index + 1) with ⟨found, hfound, hspans⟩
    refine ⟨{ t.span with raw := v } :: found, ?_, ?_⟩
    · rw [decodeEach, hone index t v hv, hfound]
      rfl
    · rw [List.map_cons, hspans]
      rfl

theorem decodeTraces_written
    (hone : ∀ index t v, writes t v → decodeOne index v = .ok { t.span with raw := v })
    {traces : List (List TracedSpan)} {values : List Json}
    (h : List.Forall₂ (WritesArray writes) traces values) (index : Nat) :
    ∃ found, decodeTraces decodeOne index values = .ok found ∧
      found.map Span.withoutRaw = traces.flatten.map TracedSpan.span := by
  induction h generalizing index with
  | nil => exact ⟨[], rfl, rfl⟩
  | @cons trace v traces values hv _ ih =>
    rcases hv with ⟨items, rfl, hitems⟩
    rcases decodeEach_written hone hitems index with ⟨first, hfirst, hfirstSpans⟩
    rcases ih (index + items.length) with ⟨more, hmore, hmoreSpans⟩
    refine ⟨first ++ more, ?_, ?_⟩
    · rw [decodeTraces, hfirst, hmore]
      rfl
    · rw [List.map_append, hfirstSpans, hmoreSpans, List.flatten_cons, List.map_append]

end Each

/-! ## Groups of spans -/

theorem WritesMember.items {α : Type} {key : String} {writes : α → Json → Prop} {items : List α}
    {obj : Json} (h : WritesMember key writes items obj) :
    List.Forall₂ writes items (arrayMember obj key) := by
  rcases h with ⟨v, hmember, values, rfl, hvalues⟩
  simpa [arrayMember, hmember, Json.asArray?] using hvalues

/-- The chunks of one tracer, one after the other. -/
theorem chunkSpans_written {group : List (List TracedSpan)} {obj : Json}
    (h : WritesMember "chunks" (WritesMember "spans" (WritesObject .agent)) group obj) :
    List.Forall₂ (WritesObject .agent) group.flatten (chunkSpans obj) := by
  have hchunks := List.rel_flatMap h.items fun _ _ hchunk => hchunk.items
  simpa [chunkSpans] using hchunks

/-! ## Payloads -/

theorem WritesV04.decode {traces : List (List TracedSpan)} {payload : Json}
    (h : WritesV04 traces payload) :
    ∃ found, decodeSpans .libraryV04 payload = .ok found ∧
      found.map Span.withoutRaw = traces.flatten.map TracedSpan.span := by
  rcases h with ⟨values, rfl, hvalues⟩
  exact decodeTraces_written (fun index _ _ hspan => hspan.decode index) hvalues 0

theorem WritesV05.decode {traces : List (List TracedSpan)} {payload : Json}
    (h : WritesV05 traces payload) :
    ∃ found, decodeSpans .libraryV05 payload = .ok found ∧
      found.map Span.withoutRaw = traces.flatten.map TracedSpan.span := by
  rcases h with ⟨table, v, rfl, values, rfl, hvalues⟩
  have htable : (table.map Json.str).map (fun entry => entry.asString?.getD "") = table := by
    simp [Json.asString?, Function.comp_def]
  simp only [decodeSpans, decodeV05, htable]
  exact decodeTraces_written (fun index _ _ hspan => hspan.decode index) hvalues 0

theorem WritesAgentV02.decode {traces : List (List TracedSpan)} {payload : Json}
    (h : WritesAgentV02 traces payload) :
    ∃ found, decodeSpans .agentV02 payload = .ok found ∧
      found.map Span.withoutRaw = traces.flatten.map TracedSpan.span := by
  rcases h with ⟨groups, hgroups, v, hmember, values, rfl, hvalues⟩
  -- However the spans were dealt out, they are met in their order.
  have hspans : List.Forall₂ (WritesObject .agent) traces.flatten (values.flatMap chunkSpans) := by
    have hpieces : List.Forall₂ (WritesObject .agent) (groups.flatMap List.flatten)
        (values.flatMap chunkSpans) :=
      List.rel_flatMap hvalues fun _ _ hgroup => chunkSpans_written hgroup
    rwa [List.flatMap_def, ← List.flatten_flatten, hgroups] at hpieces
  simp only [decodeSpans, decodeAgentV02, hmember]
  exact decodeEach_written (fun index _ _ hspan => hspan.decode index) hspans 0

/-- However the same traces are written in the three formats, and whatever notation each id has, all
three payloads decode, and to the same spans: those of the traces, in their order. -/
theorem decodeSpans_written {traces : List (List TracedSpan)} {objects rows chunks : Json}
    (hobjects : WritesV04 traces objects) (hrows : WritesV05 traces rows)
    (hchunks : WritesAgentV02 traces chunks) :
    ∃ a b c, decodeSpans .libraryV04 objects = .ok a ∧ decodeSpans .libraryV05 rows = .ok b ∧
      decodeSpans .agentV02 chunks = .ok c ∧
      a.map Span.withoutRaw = traces.flatten.map TracedSpan.span ∧
      b.map Span.withoutRaw = traces.flatten.map TracedSpan.span ∧
      c.map Span.withoutRaw = traces.flatten.map TracedSpan.span := by
  rcases hobjects.decode with ⟨a, ha, hspansA⟩
  rcases hrows.decode with ⟨b, hb, hspansB⟩
  rcases hchunks.decode with ⟨c, hc, hspansC⟩
  exact ⟨a, b, c, ha, hb, hc, hspansA, hspansB, hspansC⟩

/-- A root span whose trace id is minus one by its bits. -/
def rootSpan : TracedSpan where
  traceId := 18446744073709551615
  spanId := 7
  parentId := 0
  service := "web"
  name := "get"
  resource := "/"
  kind := ""
  start := -1
  duration := 5
  error := 0
  tags := ⟨[("env", "web"), ("url", "/")], by decide⟩
  metrics := ⟨[("env", .int 2)], by decide⟩

/-- A child of it with a type. -/
def childSpan : TracedSpan :=
  { rootSpan with spanId := 9, parentId := 7, kind := "get" }

/-- The two spans as rows: the table holds one text twice, and the members are not in the order of
their texts. -/
def familyRows : Json :=
  let tags := Json.obj [("1", Json.nat 3), ("4", Json.nat 2)]
  let metrics := Json.obj [("4", .num (.int 2))]
  .arr [.arr (["", "url", "web", "/", "env", "get", "web"].map .str),
    .arr
      [.arr [.arr [Json.nat 2, Json.nat 5, Json.nat 3, .str "-1", Json.nat 7, Json.nat 0,
        Json.int (-1), Json.int 5, Json.int 0, tags, metrics, Json.nat 0]],
      .arr [.arr [Json.nat 6, Json.nat 5, Json.nat 3, Json.int (-1), .str "9", .str "7",
        Json.int (-1), Json.int 5, Json.int 0, tags, metrics, Json.nat 5]]]]

theorem familyRows_written : WritesV05 [[rootSpan], [childSpan]] familyRows := by
  let table := ["", "url", "web", "/", "env", "get", "web"]
  have hbound : 7 < Word.count64 := by decide
  have hindex : ∀ i < 7, ∀ text, table[i]? = some text → WritesIndex table text (Json.nat i) :=
    fun i hi text htext => ⟨i, htext, hi.trans hbound, rfl⟩
  have hkey : ∀ i < 7, ∀ text, table[i]? = some text → WritesKey table text (toString i) :=
    fun i hi text htext => ⟨i, htext, hi.trans hbound, rfl⟩
  have htags : WritesMembers table (WritesIndex table) rootSpan.tags
      (.obj [("1", Json.nat 3), ("4", Json.nat 2)]) := by
    refine ⟨[("url", "/"), ("env", "web")], _, rfl, List.Perm.swap _ _ _, ?_⟩
    exact .cons ⟨hkey 1 (by decide) _ rfl, hindex 3 (by decide) _ rfl⟩
      (.cons ⟨hkey 4 (by decide) _ rfl, hindex 2 (by decide) _ rfl⟩ .nil)
  have hmetrics : WritesMembers table (fun number v => v = .num number) rootSpan.metrics
      (.obj [("4", .num (.int 2))]) :=
    ⟨_, _, rfl, List.Perm.refl _, .cons ⟨hkey 4 (by decide) _ rfl, rfl⟩ .nil⟩
  have hroot : WritesRow table rootSpan _ :=
    .row (hindex 2 (by decide) _ rfl) (hindex 5 (by decide) _ rfl) (hindex 3 (by decide) _ rfl)
      .signedText .unsigned .unsigned htags hmetrics (hindex 0 (by decide) _ rfl)
  have hchild : WritesRow table childSpan _ :=
    .row (hindex 6 (by decide) _ rfl) (hindex 5 (by decide) _ rfl) (hindex 3 (by decide) _ rfl)
      .signed .unsignedText .unsignedText htags hmetrics (hindex 5 (by decide) _ rfl)
  exact ⟨table, _, rfl, _, rfl, .cons ⟨_, rfl, .cons hroot .nil⟩
    (.cons ⟨_, rfl, .cons hchild .nil⟩ .nil)⟩

/-- The two spans in different notations: as objects, as rows, and both in one chunk. -/
theorem decodeSpans_written_family :
    let objects := Json.arr
      [.arr [rootSpan.object .library (Json.nat 18446744073709551615) (.str "7") (Json.nat 0)],
        .arr [childSpan.object .library (.str "-1") (Json.nat 9) (Json.nat 7)]]
    let chunks := Json.obj [("tracerPayloads", .arr [.obj [("chunks", .arr [.obj [("spans", .arr
      [rootSpan.object .agent (.str "18446744073709551615") (Json.nat 7) (Json.nat 0),
        childSpan.object .agent (Json.int (-1)) (Json.nat 9) (.str "7")])]])]])]
    ∃ a b c, decodeSpans .libraryV04 objects = .ok a ∧ decodeSpans .libraryV05 familyRows = .ok b ∧
      decodeSpans .agentV02 chunks = .ok c ∧
      a.map Span.withoutRaw = [rootSpan.span, childSpan.span] ∧
      b.map Span.withoutRaw = [rootSpan.span, childSpan.span] ∧
      c.map Span.withoutRaw = [rootSpan.span, childSpan.span] := by
  intro objects chunks
  have hobjects : WritesV04 [[rootSpan], [childSpan]] objects :=
    ⟨_, rfl, .cons ⟨_, rfl, .cons (rootSpan.object_written (Or.inl rfl) .unsigned .unsignedText
      .unsigned) .nil⟩ (.cons ⟨_, rfl, .cons (childSpan.object_written (Or.inl rfl) .signedText
      .unsigned .unsigned) .nil⟩ .nil)⟩
  have hchunks : WritesAgentV02 [[rootSpan], [childSpan]] chunks := by
    refine ⟨[[[rootSpan, childSpan]]], rfl, _, rfl, _, rfl, .cons ⟨_, rfl, _, rfl, .cons
      ⟨_, rfl, _, rfl, .cons ?_ (.cons ?_ .nil)⟩ .nil⟩ .nil⟩
    · exact rootSpan.object_written (Or.inr rfl) .unsignedText .unsigned .unsigned
    · exact childSpan.object_written (Or.inr rfl) .signed .unsigned .unsignedText
  exact decodeSpans_written hobjects familyRows_written hchunks

end TraceAudit
