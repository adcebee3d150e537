import TraceAudit.Trace.Decode

/-!
# Which payloads decode

* `Json.IsId`, `NamesEntry` and `KeyNamesEntry` say what the numbers of a payload have to be;
* `decodeObject_ok` and `decodeRow_ok` are the two forms of a span, `decodeEach_ok` and
  `decodeTraces_ok` go through many;
* `decodeV04_ok`, `decodeV05_ok` and `decodeAgentV02_ok` say which payloads decode.
-/

namespace TraceAudit

/-! ## Numerals -/

namespace Decimal

/-- The value of digits, possibly after a plus sign. -/
def natural? (text : List Char) : Option Nat :=
  match text with
  | '+' :: digits => ofDigits? digits
  | digits => ofDigits? digits

/-- The value of digits, possibly after a sign. -/
def integer? (text : List Char) : Option Int :=
  match text with
  | '-' :: digits => (ofDigits? digits).map fun n => -(n : Int)
  | other => (natural? other).map Int.ofNat

theorem unsigned?_eq_some {max n : Nat} {text : List Char} :
    unsigned? max text = some n ↔ natural? text = some n ∧ n ≤ max := by
  have hunfold : unsigned? max text =
      (natural? text).bind fun n => if n ≤ max then some n else none := by
    cases text with
    | nil => rfl
    | cons c rest =>
      by_cases hplus : c = '+'
      · subst hplus
        rfl
      · simp [unsigned?, natural?, hplus, bind]
  rw [hunfold]
  cases natural? text with
  | none => simp
  | some m =>
    by_cases hm : m ≤ max
    · simp only [Option.bind_some, if_pos hm, Option.some.injEq]
      constructor
      · rintro rfl
        exact ⟨rfl, hm⟩
      · exact fun h => h.1
    · simp only [Option.bind_some, if_neg hm, Option.some.injEq, reduceCtorEq, false_iff, not_and]
      rintro rfl
      exact hm

theorem u64?_eq_some {text : List Char} {n : Nat} :
    u64? text = some n ↔ natural? text = some n ∧ n < Word.count64 := by
  have hmax : maxU64 + 1 = Word.count64 := rfl
  rw [u64?, unsigned?_eq_some]
  exact and_congr_right fun _ => by omega

/-- A text with a minus sign is no unsigned number. -/
theorem u64?_minus (digits : List Char) : u64? ('-' :: digits) = none := by
  apply Option.eq_none_iff_forall_ne_some.2
  intro n h
  have hnatural := (u64?_eq_some.1 h).1
  simp [natural?, ofDigits?, Text.isDigit] at hnatural

/-- Behind a minus sign only the value of the digits counts. -/
theorem integer?_minus (digits : List Char) :
    integer? ('-' :: digits) = (ofDigits? digits).map fun n => -(n : Int) := rfl

theorem integer?_of_not_minus {text : List Char} (h : ∀ digits, text ≠ '-' :: digits) :
    integer? text = (natural? text).map Int.ofNat := by
  unfold integer?
  split
  · exact absurd rfl (h _)
  · rfl

theorem i64?_of_not_minus {text : List Char} (h : ∀ digits, text ≠ '-' :: digits) :
    i64? text = (unsigned? maxI64 text).map Int.ofNat := by
  unfold i64? signed?
  split
  · exact absurd rfl (h _)
  · rfl

theorem unsignedId_natCast {n : Nat} (h : n < Word.count64) : unsignedId n = n := by
  rw [unsignedId, Int.emod_eq_of_lt (by omega) (by omega), Int.toNat_natCast]

/-- A text is an id when the integer that it writes has 64 bits, with or without a sign. -/
theorem id_eq_some {text : List Char} {id : Nat} :
    (u64? text).or ((i64? text).map unsignedId) = some id ↔
      ∃ i, integer? text = some i ∧ -(Word.half64 : Int) ≤ i ∧ i < Word.count64 ∧
        unsignedId i = id := by
  have hcount : 0 < Word.count64 := by decide
  have hhalf : maxI64 < Word.count64 := by decide
  by_cases hminus : ∃ digits, text = '-' :: digits
  · rcases hminus with ⟨digits, rfl⟩
    rw [u64?_minus, integer?_minus]
    cases hdigits : ofDigits? digits with
    | none => simp [i64?, signed?, hdigits]
    | some n =>
      by_cases hn : n ≤ Word.half64
      · have hlow : -(Word.half64 : Int) ≤ -(n : Int) ∧ -(n : Int) < Word.count64 := by omega
        simp [i64?, signed?, hdigits, hn, hlow]
      · have hlow : ¬-(Word.half64 : Int) ≤ -(n : Int) := by omega
        simp [i64?, signed?, hdigits, hn, hlow]
  · -- Without a minus sign, what fits a signed word fits an unsigned one.
    have hsigned : ∀ digits, text ≠ '-' :: digits := fun digits heq => hminus ⟨digits, heq⟩
    rw [integer?_of_not_minus hsigned, i64?_of_not_minus hsigned]
    constructor
    · intro hid
      rcases Option.or_eq_some_iff.1 hid with hu64 | ⟨-, hi64⟩
      · rcases u64?_eq_some.1 hu64 with ⟨hnatural, hlt⟩
        exact ⟨id, by rw [hnatural]; rfl, by omega, by omega, unsignedId_natCast hlt⟩
      · rcases Option.map_eq_some_iff.1 hi64 with ⟨i, hi, heq⟩
        rcases Option.map_eq_some_iff.1 hi with ⟨n, hn, rfl⟩
        rcases unsigned?_eq_some.1 hn with ⟨hnatural, hle⟩
        exact ⟨n, by rw [hnatural]; rfl, by omega, by omega, heq⟩
    · rintro ⟨i, hi, -, hlt, rfl⟩
      rcases Option.map_eq_some_iff.1 hi with ⟨n, hnatural, rfl⟩
      have hfits : n < Word.count64 := Int.ofNat_lt.1 hlt
      rw [u64?_eq_some.2 ⟨hnatural, hfits⟩, Option.some_or]
      exact congrArg some (unsignedId_natCast hfits).symm

end Decimal

namespace Json

/-- The integer that a value writes, without fraction or exponent, as a number or as a text. -/
def integer? : Json → Option Int
  | .num (.int i) => some i
  | .str s => Decimal.integer? s.toList
  | _ => none

/-- The natural number that a value writes, as a number or as a text. -/
def natural? : Json → Option Nat
  | .num (.int i) => if 0 ≤ i then some i.toNat else none
  | .str s => Decimal.natural? s.toList
  | _ => none

/-- The value writes an integer of 64 bits, with or without a sign. -/
def IsId (v : Json) : Prop :=
  ∃ i, v.integer? = some i ∧ -(Word.half64 : Int) ≤ i ∧ i < Word.count64

/-- The integer that a value writes is taken modulo `2 ^ 64`. -/
theorem spanId?_eq_some {v : Json} {id : Nat} :
    v.spanId? = some id ↔
      ∃ i, v.integer? = some i ∧ -(Word.half64 : Int) ≤ i ∧ i < Word.count64 ∧
        unsignedId i = id := by
  have hcount : (Word.half64 : Int) < Word.count64 := by decide
  cases v with
  | str s => exact Decimal.id_eq_some
  | num n =>
    cases n with
    | double d => simp [spanId?, Number.asU64?, Number.asI64?, integer?]
    | int i =>
      by_cases hnat : 0 ≤ i ∧ i < Word.count64
      · have hlow : -(Word.half64 : Int) ≤ i := by omega
        have hid : unsignedId i = i.toNat := by
          rw [unsignedId, Int.emod_eq_of_lt hnat.1 hnat.2]
        simp [spanId?, Number.asU64?, hnat, integer?, hlow, hid]
      · by_cases hint : -(Word.half64 : Int) ≤ i ∧ i < Word.half64
        · have hneg : ¬0 ≤ i ∧ i < Word.count64 := by omega
          simp [spanId?, Number.asU64?, Number.asI64?, hint, integer?, hneg]
        · have hnone : ¬(-(Word.half64 : Int) ≤ i ∧ i < Word.count64) := by omega
          simp [spanId?, Number.asU64?, Number.asI64?, hnat, hint, integer?]
          omega
  | _ => simp [spanId?, integer?]

theorem spanId?_iff (v : Json) : (∃ id, v.spanId? = some id) ↔ v.IsId := by
  simp only [spanId?_eq_some]
  constructor
  · rintro ⟨_, i, hi, hlow, hhigh, -⟩
    exact ⟨i, hi, hlow, hhigh⟩
  · rintro ⟨i, hi, hlow, hhigh⟩
    exact ⟨_, i, hi, hlow, hhigh, rfl⟩

theorem lenientU64?_eq_some {v : Json} {n : Nat} :
    v.lenientU64? = some n ↔ v.natural? = some n ∧ n < Word.count64 := by
  cases v with
  | str s => exact Decimal.u64?_eq_some
  | num m =>
    cases m with
    | double d => simp [lenientU64?, Number.asU64?, natural?]
    | int i =>
      simp only [lenientU64?, Number.asU64?, natural?]
      by_cases hlow : 0 ≤ i
      · by_cases hhigh : i < Word.count64
        · simp only [hlow, hhigh, and_self, if_true, Option.some.injEq]
          omega
        · simp only [hlow, hhigh, and_false, if_true, if_false, Option.some.injEq, reduceCtorEq,
            false_iff]
          omega
      · simp [hlow]
  | _ => simp [lenientU64?, natural?]

end Json

/-! ## Going through values -/

theorem bind_eq_ok {ε α β : Type} {x : Except ε α} {f : α → Except ε β} {b : β} :
    (x >>= f) = .ok b ↔ ∃ a, x = .ok a ∧ f a = .ok b := by
  cases x with
  | error e => simp [bind, Except.bind]
  | ok a => simp [bind, Except.bind]

theorem ok_bind {ε α β : Type} (a : α) (f : α → Except ε β) : (Except.ok a >>= f) = f a := rfl

/-- Where a fault is raised under a condition, success means that it does not hold. -/
theorem guarded_eq_ok {ε β : Type} {c : Prop} [Decidable c] {fault : ε} {next : Unit → Except ε β}
    {b : β} :
    (if c then Except.error fault >>= next else next ()) = .ok b ↔ ¬c ∧ next () = .ok b := by
  split
  · rename_i hc
    simp [hc, bind, Except.bind]
  · rename_i hc
    simp [hc]

theorem exists_ok_bind {ε α β : Type} {x : Except ε α} {f : α → Except ε β} :
    (∃ b, (x >>= f) = .ok b) ↔ ∃ a, x = .ok a ∧ ∃ b, f a = .ok b := by
  simp only [bind_eq_ok]
  exact ⟨fun ⟨b, a, ha, hb⟩ => ⟨a, ha, b, hb⟩, fun ⟨a, ha, b, hb⟩ => ⟨b, a, ha, hb⟩⟩

section Each

variable {decodeOne : Nat → Json → Except DecodeError Span} {P : Json → Prop}

theorem decodeEach_ok (hone : ∀ index item, (∃ span, decodeOne index item = .ok span) ↔ P item)
    (index : Nat) (items : List Json) :
    (∃ spans, decodeEach decodeOne index items = .ok spans) ↔ ∀ item ∈ items, P item := by
  induction items generalizing index with
  | nil => simp [decodeEach]
  | cons item rest ih =>
    rw [decodeEach, exists_ok_bind, List.forall_mem_cons, ← hone index item, ← ih (index + 1)]
    constructor
    · rintro ⟨span, hspan, h⟩
      rcases exists_ok_bind.1 h with ⟨spans, hspans, -⟩
      exact ⟨⟨span, hspan⟩, spans, hspans⟩
    · rintro ⟨⟨span, hspan⟩, spans, hspans⟩
      exact ⟨span, hspan, exists_ok_bind.2 ⟨spans, hspans, _, rfl⟩⟩

theorem decodeTraces_ok (hone : ∀ index item, (∃ span, decodeOne index item = .ok span) ↔ P item)
    (index : Nat) (traces : List Json) :
    (∃ spans, decodeTraces decodeOne index traces = .ok spans) ↔
      ∀ trace ∈ traces, ∃ items, trace = .arr items ∧ ∀ item ∈ items, P item := by
  induction traces generalizing index with
  | nil => simp [decodeTraces]
  | cons trace rest ih =>
    rw [List.forall_mem_cons]
    cases trace with
    | arr items =>
      rw [decodeTraces, exists_ok_bind, ← ih (index + items.length)]
      constructor
      · rintro ⟨spans, hspans, h⟩
        rcases exists_ok_bind.1 h with ⟨more, hmore, -⟩
        exact ⟨⟨items, rfl, (decodeEach_ok hone index items).1 ⟨spans, hspans⟩⟩, more, hmore⟩
      · rintro ⟨⟨items', heq, hitems⟩, more, hmore⟩
        cases heq
        rcases (decodeEach_ok hone index items).2 hitems with ⟨spans, hspans⟩
        exact ⟨spans, hspans, exists_ok_bind.2 ⟨more, hmore, _, rfl⟩⟩
    | _ => simp [decodeTraces]

end Each

/-! ## One span -/

/-- The object has its two ids. -/
def HasIds (keys : IdKeys) (span : Json) : Prop :=
  (∃ id, span.get? keys.traceId = some id ∧ id.IsId) ∧
    ∃ id, span.get? keys.spanId = some id ∧ id.IsId

theorem requiredId_eq_ok {obj : Json} {index : Nat} {key : String} {id : Nat} :
    requiredId obj index key = .ok id ↔ (obj.get? key).bind Json.spanId? = some id := by
  unfold requiredId
  cases (obj.get? key).bind Json.spanId? <;> simp

theorem requiredId_ok (obj : Json) (index : Nat) (key : String) :
    (∃ id, requiredId obj index key = .ok id) ↔ ∃ id, obj.get? key = some id ∧ id.IsId := by
  rw [requiredId]
  cases hmember : obj.get? key with
  | none => simp
  | some v =>
    have hiff := Json.spanId?_iff v
    cases hid : v.spanId? <;> simp_all

theorem decodeObject_ok (keys : IdKeys) (index : Nat) (obj : Json) :
    (∃ span, decodeObject keys index obj = .ok span) ↔ obj.isObject = true ∧ HasIds keys obj := by
  rw [HasIds, ← requiredId_ok obj index, ← requiredId_ok obj index, decodeObject]
  cases hobject : obj.isObject with
  | false => simp [exists_ok_bind]
  | true =>
    simp only [not_true_eq_false, if_false, true_and]
    constructor
    · intro h
      rcases exists_ok_bind.1 h with ⟨traceId, htrace, h⟩
      rcases exists_ok_bind.1 h with ⟨spanId, hspan, -⟩
      exact ⟨⟨traceId, htrace⟩, spanId, hspan⟩
    · rintro ⟨⟨traceId, htrace⟩, spanId, hspan⟩
      exact exists_ok_bind.2 ⟨traceId, htrace, exists_ok_bind.2 ⟨spanId, hspan, _, rfl⟩⟩

/-- The value names an entry of the table. -/
def NamesEntry (table : List String) (index : Json) : Prop :=
  ∃ n, index.natural? = some n ∧ n < Word.count64 ∧ n < table.length

/-- The key names an entry of the table. A key that is no numeral, or one beyond 64 bits, counts as
the greatest number of 64 bits. -/
def KeyNamesEntry (table : List String) (key : String) : Prop :=
  min ((Decimal.natural? key.toList).getD Decimal.maxU64) Decimal.maxU64 < table.length

theorem tableEntry_ok (table : List String) (index : Json) :
    (∃ text, tableEntry table index = .ok text) ↔ NamesEntry table index := by
  rw [tableEntry, NamesEntry]
  cases hindex : index.lenientU64? with
  | none =>
    have hnone : ¬∃ n, index.natural? = some n ∧ n < Word.count64 ∧ n < table.length := by
      rintro ⟨n, hnatural, hlt, -⟩
      rw [Json.lenientU64?_eq_some.2 ⟨hnatural, hlt⟩] at hindex
      cases hindex
    simp [hnone]
  | some n =>
    rcases Json.lenientU64?_eq_some.1 hindex with ⟨hnatural, hlt⟩
    by_cases hn : n < table.length
    · simp [hnatural, hlt, hn]
    · simp [hnatural, hlt, hn]

theorem keyEntry_ok (table : List String) (key : String) :
    (∃ text, keyEntry table key = .ok text) ↔ KeyNamesEntry table key := by
  have hmax : Decimal.maxU64 + 1 = Word.count64 := rfl
  -- The number that a key counts as, with and without the bound of 64 bits.
  have hindex : (Decimal.u64? key.toList).getD Decimal.maxU64 =
      min ((Decimal.natural? key.toList).getD Decimal.maxU64) Decimal.maxU64 := by
    cases hnatural : Decimal.natural? key.toList with
    | none =>
      have hnone : Decimal.u64? key.toList = none := by
        apply Option.eq_none_iff_forall_ne_some.2
        intro n h
        rw [(Decimal.u64?_eq_some.1 h).1] at hnatural
        cases hnatural
      simp [hnone]
    | some n =>
      by_cases hn : n < Word.count64
      · rw [Decimal.u64?_eq_some.2 ⟨hnatural, hn⟩]
        simp
        omega
      · have hnone : Decimal.u64? key.toList = none := by
          apply Option.eq_none_iff_forall_ne_some.2
          intro m h
          rcases Decimal.u64?_eq_some.1 h with ⟨heq, hlt⟩
          rw [hnatural] at heq
          cases heq
          exact hn hlt
        simp [hnone]
        omega
  rw [keyEntry, tableEntry_ok, NamesEntry, KeyNamesEntry, hindex]
  simp [Json.nat, Json.natural?]
  omega

theorem rowTags_ok (table : List String) (acc : List (String × String))
    (members : List (String × Json)) :
    (∃ tags, rowTags table acc members = .ok tags) ↔
      ∀ m ∈ members, KeyNamesEntry table m.1 ∧ NamesEntry table m.2 := by
  induction members generalizing acc with
  | nil => simp [rowTags]
  | cons m rest ih =>
    rcases m with ⟨key, value⟩
    rw [List.forall_mem_cons, ← keyEntry_ok, ← tableEntry_ok, rowTags]
    constructor
    · intro h
      rcases exists_ok_bind.1 h with ⟨k, hk, h⟩
      rcases exists_ok_bind.1 h with ⟨v, hv, h⟩
      exact ⟨⟨⟨k, hk⟩, v, hv⟩, (ih _).1 h⟩
    · rintro ⟨⟨⟨k, hk⟩, v, hv⟩, hrest⟩
      exact exists_ok_bind.2 ⟨k, hk, exists_ok_bind.2 ⟨v, hv, (ih _).2 hrest⟩⟩

theorem rowMetrics_ok (table : List String) (acc : List (String × Double))
    (members : List (String × Json)) :
    (∃ metrics, rowMetrics table acc members = .ok metrics) ↔
      ∀ m ∈ members, KeyNamesEntry table m.1 := by
  induction members generalizing acc with
  | nil => simp [rowMetrics]
  | cons m rest ih =>
    rcases m with ⟨key, value⟩
    rw [List.forall_mem_cons, ← keyEntry_ok, rowMetrics]
    constructor
    · intro h
      rcases exists_ok_bind.1 h with ⟨k, hk, h⟩
      exact ⟨⟨k, hk⟩, (ih _).1 h⟩
    · rintro ⟨⟨k, hk⟩, hrest⟩
      exact exists_ok_bind.2 ⟨k, hk, (ih _).2 hrest⟩

/-- The row has twelve fields, two of them ids, and all that it says about the table is true. -/
def RowFits (table : List String) : Json → Prop
  | .arr [service, name, resource, traceId, spanId, _, _, _, _, tags, metrics, kind] =>
    (traceId.IsId ∧ spanId.IsId) ∧
      (∀ index ∈ [service, name, resource, kind], NamesEntry table index) ∧
      (∀ m ∈ tags.asObject?.getD [], KeyNamesEntry table m.1 ∧ NamesEntry table m.2) ∧
      ∀ m ∈ metrics.asObject?.getD [], KeyNamesEntry table m.1
  | _ => False

theorem rowId_eq_ok {index : Nat} {field : String} {v : Json} {id : Nat} :
    rowId index field v = .ok id ↔ v.spanId? = some id := by
  unfold rowId
  cases v.spanId? <;> simp

theorem rowId_ok (index : Nat) (field : String) (value : Json) :
    (∃ id, rowId index field value = .ok id) ↔ value.IsId := by
  have hiff := Json.spanId?_iff value
  rw [rowId]
  cases hid : value.spanId? <;> simp_all

theorem decodeRow_ok (table : List String) (index : Nat) (row : Json) :
    (∃ span, decodeRow table index row = .ok span) ↔ RowFits table row := by
  unfold decodeRow
  split
  · rename_i service name resource traceId spanId parentId start duration error tags metrics kind
    simp only [RowFits, List.forall_mem_cons, List.not_mem_nil, false_implies, implies_true, and_true]
    rw [← rowId_ok index "trace_id", ← rowId_ok index "span_id", ← tableEntry_ok table service,
      ← tableEntry_ok table name, ← tableEntry_ok table resource, ← tableEntry_ok table kind,
      ← rowTags_ok table [], ← rowMetrics_ok table []]
    -- The parts of a row are read in this order, which does not matter for success.
    constructor
    · intro h
      rcases exists_ok_bind.1 h with ⟨a, htags, h⟩
      rcases exists_ok_bind.1 h with ⟨b, hmetrics, h⟩
      rcases exists_ok_bind.1 h with ⟨c, hkind, h⟩
      rcases exists_ok_bind.1 h with ⟨d, hservice, h⟩
      rcases exists_ok_bind.1 h with ⟨e, hname, h⟩
      rcases exists_ok_bind.1 h with ⟨f, hresource, h⟩
      rcases exists_ok_bind.1 h with ⟨g, htrace, h⟩
      rcases exists_ok_bind.1 h with ⟨i, hspan, -⟩
      exact ⟨⟨⟨g, htrace⟩, i, hspan⟩,
        ⟨⟨d, hservice⟩, ⟨e, hname⟩, ⟨f, hresource⟩, c, hkind⟩, ⟨a, htags⟩, b, hmetrics⟩
    · rintro ⟨⟨⟨g, htrace⟩, i, hspan⟩,
        ⟨⟨d, hservice⟩, ⟨e, hname⟩, ⟨f, hresource⟩, c, hkind⟩, ⟨a, htags⟩, b, hmetrics⟩
      refine exists_ok_bind.2 ⟨a, htags, exists_ok_bind.2 ⟨b, hmetrics, ?_⟩⟩
      refine exists_ok_bind.2 ⟨c, hkind, exists_ok_bind.2 ⟨d, hservice, ?_⟩⟩
      refine exists_ok_bind.2 ⟨e, hname, exists_ok_bind.2 ⟨f, hresource, ?_⟩⟩
      exact exists_ok_bind.2 ⟨g, htrace, exists_ok_bind.2 ⟨i, hspan, _, rfl⟩⟩
  · -- A row of any other length is refused.
    rename_i hrow
    have hnot : ¬RowFits table row := by
      unfold RowFits
      split
      · exact absurd rfl (hrow _ _ _ _ _ _ _ _ _ _ _ _)
      · exact id
    simp [hnot]

/-! ## Payloads -/

/-- The value is an array of arrays, whose items all have the property. -/
def AllSpans (P : Json → Prop) (traces : Json) : Prop :=
  ∃ items, traces = .arr items ∧ ∀ trace ∈ items, ∃ spans, trace = .arr spans ∧ ∀ v ∈ spans, P v

/-- The texts of a string table. -/
def tableTexts (entries : List Json) : List String := entries.map fun e => e.asString?.getD ""

theorem decodeV04_ok (payload : Json) :
    (∃ spans, decodeV04 payload = .ok spans) ↔
      AllSpans (fun v => v.isObject = true ∧ HasIds .library v) payload := by
  rw [decodeV04.eq_def, AllSpans]
  cases payload with
  | arr traces =>
    have htraces := decodeTraces_ok (decodeObject_ok .library) 0 traces
    simpa using htraces
  | _ => simp

theorem decodeV05_ok (payload : Json) :
    (∃ spans, decodeV05 payload = .ok spans) ↔
      ∃ entries traces, payload = .arr [.arr entries, traces] ∧
        AllSpans (RowFits (tableTexts entries)) traces := by
  unfold decodeV05
  split
  · rename_i strings traces
    cases strings with
    | arr entries =>
      cases traces with
      | arr traces =>
        have htraces := decodeTraces_ok (decodeRow_ok (tableTexts entries)) 0 traces
        constructor
        · intro h
          exact ⟨entries, .arr traces, rfl, traces, rfl, htraces.1 h⟩
        · rintro ⟨entries', traces', heq, items, hitems, hall⟩
          cases heq
          cases hitems
          exact htraces.2 hall
      | _ => simp [AllSpans]
    | _ => simp
  · rename_i items hitems
    simp
    intro entries traces heq
    exact absurd heq (hitems _ _)
  · rename_i hpair harr
    simp
    intro entries traces heq
    exact absurd heq (harr _)

/-- The span values of a payload of trace chunks. -/
def groupedSpans (payload : Json) : List Json :=
  (arrayMember payload "tracerPayloads").flatMap chunkSpans

theorem decodeAgentV02_ok {payload : Json} {groups : List Json}
    (h : payload.get? "tracerPayloads" = some (.arr groups)) :
    (∃ spans, decodeAgentV02 payload = .ok spans) ↔
      ∀ v ∈ groupedSpans payload, v.isObject = true ∧ HasIds .agent v := by
  have hmember : arrayMember payload "tracerPayloads" = groups := by
    simp [arrayMember, h, Json.asArray?]
  rw [decodeAgentV02.eq_def, h, groupedSpans, hmember]
  exact decodeEach_ok (decodeObject_ok .agent) 0 (groups.flatMap chunkSpans)

end TraceAudit
