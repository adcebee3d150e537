import Mathlib.Data.List.Forall2
import TraceAudit.Proofs.Schema.Declaration
import TraceAudit.Proofs.Schema.Findings
import TraceAudit.Proofs.Trace.Numeral

/-!
# What the key of a violation tells

A key is made from the text of a pointer, with a star for every step that is written in digits.
These are the steps into arrays, and also the steps to members of objects whose names are numerals.

* `Segment.mark` is a step as keys write it, and `errorKey_render` is a key step by step;
* `Segment.Alike` says which steps keys do not tell apart. Names of members are confused only if
  they are starred: numerals, or the star itself;
* `Schema.SpanPlace` lists the places of findings in a payload of spans. Only the entries of the two
  maps of a span have names that are not fixed;
* `keys_eq_iff` puts these together: which violations share a key. `numeric_tags_share_key` are two
  tags that do.
-/

namespace TraceAudit

/-! ## Steps as text -/

/-- A character of a name in a pointer. -/
def escapeChar (c : Char) : List Char :=
  if c = '~' then ['~', '0'] else if c = '/' then ['~', '1'] else [c]

theorem escapeKey_cons (c : Char) (rest : List Char) :
    escapeKey (c :: rest) = escapeChar c ++ escapeKey rest := List.flatMap_cons

/-- The first two characters tell the case in which the first one was escaped. -/
theorem escapeChar_append_inj {c d : Char} {a b : List Char}
    (h : escapeChar c ++ a = escapeChar d ++ b) : c = d ∧ a = b := by
  unfold escapeChar at h
  split_ifs at h <;> grind

theorem escapeChar_ne_nil (c : Char) : escapeChar c ≠ [] := by
  unfold escapeChar
  split_ifs <;> simp

theorem notMem_slash_escapeKey (key : List Char) : '/' ∉ escapeKey key := by
  rw [escapeKey, List.mem_flatMap]
  rintro ⟨c, -, hmem⟩
  split_ifs at hmem with htilde hslash
  · simp at hmem
  · simp at hmem
  · exact hslash (List.mem_singleton.1 hmem).symm

/-- An escaped name tells the name. -/
theorem escapeKey_injective : Function.Injective escapeKey := by
  intro a
  induction a with
  | nil =>
    intro b h
    cases b with
    | nil => rfl
    | cons d rest =>
      rw [escapeKey_cons] at h
      exact absurd (List.append_eq_nil_iff.1 h.symm).1 (escapeChar_ne_nil d)
  | cons c front ih =>
    intro b h
    cases b with
    | nil =>
      rw [escapeKey_cons] at h
      exact absurd (List.append_eq_nil_iff.1 h).1 (escapeChar_ne_nil c)
    | cons d rest =>
      rw [escapeKey_cons, escapeKey_cons] at h
      rcases escapeChar_append_inj h with ⟨rfl, hrest⟩
      rw [ih hrest]

theorem escapeKey_eq_self {key : List Char} (htilde : '~' ∉ key) (hslash : '/' ∉ key) :
    escapeKey key = key := by
  induction key with
  | nil => rfl
  | cons c rest ih =>
    have hc : c ≠ '~' ∧ c ≠ '/' := by
      constructor
      · rintro rfl
        exact htilde List.mem_cons_self
      · rintro rfl
        exact hslash List.mem_cons_self
    rw [escapeKey_cons, escapeChar, if_neg hc.1, if_neg hc.2, ih (by simp_all) (by simp_all)]
    rfl

theorem mem_tilde_escapeKey {key : List Char} (h : '~' ∈ key ∨ '/' ∈ key) :
    '~' ∈ escapeKey key := by
  rw [escapeKey, List.mem_flatMap]
  rcases h with h | h
  · exact ⟨'~', h, by simp⟩
  · exact ⟨'/', h, by simp⟩

theorem Text.IsNumeral.notMem {text : List Char} (h : IsNumeral text) {c : Char}
    (hc : isDigit c = false) : c ∉ text := by
  intro hmem
  have hdigit : isDigit c = true := List.all_eq_true.1 h.2 c hmem
  rw [hc] at hdigit
  cases hdigit

/-- Escaping neither makes nor hides a numeral. -/
theorem isNumeral_escapeKey {key : List Char} :
    Text.IsNumeral (escapeKey key) ↔ Text.IsNumeral key := by
  constructor
  · intro h
    -- An escape shows in the text as a tilde, which is no digit.
    have hnone : ¬('~' ∈ key ∨ '/' ∈ key) := fun hmem =>
      h.notMem (c := '~') rfl (mem_tilde_escapeKey hmem)
    rw [not_or] at hnone
    rwa [escapeKey_eq_self hnone.1 hnone.2] at h
  · intro h
    rwa [escapeKey_eq_self (h.notMem rfl) (h.notMem rfl)]

theorem isNumeral_index (i : Nat) : Text.IsNumeral (Segment.index i).text := by
  have hne : i.repr.toList ≠ [] := by
    rw [Nat.toList_repr]
    exact Nat.toDigits_ne_nil
  exact ⟨hne, List.all_eq_true.2 fun c hc => Decimal.isDigit_of_mem_repr hc⟩

theorem Segment.notMem_slash_text (s : Segment) : '/' ∉ s.text := by
  cases s with
  | key name => exact notMem_slash_escapeKey name.toList
  | index i => exact (isNumeral_index i).notMem rfl

/-! ## Keys, step by step -/

/-- The step as a key writes it. -/
def Segment.mark (s : Segment) : String :=
  if !s.text.isEmpty && s.text.all Text.isDigit then "*" else String.ofList s.text

theorem Segment.mark_of_isNumeral {s : Segment} (h : Text.IsNumeral s.text) : s.mark = "*" := by
  simp [mark, h.1, h.2]

theorem Segment.mark_of_not_isNumeral {s : Segment} (h : ¬Text.IsNumeral s.text) :
    s.mark = String.ofList s.text := by
  refine if_neg fun htrue => h ?_
  rw [Bool.and_eq_true] at htrue
  exact ⟨by simpa using htrue.1, htrue.2⟩

theorem Segment.notMem_slash_mark (s : Segment) : '/' ∉ s.mark.toList := by
  by_cases h : Text.IsNumeral s.text
  · rw [mark_of_isNumeral h]
    decide
  · rw [mark_of_not_isNumeral h, String.toList_ofList]
    exact s.notMem_slash_text

/-- A pointer is cut into its steps. -/
theorem splitOn_append_render {text : List Char} (h : '/' ∉ text) (p : Pointer) :
    Text.splitOn '/' (text ++ p.flatMap fun s => '/' :: s.text) = text :: p.map Segment.text := by
  induction p generalizing text with
  | nil =>
    rw [List.flatMap_nil, List.append_nil]
    exact Text.splitOn_of_not_mem h
  | cons s rest ih =>
    rw [List.flatMap_cons, List.cons_append, Text.splitOn_append_cons, Text.splitOn_of_not_mem h,
      ih s.notMem_slash_text]
    rfl

theorem errorKey_render (path : String) (p : Pointer) :
    errorKey path p.render = path ++ "#" ++ Text.join "/" ("" :: p.map Segment.mark) := by
  have hsplit : Text.splitOn '/' p.render.toList = [] :: p.map Segment.text := by
    rw [Pointer.render, String.toList_ofList]
    exact @splitOn_append_render [] (by simp) p
  rw [errorKey, hsplit, List.map_cons, List.map_map]
  rfl

/-- Under one endpoint, a key tells the marks of the steps, and no more than that. -/
theorem errorKey_render_inj {path : String} {p q : Pointer} :
    errorKey path p.render = errorKey path q.render ↔
      p.map Segment.mark = q.map Segment.mark := by
  rw [errorKey_render, errorKey_render]
  constructor
  · intro h
    -- No mark has a slash in it, so that cutting the text at the slashes gives the marks back.
    have hjoin : Text.join "/" ("" :: p.map Segment.mark) =
        Text.join "/" ("" :: q.map Segment.mark) := by
      simpa [← String.toList_inj] using h
    have hslash : ∀ r : Pointer, ∀ piece ∈ "" :: r.map Segment.mark, '/' ∉ piece.toList := by
      intro r piece hpiece
      rcases List.mem_cons.1 hpiece with rfl | hpiece
      · simp
      · rcases List.mem_map.1 hpiece with ⟨s, -, rfl⟩
        exact s.notMem_slash_mark
    have hpieces : ("" :: p.map Segment.mark).map String.toList =
        ("" :: q.map Segment.mark).map String.toList := by
      calc ("" :: p.map Segment.mark).map String.toList
          = Text.splitOn '/' (Text.join "/" ("" :: p.map Segment.mark)).toList :=
            (Text.splitOn_join (List.cons_ne_nil _ _) (hslash p)).symm
        _ = Text.splitOn '/' (Text.join "/" ("" :: q.map Segment.mark)).toList := by rw [hjoin]
        _ = ("" :: q.map Segment.mark).map String.toList :=
            Text.splitOn_join (List.cons_ne_nil _ _) (hslash q)
    have hinjective : Function.Injective String.toList := fun a b => String.toList_inj.1
    exact (List.cons.inj (hinjective.list_map hpieces)).2
  · intro h
    rw [h]

/-! ## Steps that keys do not tell apart -/

/-- The name is written as a position in an array is: a numeral, or what keys put for one. -/
def IsStarred (name : String) : Prop := name = "*" ∨ Text.IsNumeral name.toList

instance (name : String) : Decidable (IsStarred name) :=
  inferInstanceAs
    (Decidable (name = "*" ∨ (name.toList ≠ [] ∧ name.toList.all Text.isDigit = true)))

/-- Two steps that keys do not tell apart. Positions are left out on purpose; of two different names
both are starred. -/
inductive Segment.Alike : Segment → Segment → Prop
  | index (i j : Nat) : Alike (.index i) (.index j)
  | same (name : String) : Alike (.key name) (.key name)
  | starred {name name' : String} : IsStarred name → IsStarred name' →
      Alike (.key name) (.key name')

namespace Segment

@[simp] theorem mark_index (i : Nat) : (Segment.index i).mark = "*" :=
  mark_of_isNumeral (isNumeral_index i)

theorem mark_of_isStarred {name : String} (h : IsStarred name) : (Segment.key name).mark = "*" := by
  rcases h with rfl | h
  · rfl
  · exact mark_of_isNumeral (isNumeral_escapeKey.2 h)

theorem mark_of_not_isStarred {name : String} (h : ¬IsStarred name) :
    (Segment.key name).mark = String.ofList (escapeKey name.toList) :=
  mark_of_not_isNumeral fun hnumeral => h (Or.inr (isNumeral_escapeKey.1 hnumeral))

theorem mark_key_eq_star {name : String} : (Segment.key name).mark = "*" ↔ IsStarred name := by
  constructor
  · intro h
    by_contra hnot
    rw [mark_of_not_isStarred hnot] at h
    have hescaped : escapeKey name.toList = escapeKey "*".toList := by
      rw [← String.toList_ofList (l := escapeKey name.toList), h]
      rfl
    exact hnot (Or.inl (String.toList_inj.1 (escapeKey_injective hescaped)))
  · exact mark_of_isStarred

theorem alike_key {name name' : String} :
    Alike (.key name) (.key name') ↔ name = name' ∨ (IsStarred name ∧ IsStarred name') := by
  constructor
  · intro h
    cases h with
    | same => exact Or.inl rfl
    | starred h h' => exact Or.inr ⟨h, h'⟩
  · rintro (rfl | ⟨h, h'⟩)
    · exact .same name
    · exact .starred h h'

theorem mark_key_inj {name name' : String} :
    (Segment.key name).mark = (Segment.key name').mark ↔ Alike (.key name) (.key name') := by
  rw [alike_key]
  constructor
  · intro h
    by_cases hname : IsStarred name
    · rw [mark_of_isStarred hname] at h
      exact Or.inr ⟨hname, mark_key_eq_star.1 h.symm⟩
    · by_cases hname' : IsStarred name'
      · rw [mark_of_isStarred hname'] at h
        exact absurd (mark_key_eq_star.1 h) hname
      · rw [mark_of_not_isStarred hname, mark_of_not_isStarred hname', String.ofList_inj] at h
        exact Or.inl (String.toList_inj.1 (escapeKey_injective h))
  · rintro (rfl | ⟨h, h'⟩)
    · rfl
    · rw [mark_of_isStarred h, mark_of_isStarred h']

end Segment

/-! ## Places in a payload of spans -/

namespace Schema

/-- The schema is about a value as a whole and does not look into it. -/
def Flat (schema : Schema) : Prop := ∀ place, schema.Governs place → place = []

theorem flat_of_no_part {schema : Schema} (h : ∀ part, ¬Part part schema) : schema.Flat := by
  intro place hplace
  cases hplace with
  | here => rfl
  | property hpart _ => exact absurd (.property hpart) (h _)
  | member key _ => exact absurd (.member _) (h _)
  | item i _ => exact absurd (.item _) (h _)
  | leading i hpart _ => exact absurd (.leading hpart) (h _)
  | all hpart _ => exact absurd (.all hpart) (h _)
  | yes _ => exact absurd (.yes _ _ _) (h _)
  | no _ => exact absurd (.no _ _ _) (h _)

@[simp] theorem flat_type (allowed : List JsonType) : (type allowed).Flat := flat_of_no_part nofun

@[simp] theorem flat_enum (options : List Literal) : (enum options).Flat := flat_of_no_part nofun

@[simp] theorem flat_minimum (bound : Int) : (minimum bound).Flat := flat_of_no_part nofun

@[simp] theorem flat_maximum (bound : Int) : (maximum bound).Flat := flat_of_no_part nofun

@[simp] theorem flat_nonEmpty : nonEmpty.Flat := flat_of_no_part nofun

@[simp] theorem flat_required (names : List String) : (required names).Flat :=
  flat_of_no_part nofun

theorem governs_all {schemas : List Schema} {place : Pointer} (h : (all schemas).Governs place) :
    place = [] ∨ ∃ part ∈ schemas, part.Governs place := by
  cases h with
  | here => exact Or.inl rfl
  | all hpart hplace => exact Or.inr ⟨_, hpart, hplace⟩

theorem flat_all {schemas : List Schema} (h : ∀ schema ∈ schemas, schema.Flat) :
    (all schemas).Flat := by
  intro place hplace
  rcases governs_all hplace with rfl | ⟨part, hpart, hplace⟩
  · rfl
  · exact h part hpart place hplace

/-- A place in an array is the array itself, or one in an item. -/
theorem governs_arrayOf {schema : Schema} {place : Pointer} (h : (arrayOf schema).Governs place) :
    place = [] ∨ ∃ i below, place = .index i :: below ∧ schema.Governs below := by
  rcases governs_all h with rfl | ⟨part, hpart, hplace⟩
  · exact Or.inl rfl
  · simp only [List.mem_cons, List.not_mem_nil, or_false] at hpart
    rcases hpart with rfl | rfl
    · exact Or.inl (flat_type _ place hplace)
    · cases hplace with
      | here => exact Or.inl rfl
      | item i hbelow => exact Or.inr ⟨i, _, rfl, hbelow⟩

/-- A map whose values are not looked into has its entries as places. -/
theorem governs_mapOf {schema : Schema} (hflat : schema.Flat) {place : Pointer}
    (h : (mapOf schema).Governs place) : place = [] ∨ ∃ name, place = [.key name] := by
  rcases governs_all h with rfl | ⟨part, hpart, hplace⟩
  · exact Or.inl rfl
  · simp only [List.mem_cons, List.not_mem_nil, or_false] at hpart
    rcases hpart with rfl | rfl
    · exact Or.inl (flat_type _ place hplace)
    · cases hplace with
      | here => exact Or.inl rfl
      | member name hbelow =>
        cases hflat _ hbelow
        exact Or.inr ⟨name, rfl⟩

/-- A place in an object with listed fields is the object itself, or one in a listed field. -/
theorem governs_structured {names : List String} {schemas : List (String × Schema)}
    {place : Pointer} (h : (structured names schemas).Governs place) :
    place = [] ∨ ∃ entry ∈ schemas, ∃ below, place = .key entry.1 :: below ∧
      entry.2.Governs below := by
  rcases governs_all h with rfl | ⟨part, hpart, hplace⟩
  · exact Or.inl rfl
  · simp only [List.mem_cons, List.not_mem_nil, or_false] at hpart
    rcases hpart with rfl | rfl | rfl
    · exact Or.inl (flat_type _ place hplace)
    · exact Or.inl (flat_required _ place hplace)
    · cases hplace with
      | here => exact Or.inl rfl
      | property hmember hbelow => exact Or.inr ⟨_, hmember, _, rfl, hbelow⟩

/-- The places of findings in a payload of spans: the payload, a trace, a span, a field of a span,
or an entry of one of the two maps of a span. -/
inductive SpanPlace : Pointer → Prop
  | payload : SpanPlace []
  | trace (i : Nat) : SpanPlace [.index i]
  | span (i j : Nat) : SpanPlace [.index i, .index j]
  | field (i j : Nat) {name : String} : ¬IsStarred name →
      SpanPlace [.index i, .index j, .key name]
  | entry (i j : Nat) {map : String} (name : String) : map = "meta" ∨ map = "metrics" →
      SpanPlace [.index i, .index j, .key map, .key name]

@[simp] theorem flat_string : string.Flat := flat_type _

@[simp] theorem flat_number : number.Flat := flat_type _

@[simp] theorem flat_object : object.Flat := flat_type _

@[simp] theorem flat_atLeast (bound : Int) : (atLeast bound).Flat := flat_all (by simp)

@[simp] theorem flat_name : name.Flat := flat_all (by simp)

@[simp] theorem flat_numericId : numericId.Flat := flat_all (by simp)

@[simp] theorem flat_errorMark : errorMark.Flat := flat_all (by simp)

/-- A field of a span has a name that is not starred, and is looked into if it is one of the two
maps. -/
def IsSpanField (name : String) (schema : Schema) : Prop :=
  ¬IsStarred name ∧
    (schema.Flat ∨
      (name = "meta" ∨ name = "metrics") ∧ ∃ part : Schema, part.Flat ∧ schema = mapOf part)

theorem governs_librarySpan {place : Pointer} (h : librarySpan.Governs place) :
    place = [] ∨ ∃ name schema below, IsSpanField name schema ∧ place = .key name :: below ∧
      schema.Governs below := by
  rcases governs_structured h with rfl | ⟨⟨name, schema⟩, hentry, below, rfl, hbelow⟩
  · exact Or.inl rfl
  · refine Or.inr ⟨name, schema, below, ?_, rfl, hbelow⟩
    simp only [List.mem_cons, List.not_mem_nil, or_false, Prod.mk.injEq] at hentry
    -- One case for each field. Only the two maps are looked into.
    rcases hentry with ⟨rfl, rfl⟩ | ⟨rfl, rfl⟩ | ⟨rfl, rfl⟩ | ⟨rfl, rfl⟩ | ⟨rfl, rfl⟩ | ⟨rfl, rfl⟩ |
      ⟨rfl, rfl⟩ | ⟨rfl, rfl⟩ | ⟨rfl, rfl⟩ | ⟨rfl, rfl⟩ | ⟨rfl, rfl⟩ | ⟨rfl, rfl⟩ | ⟨rfl, rfl⟩
    all_goals
      refine ⟨by decide, ?_⟩
      first
      | exact Or.inl (by simp)
      | exact Or.inr ⟨by simp, _, by simp, rfl⟩

theorem spanPlace_of_librarySpan {place : Pointer} (h : librarySpan.Governs place) (i j : Nat) :
    SpanPlace (.index i :: .index j :: place) := by
  rcases governs_librarySpan h with rfl | ⟨name, schema, below, ⟨hname, hschema⟩, rfl, hbelow⟩
  · exact .span i j
  · rcases hschema with hflat | ⟨hmap, part, hpart, rfl⟩
    · cases hflat below hbelow
      exact .field i j hname
    · rcases governs_mapOf hpart hbelow with rfl | ⟨key, rfl⟩
      · exact .field i j hname
      · exact .entry i j key hmap

theorem spanPlace_of_governs {place : Pointer} (h : libraryTracesV04.Governs place) :
    SpanPlace place := by
  rcases governs_arrayOf h with rfl | ⟨i, below, rfl, hbelow⟩
  · exact .payload
  · rcases governs_arrayOf hbelow with rfl | ⟨j, inner, rfl, hinner⟩
    · exact .trace i
    · exact spanPlace_of_librarySpan hinner i j

/-- In payloads of spans, a step into an array is never mistaken for a step to a member. -/
theorem SpanPlace.marks_eq_iff {p q : Pointer} (hp : SpanPlace p) (hq : SpanPlace q) :
    p.map Segment.mark = q.map Segment.mark ↔ List.Forall₂ Segment.Alike p q := by
  have hindex : ∀ i j : Nat, Segment.Alike (.index i) (.index j) := .index
  -- At equal depth, positions stand against positions and names against names.
  cases hp <;> cases hq <;> simp [Segment.mark_key_inj, hindex]

end Schema

/-! ## Violations -/

/-- The record is from a library and carries this value on the endpoint for spans as objects. -/
structure Record.CarriesSpans (r : Record) (payload : Json) : Prop where
  library : r.source.IsLibrary
  path : r.path = "/v0.4/traces"
  json : r.json? = some payload

theorem Record.content_of_json? {r : Record} {payload : Json} (h : r.json? = some payload) :
    r.payload.content = .json payload := by
  cases hcontent : r.payload.content with
  | json value =>
    simp only [json?, Payload.json?, hcontent] at h
    rw [Option.some.inj h]
  | _ => simp [json?, Payload.json?, hcontent] at h

/-- Such a record is checked, and each finding is reported. -/
theorem Record.CarriesSpans.ofRecord? {r : Record} {payload : Json} (h : r.CarriesSpans payload) :
    Violation.ofRecord? r = some ((Schema.libraryTracesV04.findings [] payload).map fun f =>
      .make r SchemaName.libraryTracesV04.text f.place.render f.message) := by
  have hselect : Selection.select r.source r.path r.json? = .schema .libraryTracesV04 := by
    rw [Selection.select_of_isLibrary h.library, h.path]
    rfl
  unfold Violation.ofRecord?
  simp only [hselect, content_of_json? h.json]
  rfl

/-- A violation in a payload of spans stands at a place of the payload, and its key is made from
that place. -/
theorem Record.CarriesSpans.exists_place {r : Record} {payload : Json} (h : r.CarriesSpans payload)
    {found : List Violation} (hfound : Violation.ofRecord? r = some found) {v : Violation}
    (hv : v ∈ found) :
    ∃ p : Pointer, (v.pointer = p.render ∧ payload.HasPlace p ∧ Schema.SpanPlace p) ∧
      v.key = errorKey "/v0.4/traces" p.render := by
  cases h.ofRecord?.symm.trans hfound
  rcases List.mem_map.1 hv with ⟨f, hf, rfl⟩
  rcases Schema.governs_of_mem_findings hf with ⟨hgoverns, hhas⟩
  refine ⟨f.place, ⟨rfl, hhas, Schema.spanPlace_of_governs hgoverns⟩, ?_⟩
  rw [← h.path]
  rfl

/-- Two violations in payloads of spans have the same key if and only if they stand at places of the
same depth that differ in positions in arrays, and in names that are starred. Then an allow-list
with the one key tolerates the other violation. Starred names occur only as entries of the maps of a
span. -/
theorem keys_eq_iff {r r' : Record} {payload payload' : Json} (hr : r.CarriesSpans payload)
    (hr' : r'.CarriesSpans payload') {found found' : List Violation}
    (hfound : Violation.ofRecord? r = some found) (hfound' : Violation.ofRecord? r' = some found')
    {v v' : Violation} (hv : v ∈ found) (hv' : v' ∈ found') :
    ∃ p q : Pointer,
      (v.pointer = p.render ∧ payload.HasPlace p ∧ Schema.SpanPlace p) ∧
      (v'.pointer = q.render ∧ payload'.HasPlace q ∧ Schema.SpanPlace q) ∧
      (v.key = v'.key ↔ List.Forall₂ Segment.Alike p q) ∧
      ∀ records, r' ∈ records → r'.isRequest = true →
        (v' ∈ (SchemaReport.check records [v.key]).tolerated ↔
          List.Forall₂ Segment.Alike p q) := by
  rcases hr.exists_place hfound hv with ⟨p, hp, hkey⟩
  rcases hr'.exists_place hfound' hv' with ⟨q, hq, hkey'⟩
  have hiff : v.key = v'.key ↔ List.Forall₂ Segment.Alike p q := by
    rw [hkey, hkey', errorKey_render_inj]
    exact hp.2.2.marks_eq_iff hq.2.2
  refine ⟨p, q, hp, hq, hiff, fun records hmem hrequest => ?_⟩
  have hreported : v' ∈ (SchemaReport.governed records).flatten := by
    have hgoverned : found' ∈ SchemaReport.governed records :=
      List.mem_filterMap.2 ⟨r', List.mem_filter.2 ⟨hmem, hrequest⟩, hfound'⟩
    exact List.mem_flatten.2 ⟨found', hgoverned, hv'⟩
  -- The report tolerates what it finds if the key is on the list.
  have hallowed : [v.key].contains v'.key = true ↔ v.key = v'.key := by
    rw [List.contains_iff_mem, List.mem_singleton, eq_comm]
  rw [← hiff, ← hallowed]
  exact List.mem_filter.trans (and_iff_right hreported)

/-- A span with two tags that are not texts, under these names. -/
def taggedSpan (first second : String) : Json :=
  .obj
    [ ("duration", .nat 1), ("meta", .obj [(first, .nat 1), (second, .nat 2)]), ("name", .str "n"),
      ("resource", .str "r"), ("service", .str "s"), ("span_id", .nat 2), ("start", .nat 0),
      ("trace_id", .nat 1) ]

/-- A request with one such span. -/
def taggedRequest (first second : String) : Record :=
  Record.made .library "/v0.4/traces"
    (Payload.ofJson (.arr [.arr [taggedSpan first second]])) default

/-- The place of a tag of that span. -/
def tagPlace (name : String) : Pointer := [.index 0, .index 0, .key "meta", .key name]

/-- What is reported about a tag of that span. -/
def tagViolation (first second name value : String) : Violation :=
  .make (taggedRequest first second) "library/v0.4-traces" (tagPlace name).render
    s!"{value} is not of type \"string\""

theorem taggedRequest_carriesSpans (first second : String) :
    (taggedRequest first second).CarriesSpans (.arr [.arr [taggedSpan first second]]) :=
  ⟨Or.inl rfl, rfl, rfl⟩

theorem keys_eq_iff_tags :
    ∃ p q : Pointer,
      ((tagViolation "a" "b" "a" "1").pointer = p.render ∧
        (Json.arr [.arr [taggedSpan "a" "b"]]).HasPlace p ∧ Schema.SpanPlace p) ∧
      ((tagViolation "a" "b" "b" "2").pointer = q.render ∧
        (Json.arr [.arr [taggedSpan "a" "b"]]).HasPlace q ∧ Schema.SpanPlace q) ∧
      ((tagViolation "a" "b" "a" "1").key = (tagViolation "a" "b" "b" "2").key ↔
        List.Forall₂ Segment.Alike p q) ∧
      ∀ records, taggedRequest "a" "b" ∈ records → (taggedRequest "a" "b").isRequest = true →
        (tagViolation "a" "b" "b" "2" ∈
            (SchemaReport.check records [(tagViolation "a" "b" "a" "1").key]).tolerated ↔
          List.Forall₂ Segment.Alike p q) := by
  have hfound : Violation.ofRecord? (taggedRequest "a" "b") =
      some [tagViolation "a" "b" "a" "1", tagViolation "a" "b" "b" "2"] := by decide +kernel
  exact keys_eq_iff (taggedRequest_carriesSpans "a" "b") (taggedRequest_carriesSpans "a" "b")
    hfound hfound (by simp) (by simp)

theorem hasPlace_tag {first second name : String} (value : Json)
    (h : (name, value) ∈ [(first, Json.nat 1), (second, Json.nat 2)]) :
    (Json.arr [.arr [taggedSpan first second]]).HasPlace (tagPlace name) := by
  have htags : ("meta", Json.obj [(first, Json.nat 1), (second, Json.nat 2)]) ∈
      [ ("duration", Json.nat 1), ("meta", .obj [(first, .nat 1), (second, .nat 2)]),
        ("name", .str "n"), ("resource", .str "r"), ("service", .str "s"), ("span_id", .nat 2),
        ("start", .nat 0), ("trace_id", .nat 1) ] := by simp
  exact .item rfl (.item rfl (.member htags (.member h (.here value))))

/-- Tags that a status code names share a key, and who tolerates one of them tolerates the other. -/
theorem numeric_tags_share_key :
    Violation.ofRecord? (taggedRequest "404" "405") =
        some [tagViolation "404" "405" "404" "1", tagViolation "404" "405" "405" "2"] ∧
      (Json.arr [.arr [taggedSpan "404" "405"]]).HasPlace (tagPlace "404") ∧
      (Json.arr [.arr [taggedSpan "404" "405"]]).HasPlace (tagPlace "405") ∧
      (tagViolation "404" "405" "404" "1").key = (tagViolation "404" "405" "405" "2").key ∧
      tagViolation "404" "405" "405" "2" ∈ (SchemaReport.check [taggedRequest "404" "405"]
        [(tagViolation "404" "405" "404" "1").key]).tolerated := by
  refine ⟨by decide +kernel, ?_, ?_, by decide +kernel, by decide +kernel⟩
  · exact hasPlace_tag (.nat 1) (by simp)
  · exact hasPlace_tag (.nat 2) (by simp)

end TraceAudit
