import TraceAudit.Schema.Catalog

/-!
# What an accepted value looks like

A value without findings satisfies every keyword of its schema. `Schema.Admits` is this for the
parts of a value, and the lemmas below read one keyword each: what a schema asks of a part follows
from the schema of the whole.
-/

namespace TraceAudit.Schema

/-- The schema finds nothing wrong with a value, wherever the value stands. -/
def Admits (schema : Schema) (value : Json) : Prop :=
  ∃ place, schema.findings place value = []

theorem ensure_eq_nil {holds : Bool} {place : Pointer} {value : Json} {fault : Fault} :
    ensure holds place value fault = [] ↔ holds = true := by
  cases holds <;> simp [ensure]

/-! ## Keywords -/

theorem Admits.type {allowed : List JsonType} {value : Json}
    (h : (Schema.type allowed).Admits value) : ∃ t ∈ allowed, t.admits value = true := by
  rcases h with ⟨place, hnone⟩
  have hany : (allowed.any fun t => t.admits value) = true := by
    simpa [findings, ensure_eq_nil] using hnone
  exact List.any_eq_true.1 hany

theorem Admits.all {schemas : List Schema} {value : Json} (h : (Schema.all schemas).Admits value) :
    ∀ schema ∈ schemas, schema.Admits value := by
  rcases h with ⟨place, hnone⟩
  have hall : allFindings schemas place value = [] := by
    simpa [findings] using hnone
  clear hnone
  -- The findings of a list are those of its head and its tail.
  induction schemas with
  | nil =>
    intro schema hmem
    cases hmem
  | cons first rest ih =>
    intro schema hmem
    have hparts : findings first place value = [] ∧ allFindings rest place value = [] := by
      simpa [allFindings] using hall
    rcases List.mem_cons.1 hmem with rfl | hmem
    · exact ⟨place, hparts.1⟩
    · exact ih hparts.2 schema hmem

theorem Admits.items {schema : Schema} {items : List Json}
    (h : (Schema.items schema).Admits (.arr items)) : ∀ item ∈ items, schema.Admits item := by
  rcases h with ⟨place, hnone⟩
  intro item hmem
  have hall : ∀ entry ∈ items.zipIdx, findings schema (place ++ [.index entry.2]) entry.1 = [] := by
    simpa [findings, List.flatMap_eq_nil_iff] using hnone
  rcases List.getElem_of_mem hmem with ⟨i, hi, rfl⟩
  have hentry : (items[i], i) ∈ items.zipIdx := List.mk_mem_zipIdx_iff_getElem?.2 (by simp [hi])
  exact ⟨_, hall _ hentry⟩

theorem Admits.required {keys : List String} {members : List (String × Json)}
    (h : (Schema.required keys).Admits (.obj members)) :
    ∀ key ∈ keys, ∃ value, (Json.obj members).get? key = some value := by
  rcases h with ⟨place, hnone⟩
  intro key hmem
  have hall : ∀ key ∈ keys, ((Json.obj members).get? key).isSome = true := by
    simpa [findings, List.flatMap_eq_nil_iff, ensure_eq_nil] using hnone
  exact Option.isSome_iff_exists.1 (hall key hmem)

theorem Admits.properties {schemas : List (String × Schema)} {value : Json}
    (h : (Schema.properties schemas).Admits value) :
    ∀ key schema, (key, schema) ∈ schemas →
      ∀ member, value.get? key = some member → schema.Admits member := by
  rcases h with ⟨place, hnone⟩
  have hall : propertyFindings schemas place value = [] := by
    simpa [findings] using hnone
  clear hnone
  induction schemas with
  | nil =>
    intro key schema hmem
    cases hmem
  | cons first rest ih =>
    intro key schema hmem member hmember
    rcases first with ⟨k, s⟩
    rw [propertyFindings, List.append_eq_nil_iff] at hall
    rcases List.mem_cons.1 hmem with heq | hmem
    · cases heq
      have hfirst := hall.1
      rw [hmember] at hfirst
      exact ⟨_, hfirst⟩
    · exact ih hall.2 key schema hmem member hmember

theorem Admits.leading {schemas : List Schema} {items : List Json}
    (h : (Schema.leading schemas).Admits (.arr items)) :
    ∀ pair ∈ schemas.zip items, pair.1.Admits pair.2 := by
  rcases h with ⟨place, hnone⟩
  -- The position counts up along the items, so the induction is on any position.
  have hall : ∃ i, leadingFindings schemas place i items = [] := ⟨0, by simpa [findings] using hnone⟩
  clear hnone
  induction schemas generalizing items with
  | nil =>
    intro pair hmem
    cases hmem
  | cons first rest ih =>
    cases items with
    | nil =>
      intro pair hmem
      cases hmem
    | cons item more =>
      rcases hall with ⟨i, hall⟩
      rw [leadingFindings, List.append_eq_nil_iff] at hall
      intro pair hmem
      rcases List.mem_cons.1 hmem with rfl | hmem
      · exact ⟨_, hall.1⟩
      · exact ih ⟨i + 1, hall.2⟩ pair hmem

theorem Admits.length {least most : Nat} {items : List Json}
    (hleast : (Schema.minItems least).Admits (.arr items))
    (hmost : (Schema.maxItems most).Admits (.arr items)) :
    least ≤ items.length ∧ items.length ≤ most := by
  rcases hleast with ⟨place, hleast⟩
  rcases hmost with ⟨place', hmost⟩
  simpa [findings, ensure_eq_nil] using And.intro hleast hmost

/-! ## Building blocks -/

theorem Admits.isArray {value : Json} (h : (Schema.type [.array]).Admits value) :
    ∃ items, value = .arr items := by
  rcases h.type with ⟨t, ht, hadmits⟩
  cases List.mem_singleton.1 ht
  cases value <;> simp_all [JsonType.admits]

theorem Admits.isObject {value : Json} (h : (Schema.type [.object]).Admits value) :
    ∃ members, value = .obj members := by
  rcases h.type with ⟨t, ht, hadmits⟩
  cases List.mem_singleton.1 ht
  cases value <;> simp_all [JsonType.admits]

theorem Admits.arrayOf {schema : Schema} {value : Json} (h : (arrayOf schema).Admits value) :
    ∃ items, value = .arr items ∧ ∀ item ∈ items, schema.Admits item := by
  have hparts := Admits.all h
  rcases (hparts (.type [.array]) (by simp)).isArray with ⟨items, rfl⟩
  exact ⟨items, rfl, (hparts (.items schema) (by simp)).items⟩

theorem Admits.structured {keys : List String} {schemas : List (String × Schema)} {value : Json}
    (h : (structured keys schemas).Admits value) :
    (∃ members, value = .obj members) ∧
      (∀ key ∈ keys, ∃ member, value.get? key = some member) ∧
      ∀ key schema, (key, schema) ∈ schemas →
        ∀ member, value.get? key = some member → schema.Admits member := by
  have hparts := Admits.all h
  rcases (hparts (.type [.object]) (by simp)).isObject with ⟨members, rfl⟩
  refine ⟨⟨members, rfl⟩, ?_, ?_⟩
  · exact (hparts (.required keys) (by simp)).required
  · exact (hparts (.properties schemas) (by simp)).properties

end TraceAudit.Schema
