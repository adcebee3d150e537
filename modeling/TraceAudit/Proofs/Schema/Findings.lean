import Mathlib.Data.List.Basic
import TraceAudit.Schema.Catalog

/-!
# Where findings are

A schema looks at a value part by part, and the findings about a part stand below the place of the
part.

* `Schema.Part` says which schemas a schema is made of, and `Schema.induct` is induction along it;
* `Schema.findings_append`: what is found in a value does not depend on the place of the value;
* `Schema.Governs` says which places a schema speaks about, and `Json.HasPlace` which places a value
  has. A finding stands at a place that is both: `Schema.governs_of_mem_findings`;
* `Schema.findings_arrayOf` lists the findings about an array, item by item.
-/

namespace TraceAudit

/-- The place leads into the value: through members of objects and items of arrays. -/
inductive Json.HasPlace : Json → Pointer → Prop
  | here (value : Json) : HasPlace value []
  | member {members : List (String × Json)} {key : String} {value : Json} {place : Pointer} :
      (key, value) ∈ members → HasPlace value place → HasPlace (.obj members) (.key key :: place)
  | item {items : List Json} {i : Nat} {value : Json} {place : Pointer} :
      items[i]? = some value → HasPlace value place → HasPlace (.arr items) (.index i :: place)

theorem Members.mem_of_find? {α : Type} {key : String} {value : α}
    {pairs : List (String × α)} (h : find? key pairs = some value) : (key, value) ∈ pairs := by
  induction pairs with
  | nil => cases h
  | cons pair rest ih =>
    rw [find?] at h
    split at h
    · rename_i hkey
      cases h
      exact hkey ▸ List.mem_cons_self
    · exact List.mem_cons_of_mem pair (ih h)

/-- A finding in a part of a value, as one in the value. -/
def Finding.under (front : Pointer) (f : Finding) : Finding := { f with place := front ++ f.place }

namespace Schema

/-! ## Parts -/

/-- A schema that another one is made of. -/
inductive Part : Schema → Schema → Prop
  | property {schemas : List (String × Schema)} {key : String} {part : Schema} :
      (key, part) ∈ schemas → Part part (.properties schemas)
  | member (part : Schema) : Part part (.members part)
  | item (part : Schema) : Part part (.items part)
  | leading {schemas : List Schema} {part : Schema} : part ∈ schemas → Part part (.leading schemas)
  | all {schemas : List Schema} {part : Schema} : part ∈ schemas → Part part (.all schemas)
  | condition (part yes no : Schema) : Part part (.branch part yes no)
  | yes (condition part no : Schema) : Part part (.branch condition part no)
  | no (condition yes part : Schema) : Part part (.branch condition yes part)

theorem Part.sizeOf_lt {part schema : Schema} (h : Part part schema) :
    sizeOf part < sizeOf schema := by
  cases h with
  | @property schemas key _ hmem =>
    have hpair : sizeOf (key, part) < sizeOf schemas := List.sizeOf_lt_of_mem hmem
    simp only [Prod.mk.sizeOf_spec, properties.sizeOf_spec] at hpair ⊢
    omega
  | @leading schemas _ hmem =>
    have hpart : sizeOf part < sizeOf schemas := List.sizeOf_lt_of_mem hmem
    simp only [leading.sizeOf_spec]
    omega
  | @all schemas _ hmem =>
    have hpart : sizeOf part < sizeOf schemas := List.sizeOf_lt_of_mem hmem
    simp only [all.sizeOf_spec]
    omega
  | member => simp
  | item => simp
  | condition => simp only [branch.sizeOf_spec]; omega
  | yes => simp only [branch.sizeOf_spec]; omega
  | no => simp only [branch.sizeOf_spec]; omega

/-- What holds of a schema if it holds of its parts holds of all schemas. -/
theorem induct {P : Schema → Prop} (h : ∀ schema, (∀ part, Part part schema → P part) → P schema)
    (schema : Schema) : P schema :=
  h schema fun part _hpart => induct h part
termination_by sizeOf schema
decreasing_by exact _hpart.sizeOf_lt

/-! ## Lists of schemas -/

theorem propertyFindings_eq (schemas : List (String × Schema)) (place : Pointer) (value : Json) :
    propertyFindings schemas place value = schemas.flatMap fun (key, schema) =>
      (value.get? key).toList.flatMap fun v => schema.findings (place ++ [.key key]) v := by
  induction schemas with
  | nil => rw [propertyFindings, List.flatMap_nil]
  | cons pair rest ih =>
    rw [propertyFindings, ih, List.flatMap_cons]
    cases hget : value.get? pair.1 <;> simp [hget]

theorem leadingFindings_eq (schemas : List Schema) (place : Pointer) (i : Nat)
    (values : List Json) :
    leadingFindings schemas place i values =
      ((schemas.zip values).zipIdx i).flatMap fun ((schema, v), j) =>
        schema.findings (place ++ [.index j]) v := by
  induction schemas generalizing i values with
  | nil => simp [leadingFindings]
  | cons schema rest ih =>
    cases values with
    | nil => simp [leadingFindings]
    | cons v vs =>
      rw [leadingFindings, ih, List.zip_cons_cons, List.zipIdx_cons, List.flatMap_cons]

theorem allFindings_eq (schemas : List Schema) (place : Pointer) (value : Json) :
    allFindings schemas place value =
      schemas.flatMap fun schema => schema.findings place value := by
  induction schemas with
  | nil => rw [allFindings, List.flatMap_nil]
  | cons schema rest ih => rw [allFindings, ih, List.flatMap_cons]

/-! ## Places have no say -/

theorem ensure_append (holds : Bool) (front place : Pointer) (value : Json) (fault : Fault) :
    ensure holds (front ++ place) value fault =
      (ensure holds place value fault).map (Finding.under front) := by
  cases holds <;> rfl

/-- What is found in a value at a place is found at every other place. -/
theorem findings_append (front : Pointer) (schema : Schema) (place : Pointer) (value : Json) :
    schema.findings (front ++ place) value =
      (schema.findings place value).map (Finding.under front) := by
  induction schema using induct generalizing place value with
  | h schema ih =>
    -- A part of the schema looks at a part of the value, one step further down.
    have hbelow : ∀ part, Part part schema → ∀ (step : Segment) (v : Json),
        part.findings (front ++ place ++ [step]) v =
          (part.findings (place ++ [step]) v).map (Finding.under front) := by
      intro part hpart step v
      rw [List.append_assoc]
      exact ih part hpart (place ++ [step]) v
    cases schema with
    | properties schemas =>
      simp only [findings, propertyFindings_eq, List.map_flatMap]
      refine List.flatMap_congr fun pair hpair => List.flatMap_congr fun v _ => ?_
      exact hbelow pair.2 (.property hpair) (.key pair.1) v
    | members part =>
      cases value with
      | obj members =>
        simp only [findings, List.map_flatMap]
        exact List.flatMap_congr fun pair _ => hbelow part (.member part) (.key pair.1) pair.2
      | _ => simp [findings]
    | items part =>
      cases value with
      | arr items =>
        simp only [findings, List.map_flatMap]
        exact List.flatMap_congr fun pair _ => hbelow part (.item part) (.index pair.2) pair.1
      | _ => simp [findings]
    | leading schemas =>
      cases value with
      | arr items =>
        simp only [findings, leadingFindings_eq, List.map_flatMap]
        refine List.flatMap_congr fun entry hentry => ?_
        have hzip : entry.1 ∈ schemas.zip items := List.fst_mem_of_mem_zipIdx hentry
        have hmem : entry.1.1 ∈ schemas := (List.of_mem_zip hzip).1
        exact hbelow entry.1.1 (.leading hmem) (.index entry.2) entry.1.2
      | _ => simp [findings]
    | all schemas =>
      simp only [findings, allFindings_eq, List.map_flatMap]
      exact List.flatMap_congr fun part hpart => ih part (.all hpart) place value
    | branch condition yes no =>
      simp only [findings, ih condition (.condition condition yes no), List.isEmpty_map]
      split
      · exact ih yes (.yes condition yes no) place value
      · exact ih no (.no condition yes no) place value
    | keys form =>
      cases value with
      | obj members => simp only [findings, List.map_flatMap, ensure_append]
      | _ => simp [findings]
    | required names =>
      cases value with
      | obj members => simp only [findings, List.map_flatMap, ensure_append]
      | _ => simp [findings]
    | type _ => simp only [findings, ensure_append]
    | const _ => simp only [findings, ensure_append]
    | enum _ => simp only [findings, ensure_append]
    | _ => cases value <;> simp [findings, ensure_append]

/-- The findings below a place, from those of the part that stands there. -/
theorem findings_under (schema : Schema) (place : Pointer) (value : Json) :
    schema.findings place value = (schema.findings [] value).map (Finding.under place) := by
  simpa using findings_append place schema [] value

/-- A finding in a part of a value stands below the step to the part. -/
theorem exists_of_mem_findings_step {schema : Schema} {step : Segment} {value : Json} {f : Finding}
    (h : f ∈ schema.findings ([] ++ [step]) value) :
    ∃ g ∈ schema.findings [] value, f.place = step :: g.place := by
  rw [findings_under, List.mem_map] at h
  rcases h with ⟨g, hg, rfl⟩
  exact ⟨g, hg, rfl⟩

/-! ## The places that a schema speaks about -/

/-- The schema, or one of its parts, constrains what stands at the place. -/
inductive Governs : Schema → Pointer → Prop
  | here (schema : Schema) : Governs schema []
  | property {schemas : List (String × Schema)} {key : String} {part : Schema} {place : Pointer} :
      (key, part) ∈ schemas → Governs part place →
        Governs (.properties schemas) (.key key :: place)
  | member {part : Schema} {place : Pointer} (key : String) :
      Governs part place → Governs (.members part) (.key key :: place)
  | item {part : Schema} {place : Pointer} (i : Nat) :
      Governs part place → Governs (.items part) (.index i :: place)
  | leading {schemas : List Schema} {part : Schema} {place : Pointer} (i : Nat) :
      part ∈ schemas → Governs part place → Governs (.leading schemas) (.index i :: place)
  | all {schemas : List Schema} {part : Schema} {place : Pointer} :
      part ∈ schemas → Governs part place → Governs (.all schemas) place
  | yes {condition yes no : Schema} {place : Pointer} :
      Governs yes place → Governs (.branch condition yes no) place
  | no {condition yes no : Schema} {place : Pointer} :
      Governs no place → Governs (.branch condition yes no) place

theorem place_of_mem_ensure {holds : Bool} {place : Pointer} {value : Json} {fault : Fault}
    {f : Finding} (h : f ∈ ensure holds place value fault) : f.place = place := by
  cases holds with
  | true => cases h
  | false =>
    cases List.mem_singleton.1 h
    rfl

/-- A finding stands at a place that the schema speaks about and that the value has. -/
theorem governs_of_mem_findings {schema : Schema} {value : Json} {f : Finding}
    (h : f ∈ schema.findings [] value) : schema.Governs f.place ∧ value.HasPlace f.place := by
  induction schema using induct generalizing value f with
  | h schema ih =>
    -- Schemas without parts report on the value as a whole.
    have hhere : f.place = [] → schema.Governs f.place ∧ value.HasPlace f.place := by
      intro hplace
      rw [hplace]
      exact ⟨.here schema, .here value⟩
    cases schema with
    | properties schemas =>
      simp only [findings, propertyFindings_eq, List.mem_flatMap, Option.mem_toList] at h
      rcases h with ⟨⟨key, part⟩, hpart, v, hget, hf⟩
      rcases exists_of_mem_findings_step hf with ⟨g, hg, hplace⟩
      rcases ih part (.property hpart) hg with ⟨hgoverns, hhas⟩
      rw [hplace]
      cases value with
      | obj members => exact ⟨.property hpart hgoverns, .member (Members.mem_of_find? hget) hhas⟩
      | _ => cases hget
    | members part =>
      cases value with
      | obj members =>
        simp only [findings, List.mem_flatMap] at h
        rcases h with ⟨⟨key, v⟩, hmember, hf⟩
        rcases exists_of_mem_findings_step hf with ⟨g, hg, hplace⟩
        rcases ih part (.member part) hg with ⟨hgoverns, hhas⟩
        rw [hplace]
        exact ⟨.member key hgoverns, .member hmember hhas⟩
      | _ => simp [findings] at h
    | items part =>
      cases value with
      | arr items =>
        simp only [findings, List.mem_flatMap] at h
        rcases h with ⟨⟨v, i⟩, hitem, hf⟩
        rcases exists_of_mem_findings_step hf with ⟨g, hg, hplace⟩
        rcases ih part (.item part) hg with ⟨hgoverns, hhas⟩
        rw [hplace]
        exact ⟨.item i hgoverns, .item (List.mk_mem_zipIdx_iff_getElem?.1 hitem) hhas⟩
      | _ => simp [findings] at h
    | leading schemas =>
      cases value with
      | arr items =>
        simp only [findings, leadingFindings_eq, List.mem_flatMap] at h
        rcases h with ⟨⟨⟨part, v⟩, i⟩, hentry, hf⟩
        have hzip : (schemas.zip items)[i]? = some (part, v) :=
          List.mk_mem_zipIdx_iff_getElem?.1 hentry
        rcases List.getElem?_zip_eq_some.1 hzip with ⟨hpart, hitem⟩
        have hmem : part ∈ schemas := List.mem_of_getElem? hpart
        rcases exists_of_mem_findings_step hf with ⟨g, hg, hplace⟩
        rcases ih part (.leading hmem) hg with ⟨hgoverns, hhas⟩
        rw [hplace]
        exact ⟨.leading i hmem hgoverns, .item hitem hhas⟩
      | _ => simp [findings] at h
    | all schemas =>
      simp only [findings, allFindings_eq, List.mem_flatMap] at h
      rcases h with ⟨part, hpart, hf⟩
      rcases ih part (.all hpart) hf with ⟨hgoverns, hhas⟩
      exact ⟨.all hpart hgoverns, hhas⟩
    | branch condition yes no =>
      rw [findings] at h
      split at h
      · rcases ih yes (.yes condition yes no) h with ⟨hgoverns, hhas⟩
        exact ⟨.yes hgoverns, hhas⟩
      · rcases ih no (.no condition yes no) h with ⟨hgoverns, hhas⟩
        exact ⟨.no hgoverns, hhas⟩
    | keys form =>
      cases value with
      | obj members =>
        simp only [findings, List.mem_flatMap] at h
        rcases h with ⟨pair, -, hf⟩
        exact hhere (place_of_mem_ensure hf)
      | _ => simp [findings] at h
    | required names =>
      cases value with
      | obj members =>
        simp only [findings, List.mem_flatMap] at h
        rcases h with ⟨key, -, hf⟩
        exact hhere (place_of_mem_ensure hf)
      | _ => simp [findings] at h
    | type _ => exact hhere (place_of_mem_ensure (by simpa only [findings] using h))
    | const _ => exact hhere (place_of_mem_ensure (by simpa only [findings] using h))
    | enum _ => exact hhere (place_of_mem_ensure (by simpa only [findings] using h))
    | _ =>
      cases value <;>
        first
        | exact hhere (place_of_mem_ensure (by simpa only [findings] using h))
        | simp [findings] at h

/-! ## Arrays -/

/-- What is wrong with the items of an array is wrong with the array, one step further down. -/
theorem findings_arrayOf (schema : Schema) (items : List Json) :
    (arrayOf schema).findings [] (.arr items) =
      items.zipIdx.flatMap fun (v, i) => (schema.findings [] v).map (Finding.under [.index i]) := by
  have htype : (Schema.type [.array]).findings [] (.arr items) = [] := rfl
  simp only [arrayOf, findings, allFindings, List.append_nil]
  exact List.flatMap_congr fun pair _ => findings_under schema _ pair.1

end Schema
end TraceAudit
