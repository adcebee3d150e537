import Mathlib.Data.List.Perm.Basic
import TraceAudit.Validator.Evaluation

/-!
# Allow-lists

An allow-list has no say in what is found, only in what is held against a record.

* `SchemaReport.found` lists all that is found, and a report under an allow-list is a filter of it:
  `SchemaReport.violations_sublist` and `SchemaReport.parts_perm`;
* `SchemaReport.knownKeys` is the allow-list of all that is found. It is one that a configuration
  may have (`Config.fault?_knownKeys`), and under it, or a longer one, nothing is left
  (`SchemaReport.check_of_known`).
-/

namespace TraceAudit

/-- The violations of a request. -/
def Record.violations (r : Record) : List Violation :=
  if r.isRequest then (Violation.ofRecord? r).getD [] else []

namespace SchemaReport

/-- All that is found in the requests, in order. -/
def found (records : List Record) : List Violation := (governed records).flatten

variable (records : List Record)

theorem found_eq : found records = records.flatMap Record.violations := by
  induction records with
  | nil => rfl
  | cons r rest ih =>
    rw [List.flatMap_cons, ← ih, Record.violations]
    cases hrequest : r.isRequest with
    | false => simp [found, governed, hrequest]
    | true =>
      cases hfound : Violation.ofRecord? r with
      | none => simp [found, governed, hrequest, hfound]
      | some violations => simp [found, governed, hrequest, hfound]

theorem violations_nil : (check records []).violations = found records :=
  List.filter_eq_self.2 fun _ _ => rfl

/-- With more keys allowed, violations are only taken away. -/
theorem violations_sublist {A B : List String} (h : A ⊆ B) :
    (check records B).violations.Sublist (check records A).violations := by
  refine List.monotone_filter_right _ fun v hv => ?_
  have hnot : v.key ∉ B := by simpa using hv
  have hnot' : v.key ∉ A := fun hmem => hnot (h hmem)
  simpa using hnot'

/-- What is tolerated is not lost. -/
theorem parts_perm (allowed : List String) :
    ((check records allowed).violations ++ (check records allowed).tolerated).Perm
      (check records []).violations := by
  rw [violations_nil]
  have hsplit := List.filter_append_perm (fun v : Violation => allowed.contains v.key)
    (found records)
  exact List.perm_append_comm.trans hsplit

/-- The keys of all that is found. -/
def knownKeys : List String := (check records []).violations.map (·.key)

/-- Once all keys are known, all that is found is tolerated. -/
theorem check_of_known {allowed : List String} (h : ∀ v ∈ found records, v.key ∈ allowed) :
    (check records allowed).violations = [] ∧
      (check records allowed).tolerated = found records := by
  constructor
  · exact List.filter_eq_nil_iff.2 fun v hv => by simpa using h v hv
  · exact List.filter_eq_self.2 fun v hv => by simpa using h v hv

end SchemaReport

/-! ## Validators -/

namespace Validator

theorem isPassed_verdict (v : Validator) (outcome : Outcome) (tolerated : List Violation) :
    (v.verdict outcome tolerated).isPassed = outcome.isPassed := by
  cases outcome <;> rfl

/-- A schema validator passes when nothing is left under its allow-list, and hands on what the list
tolerates whether it passes or not. -/
theorem evaluate_schemas {v : Validator} {allowed : List String}
    (h : v.assertion = .schemas allowed) (e : Evidence) :
    ((v.evaluate e).isPassed = true ↔ (SchemaReport.check e.records allowed).violations = []) ∧
      (v.evaluate e).tolerated = (SchemaReport.check e.records allowed).tolerated := by
  refine ⟨?_, ?_⟩
  · simp only [evaluate, h, Assertion.evaluate, isPassed_verdict]
    cases (SchemaReport.check e.records allowed).violations with
    | nil => simp [Evidence.conformance, Outcome.isPassed]
    | cons first rest => simp [Evidence.conformance, Evidence.fail, Outcome.isPassed]
  · simp only [evaluate, h, Assertion.evaluate]
    rfl

/-- A schema validator that passes keeps passing when more keys are allowed. -/
theorem isPassed_schemas {v w : Validator} {A B : List String} (hv : v.assertion = .schemas A)
    (hw : w.assertion = .schemas B) (h : A ⊆ B) {e : Evidence}
    (hpassed : (v.evaluate e).isPassed = true) : (w.evaluate e).isPassed = true := by
  have hnone := (evaluate_schemas hv e).1.1 hpassed
  have hfewer := SchemaReport.violations_sublist e.records h
  rw [hnone] at hfewer
  exact (evaluate_schemas hw e).1.2 (List.sublist_nil.1 hfewer)

end Validator

/-! ## Keys in a configuration -/

theorem mem_hash_errorKey (path pointer : String) : '#' ∈ (errorKey path pointer).toList := by
  simp [errorKey]

namespace Violation

/-- A violation is about a record, and its key is made for it. -/
theorem of_mem_violations {r : Record} {v : Violation} (h : v ∈ r.violations) :
    ∃ schema pointer message, v = make r schema pointer message := by
  rw [Record.violations] at h
  split at h
  · unfold ofRecord? at h
    split at h
    · cases h
    · exact ⟨_, _, _, List.mem_singleton.1 h⟩
    · split at h
      · exact ⟨_, _, _, List.mem_singleton.1 h⟩
      · exact ⟨_, _, _, List.mem_singleton.1 h⟩
      · rcases List.mem_map.1 h with ⟨f, -, rfl⟩
        exact ⟨_, _, _, rfl⟩
  · cases h

end Violation

/-- A configuration may allow all that is found: that adds no fault to it. -/
theorem Config.fault?_knownKeys (records : List Record) (config : Config) :
    { config with allowedErrors := SchemaReport.knownKeys records }.fault? =
      { config with allowedErrors := [] }.fault? := by
  -- The check looks for a key without a number sign, and every key is printed with one.
  have hnone : (SchemaReport.knownKeys records).find? (fun key => !key.toList.contains '#') =
      none := by
    refine List.find?_eq_none.2 fun key hkey => ?_
    rcases List.mem_map.1 hkey with ⟨v, hv, rfl⟩
    rw [SchemaReport.violations_nil, SchemaReport.found_eq] at hv
    rcases List.mem_flatMap.1 hv with ⟨r, -, hviolation⟩
    rcases Violation.of_mem_violations hviolation with ⟨schema, pointer, message, rfl⟩
    have hhash : '#' ∈ (errorKey r.path pointer).toList := mem_hash_errorKey r.path pointer
    simpa [Violation.make] using hhash
  rw [Config.fault?, Config.fault?]
  simp only [hnone, List.find?_nil]

end TraceAudit
