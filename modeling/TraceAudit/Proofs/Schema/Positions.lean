import Mathlib.Data.Multiset.AddSub
import TraceAudit.Proofs.Schema.Keys

/-!
# Violations without positions

The key and the message of a violation say nothing about where in an array it was found. So a
payload of spans is reported as the sum of its traces, and a trace as the sum of its spans.

* `Schema.remarks` lists what keys and messages tell about a value, and `Schema.remarks_arrayOf`
  goes through an array without looking at positions;
* `complaints_sum` is the statement about payloads of spans.
-/

namespace TraceAudit

namespace Schema

/-- The findings about a value as keys and messages tell them: each with the marks of the steps to
it. -/
def remarks (schema : Schema) (value : Json) : List (List String × String) :=
  (schema.findings [] value).map fun f => (f.place.map Segment.mark, f.message)

/-- A remark about an item of an array, as one about the array. -/
def starred (remark : List String × String) : List String × String :=
  ("*" :: remark.1, remark.2)

/-- An array is remarked upon item by item, whatever the positions. -/
theorem remarks_arrayOf (schema : Schema) (items : List Json) :
    (arrayOf schema).remarks (.arr items) =
      items.flatMap fun v => (schema.remarks v).map starred := by
  have hitem : ∀ (v : Json) (i : Nat),
      ((schema.findings [] v).map (Finding.under [.index i])).map
          (fun f => (f.place.map Segment.mark, f.message)) =
        (schema.remarks v).map starred := by
    intro v i
    simp [remarks, starred, Finding.under, Finding.message, Function.comp_def]
  -- The position of an item is used for its place only, and the mark of the place leaves it out.
  calc (arrayOf schema).remarks (.arr items)
      = items.zipIdx.flatMap fun pair => (schema.remarks pair.1).map starred := by
        rw [remarks, findings_arrayOf, List.map_flatMap]
        exact List.flatMap_congr fun pair _ => hitem pair.1 pair.2
    _ = (items.zipIdx.map Prod.fst).flatMap fun v => (schema.remarks v).map starred := by
        rw [List.flatMap_map]
    _ = items.flatMap fun v => (schema.remarks v).map starred := by
        rw [List.zipIdx_map_fst]

theorem remarks_arrayOf_append (schema : Schema) (front back : List Json) :
    (arrayOf schema).remarks (.arr (front ++ back)) =
      (arrayOf schema).remarks (.arr front) ++ (arrayOf schema).remarks (.arr back) := by
  simp only [remarks_arrayOf, List.flatMap_append]

theorem remarks_arrayOf_perm (schema : Schema) {items items' : List Json}
    (h : items.Perm items') :
    ((arrayOf schema).remarks (.arr items)).Perm ((arrayOf schema).remarks (.arr items')) := by
  rw [remarks_arrayOf, remarks_arrayOf]
  exact h.flatMap_right _

/-- An array whose remarks are the same up to their order may stand for another one inside an
array. -/
theorem remarks_arrayOf_congr (schema : Schema) (front back : List Json) {item item' : Json}
    (h : (schema.remarks item).Perm (schema.remarks item')) :
    ((arrayOf schema).remarks (.arr (front ++ item :: back))).Perm
      ((arrayOf schema).remarks (.arr (front ++ item' :: back))) := by
  simp only [remarks_arrayOf, List.flatMap_append, List.flatMap_cons]
  exact ((h.map starred).append_right _).append_left _

/-- What is remarked upon an item alone is remarked upon it in every array. -/
theorem remarks_arrayOf_sublist (schema : Schema) {item item' : Json} {items : List Json}
    (hmem : item' ∈ items) (h : (schema.remarks item).Sublist (schema.remarks item')) :
    ((arrayOf schema).remarks (.arr [item])).Sublist
      ((arrayOf schema).remarks (.arr items)) := by
  rcases List.append_of_mem hmem with ⟨front, back, rfl⟩
  simp only [remarks_arrayOf, List.flatMap_append, List.flatMap_cons, List.flatMap_nil,
    List.append_nil]
  exact (h.map starred).trans
    (List.sublist_append_of_sublist_right (List.sublist_append_left _ _))

end Schema

/-! ## Payloads of spans -/

/-- The keys and messages of the violations of a record, nothing when no schema governs it. -/
def Record.complaints? (r : Record) : Option (Multiset (String × String)) :=
  (Violation.ofRecord? r).map fun found => .ofList (found.map fun v => (v.key, v.message))

/-- The key and the message of a violation of which this is told. -/
def Schema.complaint (remark : List String × String) : String × String :=
  ("/v0.4/traces" ++ "#" ++ Text.join "/" ("" :: remark.1), remark.2)

/-- The keys and messages of the violations in a payload of spans. -/
def Schema.spanComplaints (payload : Json) : Multiset (String × String) :=
  .ofList ((libraryTracesV04.remarks payload).map complaint)

theorem Record.CarriesSpans.complaints? {r : Record} {payload : Json}
    (h : r.CarriesSpans payload) : r.complaints? = some (Schema.spanComplaints payload) := by
  have hfinding : ∀ f : Finding,
      (errorKey r.path f.place.render, f.message) =
        Schema.complaint (f.place.map Segment.mark, f.message) := by
    intro f
    rw [errorKey_render, h.path]
    rfl
  rw [Record.complaints?, h.ofRecord?, Option.map_some, Schema.spanComplaints, Schema.remarks,
    List.map_map, List.map_map]
  exact congrArg (fun told => some (Multiset.ofList told))
    (List.map_congr_left fun f _ => hfinding f)

namespace Schema

theorem spanComplaints_append (P Q : List Json) :
    spanComplaints (.arr (P ++ Q)) = spanComplaints (.arr P) + spanComplaints (.arr Q) := by
  simp only [spanComplaints, libraryTracesV04, remarks_arrayOf_append, List.map_append,
    Multiset.coe_add]

theorem spanComplaints_eq {P P' : List Json}
    (h : (libraryTracesV04.remarks (.arr P)).Perm (libraryTracesV04.remarks (.arr P'))) :
    spanComplaints (.arr P) = spanComplaints (.arr P') :=
  Multiset.coe_eq_coe.2 (h.map complaint)

end Schema

/-- A payload of spans is always checked. What is reported, by key and message, is the sum of what
is reported of two parts, does not depend on the order of the traces or of the spans in a trace, and
includes what is reported of each span alone. -/
theorem complaints_sum {P Q : List Json} {p q both : Record} (hp : p.CarriesSpans (.arr P))
    (hq : q.CarriesSpans (.arr Q)) (hboth : both.CarriesSpans (.arr (P ++ Q))) :
    ∃ ofP ofQ : Multiset (String × String),
      p.complaints? = some ofP ∧ q.complaints? = some ofQ ∧
      both.complaints? = some (ofP + ofQ) ∧
      (∀ (P' : List Json) (p' : Record), P.Perm P' → p'.CarriesSpans (.arr P') →
        p'.complaints? = some ofP) ∧
      (∀ (front spans spans' back : List Json) (p' : Record), P = front ++ .arr spans :: back →
        spans.Perm spans' → p'.CarriesSpans (.arr (front ++ .arr spans' :: back)) →
          p'.complaints? = some ofP) ∧
      ∀ (spans : List Json) (span : Json) (alone : Record), .arr spans ∈ P → span ∈ spans →
        alone.CarriesSpans (.arr [.arr [span]]) →
          ∃ ofSpan, alone.complaints? = some ofSpan ∧ ofSpan ≤ ofP := by
  refine ⟨Schema.spanComplaints (.arr P), Schema.spanComplaints (.arr Q), hp.complaints?,
    hq.complaints?, ?_, ?_, ?_, ?_⟩
  · rw [hboth.complaints?, Schema.spanComplaints_append]
  · intro P' p' hperm hp'
    rw [hp'.complaints?, Schema.spanComplaints_eq (Schema.remarks_arrayOf_perm _ hperm)]
  · rintro front spans spans' back p' rfl hperm hp'
    have htrace := Schema.remarks_arrayOf_perm Schema.librarySpan hperm
    rw [hp'.complaints?,
      Schema.spanComplaints_eq (Schema.remarks_arrayOf_congr _ front back htrace)]
  · intro spans span alone htrace hspan halone
    refine ⟨_, halone.complaints?, Multiset.coe_le.2 (List.Sublist.subperm (List.Sublist.map _ ?_))⟩
    -- First the span in its trace, then the trace in the payload.
    have hspans : ((Schema.arrayOf Schema.librarySpan).remarks (.arr [span])).Sublist
        ((Schema.arrayOf Schema.librarySpan).remarks (.arr spans)) :=
      Schema.remarks_arrayOf_sublist _ hspan (List.Sublist.refl _)
    exact Schema.remarks_arrayOf_sublist _ htrace hspans

/-- A request with these traces. -/
def tracesRequest (traces : List Json) : Record :=
  Record.made .library "/v0.4/traces" (Payload.ofJson (.arr traces)) default

theorem tracesRequest_carriesSpans (traces : List Json) :
    (tracesRequest traces).CarriesSpans (.arr traces) :=
  ⟨Or.inl rfl, rfl, rfl⟩

/-- A span with two bad tags, and a trace that is no array. -/
theorem complaints_sum_tags :
    ∃ ofP ofQ : Multiset (String × String),
      (tracesRequest [.arr [taggedSpan "a" "b"]]).complaints? = some ofP ∧ ofP.card = 2 ∧
      (tracesRequest [.nat 3]).complaints? = some ofQ ∧ ofQ.card = 1 ∧
      (tracesRequest ([.arr [taggedSpan "a" "b"]] ++ [.nat 3])).complaints? =
        some (ofP + ofQ) := by
  rcases complaints_sum (tracesRequest_carriesSpans [.arr [taggedSpan "a" "b"]])
    (tracesRequest_carriesSpans [.nat 3])
    (tracesRequest_carriesSpans ([.arr [taggedSpan "a" "b"]] ++ [.nat 3])) with
    ⟨ofP, ofQ, hp, hq, hboth, -⟩
  have hcardP : (tracesRequest [.arr [taggedSpan "a" "b"]]).complaints?.map Multiset.card =
      some 2 := by decide +kernel
  have hcardQ : (tracesRequest [.nat 3]).complaints?.map Multiset.card = some 1 := by
    decide +kernel
  rw [hp] at hcardP
  rw [hq] at hcardQ
  exact ⟨ofP, ofQ, hp, Option.some.inj hcardP, hq, Option.some.inj hcardQ, hboth⟩

end TraceAudit
