import Mathlib.Data.Set.Finite.Lemmas
import Mathlib.Order.Interval.Set.Basic
import TraceAudit.Proofs.Text.Distinct
import TraceAudit.Proofs.Trace.Readable
import TraceAudit.Proofs.Validator.ArrivalOrder

/-!
# Continuity of telemetry

The telemetry messages of a runtime are numbered. They may arrive in any order and more than once,
so whether one is missing is a question about the set of the numbers that arrived.

* `Numbered` says which records announce a number, `seqIds` is the set of them for a runtime;
* `Contiguous` sets have no hole, a `Gap` is a hole together with the members around it;
* `Lists` says that a list has the gaps of all runtimes, in order and each once;
* `telemetry_continuity` gives the verdict of the validator in these terms.
-/

namespace TraceAudit

/-! ## Numbers of messages -/

/-- The payload has a telemetry header with this runtime and a number of 64 bits. A message without
runtime counts for the nameless one. -/
structure Announces (payload : Json) (runtime : String) (n : Nat) : Prop where
  apiVersion : ∃ text, payload.get? "api_version" = some (.str text)
  requestType : ∃ text, payload.get? "request_type" = some (.str text)
  runtimeId : payload.get? "runtime_id" = some (.str runtime) ∨
    runtime = "" ∧ ∀ text, payload.get? "runtime_id" ≠ some (.str text)
  seqId : ∃ v, payload.get? "seq_id" = some v ∧ v.natural? = some n ∧ n < Word.count64

/-- The record is a telemetry message of the runtime with this number. -/
structure Numbered (r : Record) (runtime : String) (n : Nat) : Prop where
  isRequest : r.isRequest = true
  path : r.path = Selection.libraryTelemetryPath ∨ r.path = Selection.agentTelemetryPath
  announces : ∃ payload, r.json? = some payload ∧ Announces payload runtime n

/-- The numbers of a runtime that arrived. -/
def seqIds (records : List Record) (runtime : String) : Set Nat :=
  {n | ∃ r ∈ records, Numbered r runtime n}

theorem requiredText_eq_ok {payload : Json} {field text : String} :
    TelemetryHeader.requiredText payload field = .ok text ↔
      payload.get? field = some (.str text) := by
  rw [TelemetryHeader.requiredText]
  cases hmember : payload.get? field with
  | none => simp
  | some v => cases v <;> simp [Json.asString?]

/-- The runtime of a header is the text under its key, or else the empty text. -/
theorem runtime_eq {member : Option Json} {runtime : String} :
    (member.bind Json.asString?).getD "" = runtime ↔
      member = some (.str runtime) ∨ runtime = "" ∧ ∀ text, member ≠ some (.str text) := by
  cases member with
  | none => simp [eq_comm]
  | some v => cases v <;> simp [Json.asString?, eq_comm]

theorem ofJson_announces {payload : Json} {runtime : String} {n : Nat} :
    (∃ header, TelemetryHeader.ofJson payload = .ok header ∧ header.seqId = some n ∧
      header.runtimeId.getD "" = runtime) ↔ Announces payload runtime n := by
  have hseqId : (payload.get? "seq_id").bind Json.lenientU64? = some n ↔
      ∃ v, payload.get? "seq_id" = some v ∧ v.natural? = some n ∧ n < Word.count64 := by
    simp only [Option.bind_eq_some_iff, Json.lenientU64?_eq_some]
  constructor
  · rintro ⟨header, hheader, hnumber, hruntime⟩
    rcases bind_eq_ok.1 hheader with ⟨version, hversion, hheader⟩
    rcases bind_eq_ok.1 hheader with ⟨kind, hkind, hheader⟩
    cases hheader
    exact ⟨⟨version, requiredText_eq_ok.1 hversion⟩, ⟨kind, requiredText_eq_ok.1 hkind⟩,
      runtime_eq.1 hruntime, hseqId.1 hnumber⟩
  · rintro ⟨⟨version, hversion⟩, ⟨kind, hkind⟩, hruntime, hnumber⟩
    exact ⟨_, bind_eq_ok.2 ⟨version, requiredText_eq_ok.2 hversion,
      bind_eq_ok.2 ⟨kind, requiredText_eq_ok.2 hkind, rfl⟩⟩, hseqId.2 hnumber,
      runtime_eq.2 hruntime⟩

theorem telemetryNumber?_eq_some {r : Record} {runtime : String} {n : Nat} :
    Evidence.telemetryNumber? r = some (runtime, n) ↔ Numbered r runtime n := by
  have hsent : (r.isRequest && (r.path == Selection.libraryTelemetryPath ||
      r.path == Selection.agentTelemetryPath)) = true ↔ r.isRequest = true ∧
      (r.path = Selection.libraryTelemetryPath ∨ r.path = Selection.agentTelemetryPath) := by
    simp
  rw [Evidence.telemetryNumber?.eq_def]
  constructor
  · intro h
    split at h
    · rename_i hcondition
      rcases hsent.1 hcondition with ⟨hrequest, hpath⟩
      rcases Option.bind_eq_some_iff.1 h with ⟨header, hheader, h⟩
      rcases Option.bind_eq_some_iff.1 h with ⟨number, hnumber, hpair⟩
      rcases Option.bind_eq_some_iff.1 hheader with ⟨payload, hpayload, hok⟩
      cases hpair
      refine ⟨hrequest, hpath, payload, hpayload, ofJson_announces.1 ⟨header, ?_, hnumber, rfl⟩⟩
      cases hread : TelemetryHeader.ofJson payload with
      | error e =>
        rw [hread] at hok
        cases hok
      | ok found =>
        rw [hread] at hok
        cases hok
        rfl
    · cases h
  · rintro ⟨hrequest, hpath, payload, hpayload, hannounces⟩
    rcases ofJson_announces.2 hannounces with ⟨header, hheader, hnumber, rfl⟩
    simp only [hsent.2 ⟨hrequest, hpath⟩, if_true, hpayload]
    simp [hheader, hnumber, Except.toOption]

/-! ## Sets of numbers -/

/-- The set holds all numbers from its least to its greatest member. -/
def Contiguous (numbers : Set Nat) : Prop :=
  ∃ low high, IsLeast numbers low ∧ IsGreatest numbers high ∧ Set.Icc low high ⊆ numbers

/-- An interval of missing numbers that cannot be extended, given by the members around it. -/
structure Gap (numbers : Set Nat) (after next : Nat) : Prop where
  after_mem : after ∈ numbers
  next_mem : next ∈ numbers
  missing : (Set.Ioo after next).Nonempty
  absent : ∀ n ∈ Set.Ioo after next, n ∉ numbers

theorem Gap.not_contiguous {numbers : Set Nat} {after next : Nat} (h : Gap numbers after next) :
    ¬Contiguous numbers := by
  rintro ⟨low, high, hlow, hhigh, hall⟩
  rcases h.missing with ⟨n, hn⟩
  have hinside : n ∈ Set.Icc low high :=
    ⟨(hlow.2 h.after_mem).trans hn.1.le, hn.2.le.trans (hhigh.2 h.next_mem)⟩
  exact h.absent n hn (hall hinside)

theorem exists_gap {numbers : Set Nat} (hfinite : numbers.Finite) (hne : numbers.Nonempty)
    (h : ¬Contiguous numbers) : ∃ after next, Gap numbers after next := by
  rcases Set.exists_min_image numbers id hfinite hne with ⟨low, hlow, hleast⟩
  rcases Set.exists_max_image numbers id hfinite hne with ⟨high, hhigh, hgreatest⟩
  have hmissing : ¬Set.Icc low high ⊆ numbers := fun hall =>
    h ⟨low, high, ⟨hlow, hleast⟩, ⟨hhigh, hgreatest⟩, hall⟩
  rcases Set.not_subset.1 hmissing with ⟨n, ⟨hge, hle⟩, hn⟩
  have hlt : low < n := lt_of_le_of_ne hge fun heq => hn (heq ▸ hlow)
  have hgt : n < high := lt_of_le_of_ne hle fun heq => hn (heq ▸ hhigh)
  -- The gap around `n` reaches to the closest members on both sides.
  rcases Set.exists_max_image {m ∈ numbers | m < n} id (hfinite.subset (Set.sep_subset _ _))
    ⟨low, hlow, hlt⟩ with ⟨after, ⟨hafter, hbefore⟩, hlast⟩
  rcases Set.exists_min_image {m ∈ numbers | n < m} id (hfinite.subset (Set.sep_subset _ _))
    ⟨high, hhigh, hgt⟩ with ⟨next, ⟨hnext, hbehind⟩, hfirst⟩
  refine ⟨after, next, hafter, hnext, ⟨n, hbefore, hbehind⟩, fun m hm hmem => ?_⟩
  rcases lt_trichotomy m n with hbelow | rfl | habove
  · exact absurd hm.1 (not_lt.2 (hlast m ⟨hmem, hbelow⟩))
  · exact hn hmem
  · exact absurd hm.2 (not_lt.2 (hfirst m ⟨hmem, habove⟩))

/-! ## Lists of gaps -/

/-- Gaps are ordered by runtime, and those of a runtime by position. -/
def Precedes (g h : String × Nat × Nat) : Prop := g.1 < h.1 ∨ g.1 = h.1 ∧ g.2.1 < h.2.1

instance : Std.Irrefl Precedes where
  irrefl := by
    rintro g (hlt | ⟨-, hlt⟩)
    · exact lt_irrefl _ hlt
    · exact lt_irrefl _ hlt

instance : Std.Antisymm Precedes where
  antisymm := by
    rintro g h (hlt | ⟨heq, hlt⟩) (hgt | ⟨heq', hgt⟩)
    · exact absurd hgt hlt.asymm
    · exact absurd heq' hlt.ne'
    · exact absurd heq hgt.ne'
    · exact absurd hgt hlt.asymm

/-- The list has the gaps of all runtimes in order, and each of them once. -/
structure Lists (gaps : List (String × Nat × Nat)) (numbers : String → Set Nat) : Prop where
  mem : ∀ runtime after next,
    (runtime, after, next) ∈ gaps ↔ Gap (numbers runtime) after next
  ordered : gaps.Pairwise Precedes

/-- There is only one such list. -/
theorem Lists.unique {gaps gaps' : List (String × Nat × Nat)} {numbers : String → Set Nat}
    (h : Lists gaps numbers) (h' : Lists gaps' numbers) : gaps = gaps' := by
  refine h.ordered.eq_of_mem_iff h'.ordered ?_
  rintro ⟨runtime, after, next⟩
  exact (h.mem runtime after next).trans (h'.mem runtime after next).symm

namespace Evidence

theorem adjacent_cons {a b c d : Nat} {rest : List Nat} :
    [a, b] <:+: c :: d :: rest ↔ (a = c ∧ b = d) ∨ [a, b] <:+: d :: rest := by
  rw [List.infix_cons_iff]
  simp [List.cons_prefix_cons]

theorem mem_gapsIn {ids : List Nat} {after next : Nat} :
    (after, next) ∈ gapsIn ids ↔ [after, next] <:+: ids ∧ after + 1 < next := by
  fun_induction gapsIn ids with
  | case1 a b rest hgap ih =>
    rw [List.mem_cons, ih, adjacent_cons]
    constructor
    · rintro (heq | ⟨hrest, hlt⟩)
      · cases heq
        exact ⟨Or.inl ⟨rfl, rfl⟩, hgap⟩
      · exact ⟨Or.inr hrest, hlt⟩
    · rintro ⟨⟨rfl, rfl⟩ | hrest, hlt⟩
      · exact Or.inl rfl
      · exact Or.inr ⟨hrest, hlt⟩
  | case2 a b rest hgap ih =>
    rw [ih, adjacent_cons]
    constructor
    · rintro ⟨hrest, hlt⟩
      exact ⟨Or.inr hrest, hlt⟩
    · rintro ⟨⟨rfl, rfl⟩ | hrest, hlt⟩
      · exact absurd hlt hgap
      · exact ⟨hrest, hlt⟩
  | case3 ids hshort =>
    -- Two neighbours make a list of at least two items.
    have hnone : ¬[after, next] <:+: ids := by
      intro hinfix
      have htwo : 2 ≤ ids.length := hinfix.length_le
      match ids, htwo with
      | a :: b :: rest, _ => exact hshort a b rest rfl
    simp [hnone]

/-- In an ascending list, neighbours are members without a member between them. -/
theorem adjacent_iff {ids : List Nat} (h : ids.Pairwise (· < ·)) {after next : Nat} :
    [after, next] <:+: ids ↔
      after ∈ ids ∧ next ∈ ids ∧ after < next ∧ ∀ n ∈ ids, n ≤ after ∨ next ≤ n := by
  constructor
  · rintro ⟨front, back, rfl⟩
    simp only [List.pairwise_append, List.pairwise_cons, List.mem_append, List.mem_cons,
      List.not_mem_nil, or_false] at h
    refine ⟨by simp, by simp, h.1.2.1.1 next rfl, fun n hn => ?_⟩
    simp only [List.mem_append, List.mem_cons, List.not_mem_nil, or_false] at hn
    rcases hn with (hfront | rfl | rfl) | hback
    · exact Or.inl (h.1.2.2 n hfront after (Or.inl rfl)).le
    · exact Or.inl le_rfl
    · exact Or.inr le_rfl
    · exact Or.inr (h.2.2 next (Or.inr (Or.inr rfl)) n hback).le
  · rintro ⟨hafter, hnext, hlt, hnone⟩
    induction ids with
    | nil => cases hafter
    | cons a rest ih =>
      rw [List.pairwise_cons] at h
      have hne : next ≠ a := by
        rintro rfl
        rcases List.mem_cons.1 hafter with rfl | hrest
        · exact lt_irrefl _ hlt
        · exact lt_asymm hlt (h.1 after hrest)
      have hrest : next ∈ rest := (List.mem_cons.1 hnext).resolve_left hne
      rcases List.mem_cons.1 hafter with rfl | hmem
      · cases rest with
        | nil => cases hrest
        | cons b rest =>
          -- The item behind `after` cannot lie below `next`.
          have hle : next ≤ b := (hnone b (by simp)).resolve_left (not_le.2 (h.1 b (by simp)))
          rcases List.mem_cons.1 hrest with rfl | hlater
          · exact (List.prefix_append [after, next] rest).isInfix
          · exact absurd hle (not_le.2 ((List.pairwise_cons.1 h.2).1 next hlater))
      · exact List.infix_cons (ih h.2 hmem hrest fun n hn => hnone n (List.mem_cons_of_mem a hn))

theorem mem_gapsIn_iff_gap {ids : List Nat} (h : ids.Pairwise (· < ·)) {after next : Nat} :
    (after, next) ∈ gapsIn ids ↔ Gap {n | n ∈ ids} after next := by
  rw [mem_gapsIn, adjacent_iff h]
  constructor
  · rintro ⟨⟨hafter, hnext, -, hnone⟩, hlt⟩
    refine ⟨hafter, hnext, ⟨after + 1, Nat.lt_succ_self after, hlt⟩, fun n hn hmem => ?_⟩
    rcases hnone n hmem with hle | hge
    · exact absurd hn.1 (not_lt.2 hle)
    · exact absurd hn.2 (not_lt.2 hge)
  · rintro ⟨hafter, hnext, ⟨m, hm⟩, habsent⟩
    have hlt : after + 1 < next := Nat.lt_of_le_of_lt hm.1 hm.2
    refine ⟨⟨hafter, hnext, by omega, fun n hn => ?_⟩, hlt⟩
    by_contra hinside
    rw [not_or, not_le, not_le] at hinside
    exact habsent n hinside hn

/-- A gap stands at the number in front of it. -/
theorem map_fst_gapsIn_sublist (ids : List Nat) : ((gapsIn ids).map (·.1)).Sublist ids := by
  fun_induction gapsIn ids with
  | case1 a b rest hgap ih => exact ih.cons_cons a
  | case2 a b rest hgap ih => exact ih.cons a
  | case3 ids hshort => exact List.nil_sublist ids

theorem mem_numbersOf {numbers : List (String × Nat)} {runtime : String} {n : Nat} :
    n ∈ numbersOf numbers runtime ↔ (runtime, n) ∈ numbers := by
  rw [numbersOf, mem_eraseReps_mergeSort]
  simp

theorem pairwise_numbersOf (numbers : List (String × Nat)) (runtime : String) :
    (numbersOf numbers runtime).Pairwise (· < ·) :=
  pairwise_eraseReps_mergeSort _

/-- The validator walks through the numbers that arrived. -/
theorem mem_numbers {records : List Record} {runtime : String} {n : Nat} :
    n ∈ numbersOf (records.filterMap telemetryNumber?) runtime ↔ n ∈ seqIds records runtime := by
  rw [mem_numbersOf, List.mem_filterMap]
  simp only [telemetryNumber?_eq_some]
  rfl

theorem finite_seqIds (records : List Record) (runtime : String) :
    (seqIds records runtime).Finite := by
  have hnumbers := List.finite_toSet (numbersOf (records.filterMap telemetryNumber?) runtime)
  exact hnumbers.subset fun n hn => mem_numbers.2 hn

theorem lists_telemetryGaps (records : List Record) :
    Lists (telemetryGaps (records.filterMap telemetryNumber?)) (seqIds records) where
  mem := by
    intro runtime after next
    let numbers := records.filterMap telemetryNumber?
    have hgap : (after, next) ∈ gapsIn (numbersOf numbers runtime) ↔
        Gap (seqIds records runtime) after next := by
      have hset : {n | n ∈ numbersOf numbers runtime} = seqIds records runtime :=
        Set.ext fun n => mem_numbers
      rw [mem_gapsIn_iff_gap (pairwise_numbersOf numbers runtime), hset]
    have hmem : (runtime, after, next) ∈ telemetryGaps numbers ↔
        runtime ∈ Text.distinct (numbers.map (·.1)) ∧
          (after, next) ∈ gapsIn (numbersOf numbers runtime) := by
      simp [telemetryGaps]
    rw [hmem, hgap]
    refine ⟨fun h => h.2, fun h => ⟨?_, h⟩⟩
    -- A runtime with a gap has numbers.
    have hnumber : (runtime, after) ∈ numbers := mem_numbersOf.1 (mem_numbers.2 h.after_mem)
    exact Text.mem_distinct.2 (List.mem_map_of_mem hnumber)
  ordered := by
    refine List.pairwise_flatMap.2 ⟨fun runtime _ => ?_, ?_⟩
    · have hfirst := (pairwise_numbersOf (records.filterMap telemetryNumber?) runtime).sublist
        (map_fst_gapsIn_sublist _)
      exact List.pairwise_map.2 ((List.pairwise_map.1 hfirst).imp fun hlt => Or.inr ⟨rfl, hlt⟩)
    · refine (Text.pairwise_distinct _).imp ?_
      intro runtime runtime' hlt g hg g' hg'
      rcases List.mem_map.1 hg with ⟨pair, -, rfl⟩
      rcases List.mem_map.1 hg' with ⟨pair', -, rfl⟩
      exact Or.inl hlt

theorem isEmpty_numbers_iff (records : List Record) :
    (records.filterMap telemetryNumber?).isEmpty = true ↔
      ∀ runtime, seqIds records runtime = ∅ := by
  rw [List.isEmpty_iff, List.eq_nil_iff_forall_not_mem]
  simp only [Set.eq_empty_iff_forall_notMem, ← mem_numbers, mem_numbersOf, Prod.forall]

end Evidence

/-! ## Verdicts -/

/-- How these sets of numbers are judged. Of the gaps, the first ten are told. -/
structure JudgedContinuous (numbers : String → Set Nat) (o : Outcome) : Prop where
  missing : (∀ runtime, numbers runtime = ∅) → o.kind? = some .noMatchingData
  passed : (∃ runtime, (numbers runtime).Nonempty) →
    (∀ runtime, (numbers runtime).Nonempty → Contiguous (numbers runtime)) → o = .passed
  failed : (¬∀ runtime, (numbers runtime).Nonempty → Contiguous (numbers runtime)) →
    ∃ gaps, Lists gaps numbers ∧
      o = .failed
        { kind := .assertion
          message := s!"{gaps.length} gap(s) in telemetry seq_id"
          requestId := none
          observed := (gaps.take 10).map fun (runtime, after, next) => .obj
            [ ("after", Json.nat after),
              ("next", Json.nat next),
              ("runtime_id", .str runtime) ] }

namespace Evidence

theorem telemetryGaps_eq_nil_iff (records : List Record) :
    telemetryGaps (records.filterMap telemetryNumber?) = [] ↔
      ∀ runtime, (seqIds records runtime).Nonempty → Contiguous (seqIds records runtime) := by
  have hlists := lists_telemetryGaps records
  constructor
  · intro hnil runtime hne
    by_contra hnot
    rcases exists_gap (finite_seqIds records runtime) hne hnot with ⟨after, next, hgap⟩
    have hmem := (hlists.mem runtime after next).2 hgap
    rw [hnil] at hmem
    cases hmem
  · intro hall
    refine List.eq_nil_iff_forall_not_mem.2 ?_
    rintro ⟨runtime, after, next⟩ hmem
    have hgap := (hlists.mem runtime after next).1 hmem
    exact hgap.not_contiguous (hall runtime ⟨after, hgap.after_mem⟩)

theorem gaplessTelemetry_judged (e : Evidence) :
    JudgedContinuous (seqIds e.records) e.gaplessTelemetry := by
  have hempty := isEmpty_numbers_iff e.records
  have hgaps := telemetryGaps_eq_nil_iff e.records
  have hlists := lists_telemetryGaps e.records
  simp only [gaplessTelemetry]
  generalize e.records.filterMap telemetryNumber? = numbers at *
  generalize telemetryGaps numbers = gaps at *
  refine ⟨fun hnone => ?_, fun hsome hall => ?_, fun hnot => ⟨gaps, hlists, ?_⟩⟩
  · rw [if_pos (hempty.2 hnone)]
    rfl
  · rcases hsome with ⟨runtime, hne⟩
    have hfound : ¬numbers.isEmpty = true := fun h => hne.ne_empty (hempty.1 h runtime)
    rw [if_neg hfound, hgaps.2 hall]
    rfl
  · have hfound : ¬numbers.isEmpty = true := by
      intro h
      refine hnot fun runtime hne => ?_
      exact absurd (hempty.1 h runtime) hne.ne_empty
    have hgap : ¬gaps.isEmpty = true := fun h => hnot (hgaps.1 (List.isEmpty_iff.1 h))
    rw [if_neg hfound, if_neg hgap]
    rfl

/-- Evidence with the same numbers is judged alike. -/
theorem gaplessTelemetry_eq {e : Evidence} {records : List Record}
    (h : ∀ runtime, seqIds records runtime = seqIds e.records runtime) :
    { e with records }.gaplessTelemetry = e.gaplessTelemetry := by
  have hempty : (records.filterMap telemetryNumber?).isEmpty =
      (e.records.filterMap telemetryNumber?).isEmpty := by
    rw [Bool.eq_iff_iff, isEmpty_numbers_iff, isEmpty_numbers_iff]
    simp only [h]
  have hgaps : telemetryGaps (records.filterMap telemetryNumber?) =
      telemetryGaps (e.records.filterMap telemetryNumber?) := by
    have hsame : seqIds records = seqIds e.records := funext h
    have hlists := lists_telemetryGaps records
    rw [hsame] at hlists
    exact hlists.unique (lists_telemetryGaps e.records)
  simp only [gaplessTelemetry, hempty, hgaps]
  rfl

/-- The successor of a number is only taken where a greater number follows. -/
theorem succ_lt_of_adjacent {records : List Record} {runtime : String} {after next : Nat}
    (h : [after, next] <:+: numbersOf (records.filterMap telemetryNumber?) runtime) :
    after + 1 < Word.count64 := by
  rcases (adjacent_iff (pairwise_numbersOf _ runtime)).1 h with ⟨-, hnext, hlt, -⟩
  rcases mem_numbers.1 hnext with ⟨r, -, hnumbered⟩
  rcases hnumbered.announces with ⟨payload, -, hannounces⟩
  rcases hannounces.seqId with ⟨v, -, -, hfits⟩
  omega

end Evidence

/-- The verdict on the continuity of telemetry hangs on the sets of numbers alone, so neither on the
order of the records nor on repetitions, and the validator does not count beyond 64 bits. -/
theorem telemetry_continuity (v : Validator) (h : v.assertion = .gaplessTelemetry) (e : Evidence) :
    JudgedContinuous (seqIds e.records) (v.evaluate e).outcome ∧
      (∀ records, (∀ runtime, seqIds records runtime = seqIds e.records runtime) →
        (v.evaluate { e with records }).outcome = (v.evaluate e).outcome) ∧
      (∀ records, (∀ r, r ∈ records ↔ r ∈ e.records) →
        (v.evaluate { e with records }).outcome = (v.evaluate e).outcome) ∧
      ∀ runtime after next,
        [after, next] <:+: Evidence.numbersOf
          (e.records.filterMap Evidence.telemetryNumber?) runtime →
        after + 1 < Word.count64 := by
  have houtcome : ∀ e : Evidence, (v.evaluate e).outcome = e.gaplessTelemetry := by
    intro e
    have hnone : v.assertion.requestId? = none := by simp [h, Assertion.requestId?]
    rw [Validator.outcome_evaluate hnone, h, Assertion.evaluate]
  simp only [houtcome]
  refine ⟨e.gaplessTelemetry_judged, fun records => Evidence.gaplessTelemetry_eq, ?_,
    fun runtime after next => Evidence.succ_lt_of_adjacent⟩
  intro records hsame
  refine Evidence.gaplessTelemetry_eq fun runtime => ?_
  simp only [seqIds, hsame]

/-- A telemetry message of the library with these members, next to the required ones. -/
def telemetryMessage (members : List (String × Json)) : Record :=
  let payload := Json.object
    ([("api_version", .str "v2"), ("request_type", .str "app-heartbeat")] ++ members)
  Record.made .library Selection.libraryTelemetryPath (Payload.ofJson payload) default

/-- The number `2 ^ 64 - 2` is missing between a text and a number. The nameless runtime has its
own numbers. -/
def lastNumbers : Evidence :=
  { scenario := default
    records :=
      [ telemetryMessage [("runtime_id", .str "a"), ("seq_id", .nat 18446744073709551615)],
        telemetryMessage [("seq_id", .nat 0)],
        telemetryMessage [("runtime_id", .str "a"), ("seq_id", .str "18446744073709551613")],
        telemetryMessage [("seq_id", .nat 1)] ]
    wait := .quiescent
    timingFallback := true
    exceptions := [] }

def noSkippedNumbers : Validator :=
  { id := 0
    testId := "t"
    interface := .library
    assertion := .gaplessTelemetry }

/-- Two messages were sent again, and the gap is found all the same. -/
theorem telemetry_continuity_repeated :
    let records := (lastNumbers.records ++ lastNumbers.records.drop 2).reverse
    (noSkippedNumbers.evaluate { lastNumbers with records }).outcome.kind? = some .assertion := by
  intro records
  rcases telemetry_continuity noSkippedNumbers rfl lastNumbers with ⟨hjudged, -, hsame, -⟩
  have hmembers : ∀ r, r ∈ records ↔ r ∈ lastNumbers.records := by
    intro r
    have hdropped : r ∈ lastNumbers.records.drop 2 → r ∈ lastNumbers.records :=
      List.mem_of_mem_drop
    simp only [records, List.mem_reverse, List.mem_append]
    exact or_iff_left_of_imp hdropped
  have hnumbers : lastNumbers.records.filterMap Evidence.telemetryNumber? =
      [("a", 18446744073709551615), ("", 0), ("a", 18446744073709551613), ("", 1)] := by
    decide +kernel
  have hmem : ∀ n, n ∈ seqIds lastNumbers.records "a" ↔
      n = 18446744073709551615 ∨ n = 18446744073709551613 := by
    intro n
    rw [← Evidence.mem_numbers, Evidence.mem_numbersOf, hnumbers]
    simp
  have hgap : Gap (seqIds lastNumbers.records "a") 18446744073709551613 18446744073709551615 := by
    refine ⟨(hmem _).2 (Or.inr rfl), (hmem _).2 (Or.inl rfl), ⟨18446744073709551614, by simp⟩,
      fun n hn hnumber => ?_⟩
    rcases (hmem n).1 hnumber with rfl | rfl
    · exact lt_irrefl _ hn.2
    · exact lt_irrefl _ hn.1
  have hnot : ¬∀ runtime, (seqIds lastNumbers.records runtime).Nonempty →
      Contiguous (seqIds lastNumbers.records runtime) :=
    fun hall => hgap.not_contiguous (hall "a" ⟨_, hgap.after_mem⟩)
  rcases hjudged.failed hnot with ⟨gaps, -, houtcome⟩
  rw [hsame records hmembers, houtcome]
  rfl

end TraceAudit
