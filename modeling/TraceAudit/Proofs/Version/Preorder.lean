import TraceAudit.Proofs.Version.OwnForm

/-!
# Versions are totally preordered

Different versions may compare equal: build metadata does not count, and neither do zeros in front
of a number. All else that is expected of an order holds.

* the instances of `Std.TransCmp` say that each comparison is oriented and transitive, from texts
  and identifiers up to versions;
* `OrderLaws` lists what may be relied upon when three versions are compared;
* `Question` is a question about a version of a library, `Coherent` lists what may be relied upon in
  the answers to two of them;
* `comparisons_coherent` says that both always hold.
-/

namespace TraceAudit
namespace Version

/-! ## Comparisons that are transitive -/

instance : Std.TransCmp compareText := by
  have hlex : compareText = List.compareLex (compareOn Char.toNat) :=
    funext fun a => funext fun b => compareText_eq_compareLex a b
  rw [hlex]
  infer_instance

theorem compareText_swap (a b : List Char) : compareText a b = (compareText b a).swap :=
  Std.OrientedCmp.eq_swap

instance : Std.OrientedCmp compareIdentifier where
  eq_swap {a b} := by
    unfold compareIdentifier
    cases Decimal.u64? a with
    | none =>
      cases Decimal.u64? b with
      | none => exact compareText_swap a b
      | some n => rfl
    | some m =>
      cases Decimal.u64? b with
      | none => rfl
      | some n => exact Std.OrientedOrd.eq_swap

/-- Numbers come before all other texts, so a third identifier can only stay in its class or leave
the numbers. -/
theorem isLE_compareIdentifier_trans {a b c : List Char}
    (hab : (compareIdentifier a b).isLE = true) (hbc : (compareIdentifier b c).isLE = true) :
    (compareIdentifier a c).isLE = true := by
  unfold compareIdentifier at *
  cases ha : Decimal.u64? a with
  | none =>
    cases hb : Decimal.u64? b with
    | none =>
      cases hc : Decimal.u64? c with
      | none =>
        simp only [ha, hb, hc] at hab hbc ⊢
        exact Std.TransCmp.isLE_trans hab hbc
      | some k =>
        simp only [hb, hc] at hbc
        cases hbc
    | some n =>
      simp only [ha, hb] at hab
      cases hab
  | some m =>
    cases hc : Decimal.u64? c with
    | none => rfl
    | some k =>
      cases hb : Decimal.u64? b with
      | none =>
        simp only [hb, hc] at hbc
        cases hbc
      | some n =>
        simp only [ha, hb, hc] at hab hbc ⊢
        exact Std.TransCmp.isLE_trans hab hbc

instance : Std.TransCmp compareIdentifier where
  isLE_trans := isLE_compareIdentifier_trans

instance : Std.TransCmp compareIdentifiers := by
  have hlex : compareIdentifiers = List.compareLex compareIdentifier :=
    funext fun a => funext fun b => compareIdentifiers_eq_compareLex a b
  rw [hlex]
  infer_instance

theorem compareIdentifiers_swap (a b : List (List Char)) :
    compareIdentifiers a b = (compareIdentifiers b a).swap :=
  Std.OrientedCmp.eq_swap

instance : Std.OrientedCmp comparePre where
  eq_swap {a b} := by
    cases a with
    | none => cases b <;> rfl
    | some p =>
      cases b with
      | none => rfl
      | some q => exact compareIdentifiers_swap _ _

/-- The release lies above all pre-releases. -/
theorem isLE_comparePre_trans {a b c : Option String} (hab : (comparePre a b).isLE = true)
    (hbc : (comparePre b c).isLE = true) : (comparePre a c).isLE = true := by
  cases c with
  | none => cases a <;> rfl
  | some r =>
    cases b with
    | none => cases hbc
    | some q =>
      cases a with
      | none => cases hab
      | some p =>
        unfold comparePre at *
        exact Std.TransCmp.isLE_trans hab hbc

instance : Std.TransCmp comparePre where
  isLE_trans := isLE_comparePre_trans

instance : Std.TransCmp fun v w : Version => comparePre v.pre w.pre where
  eq_swap := Std.OrientedCmp.eq_swap
  isLE_trans := Std.TransCmp.isLE_trans

/-- Versions compare lexicographically, number by number and then by the pre-release. -/
theorem compare_eq_compareLex :
    Version.compare =
      compareLex (compareOn major) (compareLex (compareOn minor)
        (compareLex (compareOn patch) fun v w => comparePre v.pre w.pre)) := rfl

instance : Std.TransCmp Version.compare := by
  rw [compare_eq_compareLex]
  infer_instance

theorem compare_swap (v w : Version) : v.compare w = (w.compare v).swap := Std.OrientedCmp.eq_swap

theorem same_iff {v w : Version} : v.same w = true ↔ v.compare w = .eq := beq_iff_eq

/-! ## The laws of the order -/

/-- What may be relied upon when three versions are compared. -/
structure OrderLaws (u v w : Version) : Prop where
  refl : u.compare u = .eq
  swap : v.compare u = (u.compare v).swap
  trans : (u.compare v).isLE = true → (v.compare w).isLE = true → (u.compare w).isLE = true
  /-- Strictly lower, equal and strictly higher are each transitive. -/
  trans_of_eq : ∀ o, u.compare v = o → v.compare w = o → u.compare w = o
  same_iff : u.same v = true ↔ u.compare v = .eq
  same_refl : u.same u = true
  same_symm : u.same v = true → v.same u = true
  same_trans : u.same v = true → v.same w = true → u.same w = true
  /-- Equal versions compare alike with every other one, on either side. -/
  respects : u.same v = true → u.compare w = v.compare w ∧ w.compare u = w.compare v

theorem orderLaws (u v w : Version) : OrderLaws u v w where
  refl := compare_self u
  swap := compare_swap v u
  trans := Std.TransCmp.isLE_trans
  trans_of_eq := by
    rintro (_ | _ | _) huv hvw
    · exact Std.TransCmp.lt_trans huv hvw
    · exact Std.TransCmp.eq_trans huv hvw
    · exact Std.TransCmp.gt_trans huv hvw
  same_iff := same_iff
  same_refl := same_iff.2 (compare_self u)
  same_symm := fun h => same_iff.2 (Std.OrientedCmp.eq_symm (same_iff.1 h))
  same_trans := fun huv hvw => same_iff.2 (Std.TransCmp.eq_trans (same_iff.1 huv) (same_iff.1 hvw))
  respects := fun h =>
    ⟨Std.TransCmp.congr_left (same_iff.1 h), Std.TransCmp.congr_right (same_iff.1 h)⟩

end Version

/-! ## Questions about versions -/

/-- A question about a version of a library. The name of a library ends where the first `@` is. -/
structure Question where
  library : String
  version : String
  unmarked : '@' ∉ library.toList

namespace Question

def text (q : Question) : String := q.library ++ "@" ++ q.version

theorem splitOnce_text (q : Question) :
    Text.splitOnce '@' q.text.toList = some (q.library.toList, q.version.toList) := by
  have htext : q.text.toList = q.library.toList ++ '@' :: q.version.toList := by
    simp [text, String.toList_append]
  rw [htext]
  exact Text.splitOnce_append q.unmarked

end Question

namespace LibraryVersion

variable (l : LibraryVersion) (q r : Question)

theorem satisfies_question :
    l.satisfies q.text = (l.compareWith q.library q.version).map (· == some .eq) := by
  simp only [LibraryVersion.satisfies, q.splitOnce_text, String.ofList_toList]
  cases l.compareWith q.library q.version <;> rfl

theorem atLeast_question :
    l.atLeast q.text =
      (l.compareWith q.library q.version).map fun o => o == some .eq || o == some .gt := by
  simp only [LibraryVersion.atLeast, splitQuestion, q.splitOnce_text, String.ofList_toList, bind,
    Except.bind]
  cases l.compareWith q.library q.version <;> rfl

theorem olderThan_question :
    l.olderThan q.text = (l.compareWith q.library q.version).map (· == some .lt) := by
  simp only [LibraryVersion.olderThan, splitQuestion, q.splitOnce_text, String.ofList_toList, bind,
    Except.bind]
  cases l.compareWith q.library q.version <;> rfl

/-- The question is about the library under test, whose version is `own`, and about a version that
reads as `other`. -/
structure Compares (own other : Version) : Prop where
  library : l.library = some q.library
  version : l.version = some own
  reads : Version.ofReport q.library q.version = .ok other

/-- What may be relied upon in the answers to two questions. -/
structure Coherent : Prop where
  /-- A version is reached or not, and never both. -/
  either : ∀ own other, l.Compares q own other →
    (l.atLeast q.text = .ok true ∧ l.olderThan q.text = .ok false) ∨
      (l.atLeast q.text = .ok false ∧ l.olderThan q.text = .ok true)
  atLeast_of_satisfies : ∀ own other, l.Compares q own other →
    l.satisfies q.text = .ok true → l.atLeast q.text = .ok true
  /-- Who reaches a version reaches the lower ones. -/
  atLeast_of_isLE : ∀ own low high, l.Compares q own low → l.Compares r own high →
    (low.compare high).isLE = true → l.atLeast r.text = .ok true → l.atLeast q.text = .ok true
  /-- Who is older than a version is older than the higher ones. -/
  olderThan_of_isLE : ∀ own low high, l.Compares q own low → l.Compares r own high →
    (low.compare high).isLE = true → l.olderThan q.text = .ok true → l.olderThan r.text = .ok true
  /-- Versions of different libraries never compare. -/
  otherLibrary : l.library ≠ some q.library →
    l.satisfies q.text = .ok false ∧ l.atLeast q.text = .ok false ∧ l.olderThan q.text = .ok false
  unreported : l.library = some q.library → l.version = none →
    l.satisfies q.text = .error (.unreported q.library q.version) ∧
      l.atLeast q.text = .error (.unreported q.library q.version) ∧
      l.olderThan q.text = .error (.unreported q.library q.version)

variable {l q r} {own other low high : Version}

theorem Compares.compareWith (h : l.Compares q own other) :
    l.compareWith q.library q.version = .ok (some (own.compare other)) := by
  rcases l with ⟨library, version⟩
  cases h.library
  cases h.version
  rw [compareWith_own, h.reads]
  rfl

theorem Compares.satisfies_iff (h : l.Compares q own other) :
    l.satisfies q.text = .ok true ↔ own.compare other = .eq := by
  simp [satisfies_question, h.compareWith, Except.map]

theorem Compares.atLeast_eq (h : l.Compares q own other) :
    l.atLeast q.text = .ok (other.compare own).isLE := by
  rw [atLeast_question, h.compareWith, Version.compare_swap other own]
  cases own.compare other <;> rfl

theorem Compares.olderThan_eq (h : l.Compares q own other) :
    l.olderThan q.text = .ok (!(other.compare own).isLE) := by
  rw [olderThan_question, h.compareWith, Version.compare_swap other own]
  cases own.compare other <;> rfl

theorem compareWith_other (h : l.library ≠ some q.library) :
    l.compareWith q.library q.version = .ok none := by
  simp [LibraryVersion.compareWith, LibraryVersion.is, h]

theorem compareWith_unreported (hlibrary : l.library = some q.library) (hversion : l.version = none) :
    l.compareWith q.library q.version = .error (.unreported q.library q.version) := by
  simp [LibraryVersion.compareWith, LibraryVersion.is, hlibrary, hversion]

theorem coherent (l : LibraryVersion) (q r : Question) : l.Coherent q r where
  either := by
    intro own other h
    rw [h.atLeast_eq, h.olderThan_eq]
    cases (other.compare own).isLE with
    | true => exact Or.inl ⟨rfl, rfl⟩
    | false => exact Or.inr ⟨rfl, rfl⟩
  atLeast_of_satisfies := by
    intro own other h hsatisfies
    have hsame : other.compare own = .eq := Std.OrientedCmp.eq_symm (h.satisfies_iff.1 hsatisfies)
    rw [h.atLeast_eq, hsame]
    rfl
  atLeast_of_isLE := by
    intro own low high hlow hhigh hle hreached
    rw [hhigh.atLeast_eq] at hreached
    rw [hlow.atLeast_eq, Std.TransCmp.isLE_trans hle (Except.ok.inj hreached)]
  olderThan_of_isLE := by
    intro own low high hlow hhigh hle holder
    rw [hlow.olderThan_eq] at holder
    rw [hhigh.olderThan_eq]
    -- Were the higher version reached, so would be the lower one.
    have hnot : ¬(high.compare own).isLE = true := by
      intro hreached
      rw [Std.TransCmp.isLE_trans hle hreached] at holder
      cases holder
    simp [hnot]
  otherLibrary := by
    intro h
    rw [satisfies_question, atLeast_question, olderThan_question, compareWith_other h]
    exact ⟨rfl, rfl, rfl⟩
  unreported := by
    intro hlibrary hversion
    rw [satisfies_question, atLeast_question, olderThan_question,
      compareWith_unreported hlibrary hversion]
    exact ⟨rfl, rfl, rfl⟩

/-- Versions are totally preordered, whatever their numbers and texts, and the answers to questions
about versions follow this order. -/
theorem comparisons_coherent (u v w : Version) (l : LibraryVersion) (q r : Question) :
    Version.OrderLaws u v w ∧ l.Coherent q r :=
  ⟨Version.orderLaws u v w, coherent l q r⟩

/-- A number beyond 64 bits counts as text, and lies between the numbers and the letters. Zeros in
front do not count, so `1.2.0-rc.01` is reached by `1.2.0-rc.1`. -/
theorem comparisons_coherent_zeros :
    Version.compare ⟨1, 2, 0, some "7", none⟩ ⟨1, 2, 0, some "a", none⟩ = .lt ∧
      LibraryVersion.atLeast ⟨some "java", some ⟨1, 2, 0, some "rc.1", none⟩⟩ "java@1.2.0-rc.01" =
        .ok true := by
  let l : LibraryVersion := ⟨some "java", some ⟨1, 2, 0, some "rc.1", none⟩⟩
  let q : Question := ⟨"java", "1.2.0-rc.01", by decide⟩
  have hcompares : l.Compares q ⟨1, 2, 0, some "rc.1", none⟩ ⟨1, 2, 0, some "rc.01", none⟩ :=
    ⟨rfl, rfl, by decide +kernel⟩
  rcases comparisons_coherent ⟨1, 2, 0, some "7", none⟩
    ⟨1, 2, 0, some "18446744073709551616", none⟩ ⟨1, 2, 0, some "a", none⟩ l q q with
    ⟨hlaws, hcoherent⟩
  refine ⟨hlaws.trans_of_eq .lt (by decide +kernel) (by decide +kernel), ?_⟩
  exact hcoherent.atLeast_of_satisfies _ _ hcompares (by decide +kernel)

end LibraryVersion
end TraceAudit
