import TraceAudit.Proofs.Version.Spelling

/-!
# Comparing versions

* `compareText_eq_compareLex` and `compareIdentifiers_eq_compareLex` say that texts and lists of
  identifiers compare lexicographically;
* `compare_self` is reflexivity;
* `letters_eq_of_compare_eq` says that versions which compare equal have pre-releases with equally
  many letters. Other characters may differ: an identifier may have zeros in front.
-/

namespace TraceAudit
namespace Version

/-! ## Lexicographic order -/

theorem compareText_eq_compareLex (a b : List Char) :
    compareText a b = List.compareLex (compareOn Char.toNat) a b := by
  induction a generalizing b with
  | nil => cases b <;> rfl
  | cons x xs ih =>
    cases b with
    | nil => rfl
    | cons y ys =>
      rw [compareText, List.compareLex, ih, compareOn]
      cases Ord.compare x.toNat y.toNat <;> rfl

theorem compareIdentifiers_eq_compareLex (a b : List (List Char)) :
    compareIdentifiers a b = List.compareLex compareIdentifier a b := by
  induction a generalizing b with
  | nil => cases b <;> rfl
  | cons x xs ih =>
    cases b with
    | nil => rfl
    | cons y ys =>
      rw [compareIdentifiers, List.compareLex, ih]
      cases compareIdentifier x y <;> rfl

instance : Std.ReflCmp compareIdentifier where
  compare_self {a} := by
    unfold compareIdentifier
    cases Decimal.u64? a with
    | none => simp [compareText_eq_compareLex, Std.ReflCmp.compare_self]
    | some n => simp

theorem comparePre_self (pre : Option String) : comparePre pre pre = .eq := by
  cases pre with
  | none => rfl
  | some p =>
    rw [comparePre, compareIdentifiers_eq_compareLex]
    exact Std.ReflCmp.compare_self

theorem compare_self (v : Version) : v.compare v = .eq := by
  simp [compare, comparePre_self]

/-- Build metadata does not count. -/
theorem compare_withBuild (v : Version) (build : Option String) :
    v.compare { v with build } = .eq := compare_self v

theorem comparePre_eq_of_compare_eq {v w : Version} (h : v.compare w = .eq) :
    comparePre v.pre w.pre = .eq := by
  simp only [compare, Ordering.then_eq_eq] at h
  exact h.2.2.2

/-! ## Letters -/

/-- How many letters a text has. -/
def letters (text : List Char) : Nat := text.countP Text.isAsciiLetter

theorem letters_append (a b : List Char) : letters (a ++ b) = letters a + letters b :=
  List.countP_append

theorem letters_eq_zero {text : List Char} (h : ∀ c ∈ text, Text.isAsciiLetter c = false) :
    letters text = 0 :=
  List.countP_eq_zero.2 fun c hc => by simp [h c hc]

/-- A number has no letters. -/
theorem letters_of_u64? {text : List Char} {n : Nat} (h : Decimal.u64? text = some n) :
    letters text = 0 := by
  refine letters_eq_zero fun c hc => ?_
  rcases Decimal.mem_of_u64? h hc with rfl | hdigit
  · rfl
  · exact Text.isAsciiLetter_of_isDigit hdigit

/-- Points are no letters, so cutting at points loses none. -/
theorem letters_splitOn (text : List Char) :
    letters (Text.splitOn '.' text).flatten = letters text := by
  induction text with
  | nil => rfl
  | cons c rest ih =>
    by_cases hc : c = '.'
    · subst hc
      have hpoint : letters ('.' :: rest) = letters rest := rfl
      rw [Text.splitOn, if_pos rfl, List.flatten_cons, List.nil_append, ih, hpoint]
    · rw [Text.splitOn, if_neg hc]
      cases hpieces : Text.splitOn '.' rest with
      | nil => exact absurd hpieces (Text.splitOn_ne_nil '.' rest)
      | cons piece pieces =>
        have hrest : letters (piece ++ pieces.flatten) = letters rest := by
          rw [← ih, hpieces, List.flatten_cons]
        calc
          letters (c :: (piece ++ pieces.flatten))
              = letters [c] + letters (piece ++ pieces.flatten) := letters_append [c] _
          _ = letters [c] + letters rest := by rw [hrest]
          _ = letters (c :: rest) := (letters_append [c] rest).symm

theorem compareText_eq_eq {a b : List Char} : compareText a b = .eq ↔ a = b := by
  induction a generalizing b with
  | nil => cases b <;> simp [compareText]
  | cons x xs ih =>
    cases b with
    | nil => simp [compareText]
    | cons y ys => simp [compareText, ih, Char.toNat_inj]

theorem letters_eq_of_compareIdentifier {a b : List Char} (h : compareIdentifier a b = .eq) :
    letters a = letters b := by
  unfold compareIdentifier at h
  split at h
  · rename_i ha hb
    rw [letters_of_u64? ha, letters_of_u64? hb]
  · cases h
  · cases h
  · rw [compareText_eq_eq.1 h]

theorem letters_eq_of_compareIdentifiers {as bs : List (List Char)}
    (h : compareIdentifiers as bs = .eq) : letters as.flatten = letters bs.flatten := by
  induction as generalizing bs with
  | nil =>
    cases bs with
    | nil => rfl
    | cons b bs => cases h
  | cons a as ih =>
    cases bs with
    | nil => cases h
    | cons b bs =>
      rcases Ordering.then_eq_eq.1 h with ⟨hhead, htail⟩
      rw [List.flatten_cons, List.flatten_cons, letters_append, letters_append,
        letters_eq_of_compareIdentifier hhead, ih htail]

theorem letters_eq_of_comparePre {a b : Option String} (h : comparePre a b = .eq) :
    letters (a.elim [] String.toList) = letters (b.elim [] String.toList) := by
  cases a with
  | none =>
    cases b with
    | none => rfl
    | some q => cases h
  | some p =>
    cases b with
    | none => cases h
    | some q =>
      calc
        letters p.toList
            = letters (Text.splitOn '.' p.toList).flatten := (letters_splitOn p.toList).symm
        _ = letters (Text.splitOn '.' q.toList).flatten := letters_eq_of_compareIdentifiers h
        _ = letters q.toList := letters_splitOn q.toList

/-- Versions that compare equal have equally many letters in their pre-releases. -/
theorem letters_eq_of_compare_eq {v w : Version} (h : v.compare w = .eq) :
    letters v.preText = letters w.preText :=
  letters_eq_of_comparePre (comparePre_eq_of_compare_eq h)

end Version
end TraceAudit
