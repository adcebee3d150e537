import TraceAudit.Proofs.Trace.Readable

/-!
# Numbers as they are written

* `Decimal.ofDigits?_repr`, `Decimal.u64?_repr` and `Decimal.i64?_repr` read back what is printed;
* `WritesId` lists the notations of an id, `WritesId.spanId?` reads all of them.
-/

namespace TraceAudit

/-! ## Printed numerals -/

namespace Decimal

theorem isDigit_of_mem_repr {n : Nat} {c : Char} (h : c ∈ n.repr.toList) :
    Text.isDigit c = true := by
  rw [Nat.toList_repr] at h
  have hdigit := Nat.isDigit_of_mem_toDigits (by decide) (by decide) h
  simpa [Char.isDigit, Text.isDigit, Char.le_def] using hdigit

theorem valueOf_repr (n : Nat) : valueOf n.repr.toList = n := by
  rw [Nat.toList_repr]
  exact Nat.ofDigitChars_toDigits (by decide) (by decide)

/-- The digits of a number are read as the number. -/
theorem ofDigits?_repr (n : Nat) : ofDigits? n.repr.toList = some n := by
  have hall : n.repr.toList.all Text.isDigit = true :=
    List.all_eq_true.2 fun c hc => isDigit_of_mem_repr hc
  have hne : n.repr.toList ≠ [] := by
    rw [Nat.toList_repr]
    exact Nat.toDigits_ne_nil
  rw [ofDigits?, if_pos ⟨hne, hall⟩, valueOf_repr]

theorem natural?_repr (n : Nat) : natural? n.repr.toList = some n := by
  have hdigits := ofDigits?_repr n
  cases htext : n.repr.toList with
  | nil =>
    rw [htext] at hdigits
    exact hdigits
  | cons c rest =>
    have hplus : c ≠ '+' := by
      rintro rfl
      have hdigit : Text.isDigit '+' = true := isDigit_of_mem_repr (n := n) (by simp [htext])
      cases hdigit
    rw [htext] at hdigits
    simpa [natural?, hplus] using hdigits

theorem u64?_repr {n : Nat} (h : n < Word.count64) : u64? n.repr.toList = some n :=
  u64?_eq_some.2 ⟨natural?_repr n, h⟩

theorem toList_repr_negSucc (n : Nat) :
    (Int.negSucc n).repr.toList = '-' :: (n + 1).repr.toList := by
  change ("-" ++ (n + 1).repr).toList = _
  rw [String.toList_append]
  rfl

theorem u64?_repr_of_neg {i : Int} (h : i < 0) : u64? i.repr.toList = none := by
  cases i with
  | ofNat n => exact absurd h (by simp)
  | negSucc n =>
    rw [toList_repr_negSucc]
    exact u64?_minus _

theorem i64?_repr {i : Int} (hlow : -(Word.half64 : Int) ≤ i) (hhigh : i < Word.half64) :
    i64? i.repr.toList = some i := by
  cases i with
  | ofNat n =>
    have hminus : ∀ digits, n.repr.toList ≠ '-' :: digits := by
      intro digits heq
      have hdigit : Text.isDigit '-' = true := isDigit_of_mem_repr (n := n) (by simp [heq])
      cases hdigit
    have hle : n ≤ maxI64 := by
      have hmax : maxI64 + 1 = Word.half64 := rfl
      have hlt : (n : Int) < Word.half64 := hhigh
      omega
    change i64? n.repr.toList = some (Int.ofNat n)
    rw [i64?_of_not_minus hminus, unsigned?_eq_some.2 ⟨natural?_repr n, hle⟩]
    rfl
  | negSucc n =>
    have hle : n + 1 ≤ Word.half64 := by omega
    rw [toList_repr_negSucc, i64?, signed?, ofDigits?_repr]
    simp [hle, Int.negSucc_eq]

end Decimal

/-! ## Notations of an id -/

/-- A signed id is read by its bits. -/
theorem unsignedId_toInt64 (id : UInt64) : unsignedId id.toInt64.toInt = id.toNat := by
  have hint : id.toInt64.toInt = (id.toNat : Int).bmod Word.count64 :=
    BitVec.toInt_eq_toNat_bmod id.toBitVec
  have hlt : id.toNat < Word.count64 := id.toNat_lt
  rw [unsignedId, hint, Int.bmod_emod, Int.emod_eq_of_lt (by omega) (by omega), Int.toNat_natCast]

/-- An id is written as an unsigned number, as the signed number of the same bits, or as the text of
either. -/
inductive WritesId (id : UInt64) : Json → Prop
  | unsigned : WritesId id (Json.nat id.toNat)
  | signed : WritesId id (Json.int id.toInt64.toInt)
  | unsignedText : WritesId id (.str (toString id.toNat))
  | signedText : WritesId id (.str (toString id.toInt64.toInt))

/-- A signed id that is not negative is the id itself. -/
theorem toNat_toInt64_of_nonneg {id : UInt64} (h : 0 ≤ id.toInt64.toInt) :
    id.toInt64.toInt = id.toNat := by
  have hbits := unsignedId_toInt64 id
  have hhigh : id.toInt64.toInt < 2 ^ 63 := id.toInt64.toInt_lt
  have hcount : (Word.count64 : Int) = 2 ^ 64 := rfl
  rw [unsignedId, Int.emod_eq_of_lt h (by omega)] at hbits
  omega

/-- All notations of an id are read as the id. -/
theorem WritesId.spanId? {id : UInt64} {v : Json} (h : WritesId id v) :
    v.spanId? = some id.toNat := by
  have hid : id.toNat < Word.count64 := id.toNat_lt
  have hlow : -(Word.half64 : Int) ≤ id.toInt64.toInt := id.toInt64.le_toInt
  have hhigh : id.toInt64.toInt < (Word.half64 : Int) := id.toInt64.toInt_lt
  cases h with
  | unsigned =>
    have hnat : (0 : Int) ≤ id.toNat ∧ (id.toNat : Int) < Word.count64 := by omega
    simp [Json.nat, Json.spanId?, Number.asU64?, hnat]
  | signed =>
    by_cases hnonneg : 0 ≤ id.toInt64.toInt
    · have hnat : (0 : Int) ≤ id.toNat ∧ (id.toNat : Int) < Word.count64 := by omega
      rw [toNat_toInt64_of_nonneg hnonneg]
      simp [Json.int, Json.spanId?, Number.asU64?, hnat]
    · simp [Json.int, Json.spanId?, Number.asU64?, Number.asI64?, hnonneg, hlow, hhigh,
        unsignedId_toInt64]
  | unsignedText =>
    have hread : Decimal.u64? (toString id.toNat).toList = some id.toNat := Decimal.u64?_repr hid
    rw [Json.spanId?, hread, Option.some_or]
  | signedText =>
    by_cases hnonneg : 0 ≤ id.toInt64.toInt
    · have hread : Decimal.u64? (toString id.toInt64.toInt).toList = some id.toNat := by
        rw [toNat_toInt64_of_nonneg hnonneg]
        exact Decimal.u64?_repr hid
      rw [Json.spanId?, hread, Option.some_or]
    · -- A minus sign makes the text a signed number.
      have hsigned : Decimal.i64? (toString id.toInt64.toInt).toList = some id.toInt64.toInt :=
        Decimal.i64?_repr hlow hhigh
      have hunsigned : Decimal.u64? (toString id.toInt64.toInt).toList = none :=
        Decimal.u64?_repr_of_neg (by omega)
      rw [Json.spanId?, hunsigned, hsigned, Option.none_or, Option.map_some, unsignedId_toInt64]

/-- A signed number is read back. -/
theorem lenientI64?_int (i : Int64) : (Json.int i.toInt).lenientI64? = some i.toInt := by
  have hlow : -(Word.half64 : Int) ≤ i.toInt := i.le_toInt
  have hhigh : i.toInt < (Word.half64 : Int) := i.toInt_lt
  simp [Json.int, Json.lenientI64?, Number.asI64?, hlow, hhigh]

end TraceAudit
