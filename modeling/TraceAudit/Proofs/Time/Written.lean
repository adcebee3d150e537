import TraceAudit.Proofs.CommandLine.FolderNames
import TraceAudit.Time.Timestamp

/-!
# Times that were written

A time is normalised when it is read: digits of the fraction beyond the ninth are cut, and a leap
second becomes the last nanosecond before it. From then on it stays the same.

* `Decimal.valueOf_padded` reads a padded number, `Timestamp.digits_padded` reads it in front of
  anything else;
* `Timestamp.fraction_fractionText` and `Timestamp.zone_offsetText` read the two parts that are
  written in different lengths;
* `Timestamp.Proper` holds of every time that was read (`Timestamp.proper_of_read`), and a proper
  time is read back from what is written (`Timestamp.Proper.read_render`).
-/

namespace TraceAudit

/-! ## Padded numbers -/

namespace Decimal

theorem toList_padded (width n : Nat) :
    (padded width n).toList =
      List.replicate (width - n.repr.length) '0' ++ n.repr.toList := by
  simp [padded, -Nat.toList_repr]

theorem length_padded {width n : Nat} (hwidth : 0 < width) (h : n < 10 ^ width) :
    (padded width n).toList.length = width := by
  have hlength : n.repr.length ≤ width := (Nat.length_repr_le_iff hwidth).2 h
  rw [toList_padded, List.length_append, List.length_replicate, String.length_toList]
  omega

theorem all_isDigit_padded (width n : Nat) : (padded width n).toList.all Text.isDigit = true := by
  rw [List.all_eq_true, toList_padded]
  intro c hc
  rcases List.mem_append.1 hc with hzero | hdigit
  · rw [List.eq_of_mem_replicate hzero]
    rfl
  · exact isDigit_of_mem_repr hdigit

theorem valueOf_padded (width n : Nat) : valueOf (padded width n).toList = n := by
  rw [toList_padded, valueOf_zeros, valueOf_repr]

theorem valueOf_append_zeros (digits : List Char) (zeros : Nat) :
    valueOf (digits ++ List.replicate zeros '0') = valueOf digits * 10 ^ zeros := by
  induction zeros with
  | zero => simp
  | succ zeros ih =>
    have hzero : digitValue '0' = 0 := rfl
    rw [List.replicate_succ', ← List.append_assoc, valueOf_append_singleton, ih, hzero, pow_succ,
      Nat.add_zero, Nat.mul_left_comm, Nat.mul_comm 10]

theorem valueOf_lt {digits : List Char} (h : digits.all Text.isDigit = true) :
    valueOf digits < 10 ^ digits.length := by
  induction digits using List.reverseRecOn with
  | nil => simp [valueOf]
  | append_singleton front c ih =>
    rw [List.all_append, Bool.and_eq_true] at h
    have hfront := ih h.1
    have hc : digitValue c < 10 := (repr_digitValue (by simpa using h.2)).1
    rw [valueOf_append_singleton, List.length_append, List.length_singleton, pow_succ]
    omega

end Decimal

namespace Calendar

theorem daysInMonth_le (year month : Nat) : daysInMonth year month ≤ 31 := by
  have hfebruary : (if isLeap year then 29 else 28) ≤ 31 := by
    split <;> decide
  unfold daysInMonth
  split
  all_goals first | exact hfebruary | decide

end Calendar

namespace Timestamp

/-! ## Parts of two or four digits -/

theorem mark_cons (c : Char) (rest : List Char) : mark c (c :: rest) = .ok rest := if_pos rfl

theorem digits_padded (part : TimestampPart) {width n : Nat} (hwidth : 0 < width)
    (h : n < 10 ^ width) (rest : List Char) :
    digits part width ((Decimal.padded width n).toList ++ rest) = .ok (n, rest) := by
  have hlength := Decimal.length_padded hwidth h
  have htake : ((Decimal.padded width n).toList ++ rest).take width =
      (Decimal.padded width n).toList := List.take_left' hlength
  have hdrop : ((Decimal.padded width n).toList ++ rest).drop width = rest :=
    List.drop_left' hlength
  simp only [digits, htake, hdrop]
  rw [if_pos ⟨hlength, Decimal.all_isDigit_padded width n⟩, Decimal.valueOf_padded]

theorem lt_of_digits {part : TimestampPart} {width n : Nat} {text rest : List Char}
    (h : digits part width text = .ok (n, rest)) : n < 10 ^ width := by
  simp only [digits] at h
  split at h
  · rename_i hnumeral
    cases h
    have hlt := Decimal.valueOf_lt hnumeral.2
    rwa [hnumeral.1] at hlt
  · cases h

/-! ## Fractions -/

theorem fraction_of_noPoint {text : List Char} (h : ∀ rest, text ≠ '.' :: rest) :
    fraction text = .ok (0, text) := by
  unfold fraction
  split
  · exact absurd rfl (h _)
  · rfl

/-- The digits that are left out of a fraction are zeros, which count as if they stood there. -/
theorem fraction_fractionText {nanosecond : Nat} (h : nanosecond < 10 ^ 9) {rest : List Char}
    (hpoint : ∀ more, rest ≠ '.' :: more) (hrest : Version.EndsNumber rest) :
    fraction ((fractionText nanosecond).toList ++ rest) = .ok (nanosecond, rest) := by
  by_cases hzero : nanosecond = 0
  · subst hzero
    exact fraction_of_noPoint hpoint
  · generalize hkept : Text.dropEndWhile (· == '0') (Decimal.padded 9 nanosecond).toList = kept
    have htext : (fractionText nanosecond).toList = '.' :: kept := by
      simp [fractionText, hzero, hkept]
    rcases Text.exists_dropEndWhile_append '0' (Decimal.padded 9 nanosecond).toList with
      ⟨zeros, hzeros⟩
    rw [hkept] at hzeros
    -- What is kept and the zeros that were dropped are nine digits together.
    have hlength : kept.length + zeros = 9 := by
      have hlength := Decimal.length_padded (by decide) h
      rw [hzeros] at hlength
      simpa using hlength
    have hvalue : Decimal.valueOf kept * 10 ^ zeros = nanosecond := by
      rw [← Decimal.valueOf_append_zeros, ← hzeros, Decimal.valueOf_padded]
    have hdigits : ∀ c ∈ kept, Text.isDigit c = true := by
      intro c hc
      have hall := List.all_eq_true.1 (Decimal.all_isDigit_padded 9 nanosecond)
      exact hall c (by rw [hzeros]; exact List.mem_append_left _ hc)
    have hne : kept ≠ [] := by
      rintro rfl
      rw [← hvalue] at hzero
      exact hzero (Nat.zero_mul _)
    have htake : (kept ++ rest).takeWhile Text.isDigit = kept := by
      rw [List.takeWhile_append_of_pos hdigits, hrest.takeWhile, List.append_nil]
    have hdrop : (kept ++ rest).dropWhile Text.isDigit = rest := by
      rw [List.dropWhile_append_of_pos hdigits, hrest.dropWhile]
    have hkeep : kept.take 9 = kept := List.take_of_length_le (by omega)
    have hpower : 9 - kept.length = zeros := by omega
    rw [htext, List.cons_append, fraction]
    simp only [htake, hdrop, hkeep, hpower, if_neg hne]
    rw [← hvalue]
    rfl

theorem lt_of_fraction {nanosecond : Nat} {text rest : List Char}
    (h : fraction text = .ok (nanosecond, rest)) : nanosecond < 10 ^ 9 := by
  unfold fraction at h
  split at h
  · rename_i written
    simp only at h
    split at h
    · cases h
    · cases h
      generalize hkept : (written.takeWhile Text.isDigit).take 9 = kept
      have hlength : kept.length ≤ 9 := by
        rw [← hkept]
        exact List.length_take_le _ _
      have hdigits : kept.all Text.isDigit = true := by
        rw [List.all_eq_true, ← hkept]
        intro c hc
        exact List.mem_takeWhile_imp (List.mem_of_mem_take hc)
      calc Decimal.valueOf kept * 10 ^ (9 - kept.length)
          < 10 ^ kept.length * 10 ^ (9 - kept.length) :=
            Nat.mul_lt_mul_of_pos_right (Decimal.valueOf_lt hdigits) (by positivity)
        _ = 10 ^ 9 := by rw [← pow_add, Nat.add_sub_cancel' hlength]
  · cases h
    decide

/-! ## Offsets -/

theorem zone_offsetText {offset : Int} (h : offset.natAbs < 1440) :
    zone (offsetText offset).toList = .ok (offset, []) := by
  by_cases hzero : offset = 0
  · subst hzero
    rfl
  · have hhours : offset.natAbs / 60 < 10 ^ 2 := by omega
    have hminutes : offset.natAbs % 60 < 10 ^ 2 := by omega
    have hrange : ¬ 23 < offset.natAbs / 60 ∧ ¬ 59 < offset.natAbs % 60 := by omega
    have htext : (offsetText offset).toList = (if offset < 0 then '-' else '+') ::
        ((Decimal.padded 2 (offset.natAbs / 60)).toList ++
          ':' :: ((Decimal.padded 2 (offset.natAbs % 60)).toList ++ [])) := by
      rw [offsetText, if_neg hzero]
      split <;> simp
    rw [htext, zone]
    simp only [digits_padded _ (by decide) hhours, digits_padded _ (by decide) hminutes, mark_cons,
      ok_bind, if_neg hrange.1, if_neg hrange.2]
    by_cases hsign : offset < 0
    · have hvalue : -((offset.natAbs / 60 : Nat) * 60 + (offset.natAbs % 60 : Nat) : Int) =
          offset := by
        omega
      rw [if_pos hsign, hvalue]
      rfl
    · have hvalue : ((offset.natAbs / 60 : Nat) * 60 + (offset.natAbs % 60 : Nat) : Int) =
          offset := by
        omega
      rw [if_neg hsign, hvalue]
      rfl

theorem natAbs_lt_of_zone {offset : Int} {text rest : List Char}
    (h : zone text = .ok (offset, rest)) : offset.natAbs < 1440 := by
  unfold zone at h
  split at h
  · cases h
  · split_ifs at h with hutc hsign hminus
    · cases h
      decide
    all_goals
      rcases bind_eq_ok.1 h with ⟨⟨hours, afterHours⟩, -, h⟩
      rcases guarded_eq_ok.1 h with ⟨hhours, h⟩
      rcases bind_eq_ok.1 h with ⟨afterMark, -, h⟩
      rcases bind_eq_ok.1 h with ⟨⟨minutes, afterMinutes⟩, -, h⟩
      rcases guarded_eq_ok.1 h with ⟨hminutes, h⟩
      cases h
      omega

/-! ## Times -/

/-- What is true of every time that was read. -/
structure Proper (t : Timestamp) : Prop where
  year : t.year < 10000
  month : t.month ≠ 0
  excess : t.excess? = none
  nanosecond : t.nanosecond < 10 ^ 9
  offset : t.offset.natAbs < 1440

theorem checked_eq_ok {t u : Timestamp} : t.checked = .ok u ↔ t.excess? = none ∧ u = t := by
  unfold checked
  cases t.excess? with
  | none => simp [eq_comm]
  | some part => simp

theorem proper_of_read {text : List Char} {t : Timestamp} (h : read text = .ok t) : t.Proper := by
  rcases bind_eq_ok.1 h with ⟨⟨year, text⟩, hyear, h⟩
  rcases bind_eq_ok.1 h with ⟨text, -, h⟩
  rcases bind_eq_ok.1 h with ⟨⟨month, text⟩, -, h⟩
  rcases guarded_eq_ok.1 h with ⟨hmonth, h⟩
  rcases bind_eq_ok.1 h with ⟨text, -, h⟩
  rcases bind_eq_ok.1 h with ⟨⟨day, text⟩, -, h⟩
  rcases bind_eq_ok.1 h with ⟨text, -, h⟩
  rcases bind_eq_ok.1 h with ⟨⟨hour, text⟩, -, h⟩
  rcases bind_eq_ok.1 h with ⟨text, -, h⟩
  rcases bind_eq_ok.1 h with ⟨⟨minute, text⟩, -, h⟩
  rcases bind_eq_ok.1 h with ⟨text, -, h⟩
  rcases bind_eq_ok.1 h with ⟨⟨second, text⟩, -, h⟩
  rcases bind_eq_ok.1 h with ⟨⟨nanosecond, text⟩, hnanosecond, h⟩
  rcases bind_eq_ok.1 h with ⟨⟨offset, text⟩, hoffset, h⟩
  rcases guarded_eq_ok.1 h with ⟨-, h⟩
  have hyear := lt_of_digits hyear
  have hnanosecond := lt_of_fraction hnanosecond
  have hoffset := natAbs_lt_of_zone hoffset
  split at h
  · -- A leap second stands for the last nanosecond before it.
    rcases bind_eq_ok.1 h with ⟨last, hlast, h⟩
    rcases checked_eq_ok.1 hlast with ⟨hexcess, rfl⟩
    split at h
    · cases h
      have hcut : 999999999 < 10 ^ 9 := by decide
      exact ⟨hyear, hmonth, hexcess, hcut, hoffset⟩
    · cases h
  · rcases checked_eq_ok.1 h with ⟨hexcess, rfl⟩
    exact ⟨hyear, hmonth, hexcess, hnanosecond, hoffset⟩

/-- The parts of a proper time fit the digits in which they are written. -/
theorem Proper.parts {t : Timestamp} (h : t.Proper) :
    t.month ≤ 12 ∧ t.day ≤ 31 ∧ t.hour ≤ 23 ∧ t.minute ≤ 59 ∧ t.second ≤ 59 := by
  have hexcess := h.excess
  have hdays := Calendar.daysInMonth_le t.year t.month
  unfold excess? at hexcess
  split_ifs at hexcess with hmonth hday hhour hminute hsecond
  omega

/-- An offset behind a fraction cannot be taken for a part of it. -/
theorem offsetText_ends (offset : Int) :
    (∀ more, (offsetText offset).toList ≠ '.' :: more) ∧
      Version.EndsNumber (offsetText offset).toList := by
  have hstart : ∃ c rest, (offsetText offset).toList = c :: rest ∧ c ≠ '.' ∧
      Text.isDigit c = false := by
    unfold offsetText
    split
    · exact ⟨'Z', [], rfl, by decide, rfl⟩
    · simp only [String.toList_append]
      split
      · exact ⟨'-', _, rfl, by decide, rfl⟩
      · exact ⟨'+', _, rfl, by decide, rfl⟩
  rcases hstart with ⟨c, rest, htext, hpoint, hdigit⟩
  rw [htext]
  refine ⟨?_, Version.endsNumber_cons hdigit rest⟩
  rintro more heq
  cases heq
  exact hpoint rfl

theorem Proper.read_render {t : Timestamp} (h : t.Proper) : read t.render.toList = .ok t := by
  have htext : t.render.toList = (Decimal.padded 4 t.year).toList ++
      '-' :: ((Decimal.padded 2 t.month).toList ++ '-' :: ((Decimal.padded 2 t.day).toList ++
      'T' :: ((Decimal.padded 2 t.hour).toList ++ ':' :: ((Decimal.padded 2 t.minute).toList ++
      ':' :: ((Decimal.padded 2 t.second).toList ++
        ((fractionText t.nanosecond).toList ++ (offsetText t.offset).toList)))))) := by
    simp [render]
  rcases h.parts with ⟨hmonth, hday, hhour, hminute, hsecond⟩
  have hyear := digits_padded .year (by decide : 0 < 4) h.year
  have hmonth := digits_padded .month (by decide : 0 < 2) (n := t.month) (by omega)
  have hday := digits_padded .day (by decide : 0 < 2) (n := t.day) (by omega)
  have hhour := digits_padded .hour (by decide : 0 < 2) (n := t.hour) (by omega)
  have hminute := digits_padded .minute (by decide : 0 < 2) (n := t.minute) (by omega)
  -- A leap second is written as the second before it, so it is not read as one again.
  have hleap : t.second ≠ 60 := by omega
  have hsecond := digits_padded .second (by decide : 0 < 2) (n := t.second) (by omega)
  have hseparator (rest : List Char) : separator ('T' :: rest) = .ok rest := rfl
  have hends := offsetText_ends t.offset
  have hfraction := fraction_fractionText h.nanosecond hends.1 hends.2
  rw [htext, read]
  simp only [ok_bind, mark_cons, hyear, hmonth, h.month, hday, hseparator, hhour, hminute, hsecond,
    hfraction, zone_offsetText h.offset, hleap, ne_eq, not_true_eq_false, if_false]
  exact checked_eq_ok.2 ⟨h.excess, rfl⟩

theorem ofText?_eq_some {text : List Char} {t : Timestamp} :
    ofText? text = some t ↔ read text = .ok t := by
  rw [ofText?]
  cases read text <;> simp [Except.toOption]

end Timestamp
end TraceAudit
