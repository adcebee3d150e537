import Mathlib.Data.List.Induction
import Mathlib.Tactic.IntervalCases
import TraceAudit.Proofs.CommandLine.Views
import TraceAudit.Proofs.Version.Spelling

/-!
# Names of folders and sources

The number of an auxiliary application is read more generously than it is written: with a plus sign
and with zeros in front.

* `Decimal.ofDigits?_eq_some`: behind its leading zeros, a numeral is the printed form of its value;
* `Source.ofName?_eq_some` lists the names that are read as a source: its own name, and those that
  decorate the number;
* `Source.eq_name_iff`: only decorated names are written otherwise than they were read.
-/

namespace TraceAudit

/-! ## Numerals -/

namespace Decimal

theorem valueOf_append_singleton (digits : List Char) (c : Char) :
    valueOf (digits ++ [c]) = 10 * valueOf digits + digitValue c := by
  simp [valueOf, List.foldl_append]

/-- A digit is the printed form of its value. -/
theorem repr_digitValue {c : Char} (h : Text.isDigit c = true) :
    digitValue c < 10 ∧ Nat.toDigits 10 (digitValue c) = [c] := by
  have hbounds := Text.isDigit_iff.1 h
  rw [← Char.ofNat_toNat c, digitValue]
  generalize c.toNat = code at hbounds
  rcases hbounds with ⟨hlow, hhigh⟩
  interval_cases code <;> decide

/-- Behind its leading zeros, a numeral is the printed form of its value. -/
theorem exists_zeros {digits : List Char} (hne : digits ≠ [])
    (hdigits : digits.all Text.isDigit = true) :
    ∃ zeros, digits = List.replicate zeros '0' ++ Nat.toDigits 10 (valueOf digits) := by
  induction digits using List.reverseRecOn with
  | nil => exact absurd rfl hne
  | append_singleton front c ih =>
    rw [List.all_append, Bool.and_eq_true] at hdigits
    have hc : Text.isDigit c = true := by simpa using hdigits.2
    rcases repr_digitValue hc with ⟨hlt, hrepr⟩
    rw [valueOf_append_singleton]
    by_cases hfront : front = []
    · subst hfront
      exact ⟨0, by simp [valueOf, hrepr]⟩
    · rcases ih hfront hdigits.1 with ⟨zeros, hzeros⟩
      rcases Nat.eq_zero_or_pos (valueOf front) with hzero | hpos
      · -- So far there are zeros only, and the new digit is the number.
        refine ⟨zeros + 1, ?_⟩
        rw [hzero] at hzeros
        rw [hzero, Nat.mul_zero, Nat.zero_add, hrepr, hzeros, List.replicate_succ']
        rfl
      · refine ⟨zeros, ?_⟩
        have happend := Nat.toDigits_append_toDigits (b := 10) (by decide) hpos hlt
        rw [← happend, hrepr, ← List.append_assoc, ← hzeros]

theorem valueOf_zeros (zeros : Nat) (digits : List Char) :
    valueOf (List.replicate zeros '0' ++ digits) = valueOf digits := by
  induction zeros with
  | zero => rfl
  | succ zeros ih =>
    rw [List.replicate_succ, List.cons_append, ← ih]
    rfl

theorem ofDigits?_eq_some {text : List Char} {n : Nat} :
    ofDigits? text = some n ↔ ∃ zeros, text = List.replicate zeros '0' ++ n.repr.toList := by
  constructor
  · intro h
    rw [ofDigits?, Option.ite_none_right_eq_some] at h
    rcases h with ⟨⟨hne, hdigits⟩, hvalue⟩
    cases hvalue
    rcases exists_zeros hne hdigits with ⟨zeros, hzeros⟩
    exact ⟨zeros, by rwa [Nat.toList_repr]⟩
  · rintro ⟨zeros, rfl⟩
    have hrepr := ofDigits?_repr n
    rw [ofDigits?, Option.ite_none_right_eq_some] at hrepr ⊢
    rcases hrepr with ⟨⟨hne, hdigits⟩, hvalue⟩
    have hzero : Text.isDigit '0' = true := rfl
    refine ⟨⟨List.append_ne_nil_of_right_ne_nil _ hne, ?_⟩, ?_⟩
    · rw [List.all_append, hdigits, Bool.and_true]
      simp [hzero]
    · rw [valueOf_zeros]
      exact hvalue

/-- A number may have a plus sign and zeros in front. -/
theorem natural?_eq_some {text : List Char} {n : Nat} :
    natural? text = some n ↔ ∃ sign zeros, (sign = [] ∨ sign = ['+']) ∧
      text = sign ++ (List.replicate zeros '0' ++ n.repr.toList) := by
  have hplus : ∀ zeros, '+' ∉ List.replicate zeros '0' ++ n.repr.toList := by
    intro zeros hmem
    rcases List.mem_append.1 hmem with hzero | hdigit
    · cases (List.mem_replicate.1 hzero).2
    · have hisDigit := isDigit_of_mem_repr hdigit
      cases hisDigit
  constructor
  · intro h
    unfold natural? at h
    split at h
    · rcases ofDigits?_eq_some.1 h with ⟨zeros, rfl⟩
      exact ⟨['+'], zeros, Or.inr rfl, rfl⟩
    · rcases ofDigits?_eq_some.1 h with ⟨zeros, rfl⟩
      exact ⟨[], zeros, Or.inl rfl, rfl⟩
  · rintro ⟨sign, zeros, rfl | rfl, rfl⟩
    · unfold natural?
      split
      · rename_i hstart
        exact absurd (hstart ▸ List.mem_cons_self) (hplus zeros)
      · exact ofDigits?_eq_some.2 ⟨zeros, rfl⟩
    · exact ofDigits?_eq_some.2 ⟨zeros, rfl⟩

end Decimal

/-! ## Names of sources -/

namespace Source

/-- The text names an auxiliary application, and has a plus sign or zeros in front of the number. -/
def Decorates (text : String) (n : UInt8) : Prop :=
  ∃ sign zeros, (sign = [] ∨ sign = ['+']) ∧ (sign ≠ [] ∨ 0 < zeros) ∧
    text.toList = "buddy".toList ++ (sign ++ (List.replicate zeros '0' ++ n.toNat.repr.toList))

/-- The texts that are read as a source: its name, and what decorates it. -/
theorem ofName?_eq_some {text : String} {source : Source} :
    ofName? text = some source ↔
      text = source.name ∨ ∃ n, source = .buddy n ∧ Decorates text n := by
  constructor
  · intro h
    rw [ofName?] at h
    split_ifs at h with hlibrary hagent hbackend hopenTelemetry
    · cases h
      exact Or.inl hlibrary
    · cases h
      exact Or.inl hagent
    · cases h
      exact Or.inl hbackend
    · cases h
      exact Or.inl hopenTelemetry
    · simp only [Option.bind_eq_bind, Option.bind_eq_some_iff, Option.some.injEq] at h
      rcases h with ⟨digits, hprefix, m, hnumber, rfl⟩
      have htext := List.isPrefixOf?_eq_some_iff_append_eq.1 hprefix
      rcases Decimal.unsigned?_eq_some.1 hnumber with ⟨hnatural, hle⟩
      rcases Decimal.natural?_eq_some.1 hnatural with ⟨sign, zeros, hsign, rfl⟩
      have hm : (UInt8.ofNat m).toNat = m := UInt8.toNat_ofNat_of_lt (Nat.lt_succ_of_le hle)
      -- Without a sign and zeros, the digits are the printed number.
      by_cases hplain : sign = [] ∧ zeros = 0
      · rcases hplain with ⟨rfl, rfl⟩
        refine Or.inl (String.toList_inj.1 ?_)
        rw [toList_name_buddy, hm, ← htext]
        rfl
      · refine Or.inr ⟨UInt8.ofNat m, rfl, sign, zeros, hsign, ?_, by rw [hm, htext]⟩
        rw [not_and_or] at hplain
        exact hplain.imp_right Nat.pos_of_ne_zero
  · rintro (rfl | ⟨n, rfl, sign, zeros, hsign, -, htext⟩)
    · exact ofName?_name source
    · have hnumber : Decimal.u8? (sign ++ (List.replicate zeros '0' ++ n.toNat.repr.toList)) =
          some n.toNat :=
        Decimal.unsigned?_eq_some.2 ⟨Decimal.natural?_eq_some.2 ⟨sign, zeros, hsign, rfl⟩,
          Nat.le_of_lt_succ n.toNat_lt⟩
      rw [ofName?_buddy htext, hnumber, Option.map_some, UInt8.ofNat_toNat]

/-- What is read as a source is its name if and only if it does not decorate the number. -/
theorem eq_name_iff {text : String} {source : Source} (h : ofName? text = some source) :
    text = source.name ↔ ∀ n, ¬Decorates text n := by
  constructor
  · rintro hname n hdecorates
    have hsame := h.symm.trans (ofName?_eq_some.2 (Or.inr ⟨n, rfl, hdecorates⟩))
    cases hsame
    rcases hdecorates with ⟨sign, zeros, -, hmore, htext⟩
    rw [hname, toList_name_buddy] at htext
    -- A decorated name is longer.
    have hlength := congrArg List.length (List.append_cancel_left htext)
    simp only [List.length_append, List.length_replicate] at hlength
    have hpos : 0 < sign.length + zeros := by
      rcases hmore with hsign | hzeros
      · exact Nat.add_pos_left (List.length_pos_of_ne_nil hsign) zeros
      · exact Nat.add_pos_right sign.length hzeros
    omega
  · intro hnone
    rcases ofName?_eq_some.1 h with hname | ⟨n, -, hdecorates⟩
    · exact hname
    · exact absurd hdecorates (hnone n)

end Source
end TraceAudit
