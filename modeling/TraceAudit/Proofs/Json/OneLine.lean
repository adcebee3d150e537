import TraceAudit.Json.Printer
import TraceAudit.Proofs.Version.Spelling

/-!
# Compact JSON is a single line

Whatever stands in the strings of a value, its compact text has no control characters, and so no
line ends: `Json.hasNoControl_compactText`.
-/

namespace TraceAudit

namespace Text

/-- The text has no control characters, line ends among them. -/
def HasNoControl (text : List Char) : Prop := ∀ c ∈ text, 0x20 ≤ c.toNat

instance (text : List Char) : Decidable (HasNoControl text) :=
  decidable_of_iff (text.all fun c => 0x20 ≤ c.toNat) (by simp [HasNoControl])

theorem HasNoControl.subset {a b : List Char} (hb : HasNoControl b) (h : a ⊆ b) :
    HasNoControl a :=
  fun c hc => hb c (h hc)

theorem HasNoControl.notMem {text : List Char} (h : HasNoControl text) {c : Char}
    (hc : c.toNat < 0x20) : c ∉ text := by
  intro hmem
  have hle := h c hmem
  omega

@[simp] theorem hasNoControl_nil : HasNoControl [] := by decide

@[simp] theorem hasNoControl_append (a b : List Char) :
    HasNoControl (a ++ b) ↔ HasNoControl a ∧ HasNoControl b :=
  List.forall_mem_append

@[simp] theorem hasNoControl_cons (c : Char) (text : List Char) :
    HasNoControl (c :: text) ↔ 0x20 ≤ c.toNat ∧ HasNoControl text :=
  List.forall_mem_cons

theorem hasNoControl_zeros (n : Nat) : HasNoControl (List.replicate n '0') := by
  intro c hc
  rw [List.eq_of_mem_replicate hc]
  decide

theorem hasNoControl_repr (n : Nat) : HasNoControl n.repr.toList := by
  intro c hc
  have hbounds := isDigit_iff.1 (Decimal.isDigit_of_mem_repr hc)
  omega

end Text

open Text (HasNoControl)

namespace Double

theorem hasNoControl_shortest (x : Double) : HasNoControl x.shortest.1 := by
  have hdigits (n : Nat) :
      HasNoControl (((toString n).toList.reverse.dropWhile (· == '0')).reverse) := by
    refine (Text.hasNoControl_repr n).subset fun c hc => ?_
    exact List.mem_reverse.1 ((List.dropWhile_sublist _).subset (List.mem_reverse.1 hc))
  exact hdigits _

theorem hasNoControl_layout {digits : List Char} (h : HasNoControl digits) (k : Int) :
    HasNoControl (layout digits k) := by
  have hpower : HasNoControl (toString (k - 1).natAbs).toList := Text.hasNoControl_repr _
  have htake : HasNoControl (digits.take k.toNat) := h.subset (List.take_subset _ _)
  have hdrop : HasNoControl (digits.drop k.toNat) := h.subset (List.drop_subset _ _)
  simp only [layout]
  split_ifs
  · simp [h, Text.hasNoControl_zeros]
  · simp [htake, hdrop]
  · simp [h, Text.hasNoControl_zeros]
  -- With an exponent, the first digit is set apart; the mark of the exponent has either sign.
  all_goals
    cases digits with
    | nil => simp
    | cons d rest =>
      rw [Text.hasNoControl_cons] at h
      cases rest <;> simp_all

theorem hasNoControl_render (x : Double) : HasNoControl x.render.toList := by
  have hbody := hasNoControl_layout (hasNoControl_shortest x) x.shortest.2
  have hsign : HasNoControl (if x.negative then ['-'] else []) := by
    split <;> decide
  have hzero : HasNoControl ['0', '.', '0'] := by decide
  simp only [render, String.toList_ofList, Text.hasNoControl_append]
  refine ⟨hsign, ?_⟩
  split
  · exact hzero
  · exact hbody

end Double

namespace Json

theorem hasNoControl_escapeChar (c : Char) : HasNoControl (escapeChar c) := by
  unfold escapeChar
  split_ifs with hquote hbackslash hb hf hn hr ht hcontrol
  · decide
  · decide
  · decide
  · decide
  · decide
  · decide
  · decide
  · have hdigit : ∀ n < 16, 0x20 ≤ (hexDigit n).toNat := by decide
    have hhigh := hdigit (c.toNat / 16) (by omega)
    have hlow := hdigit (c.toNat % 16) (by omega)
    simp [hhigh, hlow]
  · simpa using hcontrol

theorem hasNoControl_quote (s : String) : HasNoControl (quote s) := by
  have hchars : HasNoControl (s.toList.flatMap escapeChar) := by
    intro d hd
    rcases List.mem_flatMap.1 hd with ⟨c, -, hd⟩
    exact hasNoControl_escapeChar c d hd
  simp [quote, hchars]

theorem hasNoControl_numberText (n : Number) : HasNoControl (numberText n) := by
  cases n with
  | double d => exact Double.hasNoControl_render d
  | int i =>
    cases i with
    | ofNat n => exact Text.hasNoControl_repr n
    | negSucc n =>
      change HasNoControl (Int.negSucc n).repr.toList
      rw [Decimal.toList_repr_negSucc]
      simpa using Text.hasNoControl_repr (n + 1)

mutual
theorem hasNoControl_compactText : ∀ v : Json, HasNoControl (compactText v)
  | .null => by decide
  | .bool true => by decide
  | .bool false => by decide
  | .num n => hasNoControl_numberText n
  | .str s => hasNoControl_quote s
  | .arr items => by simp [compactText, hasNoControl_compactItems items]
  | .obj members => by simp [compactText, hasNoControl_compactMembers members]

theorem hasNoControl_compactItems : ∀ items : List Json, HasNoControl (compactItems items)
  | [] => by decide
  | [v] => hasNoControl_compactText v
  | v :: w :: rest => by
    simp [compactItems, hasNoControl_compactText v, hasNoControl_compactItems (w :: rest)]

theorem hasNoControl_compactMembers :
    ∀ members : List (String × Json), HasNoControl (compactMembers members)
  | [] => by decide
  | [(key, v)] => by
    simp [compactMembers, hasNoControl_quote key, hasNoControl_compactText v]
  | (key, v) :: m :: rest => by
    simp [compactMembers, hasNoControl_quote key, hasNoControl_compactText v,
      hasNoControl_compactMembers (m :: rest)]
end

end Json

end TraceAudit
