import Mathlib.Data.List.Sort
import Mathlib.Data.String.Basic
import TraceAudit.Text.Distinct

/-!
# Sorting and erasing repetitions

Names, numbers and ids that are collected in order are sorted, and then neighbours that repeat are
erased.

* `mem_eraseReps_mergeSort` says that no item is lost;
* `pairwise_eraseReps_mergeSort` says that what is left is strictly ascending, so that its members
  determine it.
-/

namespace TraceAudit

theorem eraseRepsBy_loop {α : Type} [BEq α] (a : α) (rest done : List α) :
    List.eraseRepsBy.loop (· == ·) a rest done = done.reverse ++ (a :: rest).eraseReps := by
  induction rest generalizing a done with
  | nil => simp [List.eraseReps, List.eraseRepsBy, List.eraseRepsBy.loop]
  | cons b rest ih =>
    have hstart : (a :: b :: rest).eraseReps =
        List.eraseRepsBy.loop (· == ·) a (b :: rest) [] := rfl
    rw [hstart]
    simp only [List.eraseRepsBy.loop]
    cases a == b with
    | true => exact ih a done
    | false => simp [ih b (a :: done), ih b [a]]

variable {α : Type} [BEq α] [LawfulBEq α]

/-- The first of two equal neighbours is erased. -/
theorem eraseReps_cons_cons (a b : α) (rest : List α) :
    (a :: b :: rest).eraseReps =
      if a == b then (b :: rest).eraseReps else a :: (b :: rest).eraseReps := by
  have hstart : (a :: b :: rest).eraseReps =
      List.eraseRepsBy.loop (· == ·) a (b :: rest) [] := rfl
  rw [hstart, List.eraseRepsBy.loop]
  by_cases hab : a = b
  · subst hab
    simp [eraseRepsBy_loop]
  · have hbeq : (a == b) = false := beq_eq_false_iff_ne.2 hab
    simp [hbeq, eraseRepsBy_loop]

theorem mem_eraseReps {x : α} {items : List α} : x ∈ items.eraseReps ↔ x ∈ items := by
  induction items with
  | nil => rfl
  | cons a rest ih =>
    cases rest with
    | nil => rfl
    | cons b rest =>
      rw [eraseReps_cons_cons]
      by_cases hab : a = b
      · subst hab
        simp [ih]
      · simp [hab, ih]

theorem mem_eraseReps_mergeSort {x : α} {items : List α} {le : α → α → Bool} :
    x ∈ (items.mergeSort le).eraseReps ↔ x ∈ items := by
  rw [mem_eraseReps, List.mem_mergeSort]

variable [LinearOrder α]

theorem pairwise_eraseReps {items : List α} (h : items.Pairwise (· ≤ ·)) :
    items.eraseReps.Pairwise (· < ·) := by
  induction items with
  | nil => exact List.Pairwise.nil
  | cons a rest ih =>
    cases rest with
    | nil => exact List.pairwise_singleton _ a
    | cons b rest =>
      rw [List.pairwise_cons] at h
      rw [eraseReps_cons_cons]
      by_cases hab : a = b
      · simpa [hab] using ih h.2
      · -- What follows is not below `b`, which is above `a`.
        have hlt : a < b := lt_of_le_of_ne (h.1 b (by simp)) hab
        have hbelow : ∀ c ∈ (b :: rest).eraseReps, a < c := by
          intro c hc
          rcases List.mem_cons.1 (mem_eraseReps.1 hc) with rfl | hrest
          · exact hlt
          · exact hlt.trans_le ((List.pairwise_cons.1 h.2).1 c hrest)
        simpa [hab] using ⟨hbelow, ih h.2⟩

theorem pairwise_eraseReps_mergeSort [DecidableLE α] (items : List α) :
    (items.mergeSort fun a b => decide (a ≤ b)).eraseReps.Pairwise (· < ·) :=
  pairwise_eraseReps (List.pairwise_mergeSort' (· ≤ ·) items)

namespace Text

theorem mem_distinct {text : String} {texts : List String} :
    text ∈ distinct texts ↔ text ∈ texts :=
  mem_eraseReps_mergeSort

theorem pairwise_distinct (texts : List String) : (distinct texts).Pairwise (· < ·) :=
  pairwise_eraseReps_mergeSort texts

end Text
end TraceAudit
