import Mathlib.Data.List.Perm.Basic
import Mathlib.Data.String.Basic
import TraceAudit.Json.Basic

/-!
# Members put in one by one

Members end up in the order of their keys, in whatever order they are put in:

* `Members.insert_ordered` and `Members.insert_perm` are what putting one in does;
* `Members.ofList_perm` and `Members.ofList_of_perm` put in all of them.
-/

namespace TraceAudit.Members

variable {α : Type}

/-- Pairs in the order of their keys, each key once. -/
def Ordered (pairs : List (String × α)) : Prop := pairs.Pairwise fun p q => p.1 < q.1

instance (pairs : List (String × α)) : Decidable (Ordered pairs) :=
  inferInstanceAs (Decidable (pairs.Pairwise fun p q => p.1 < q.1))

theorem mem_insert {key : String} {value : α} {pairs : List (String × α)} {p : String × α}
    (h : p ∈ insert key value pairs) : p = (key, value) ∨ p ∈ pairs := by
  induction pairs with
  | nil => exact Or.inl (by simpa [insert] using h)
  | cons q rest ih =>
    rw [insert] at h
    split at h
    · rcases List.mem_cons.1 h with hp | hp
      · exact Or.inl hp
      · exact Or.inr (List.mem_cons_of_mem q hp)
    · split at h
      · exact List.mem_cons.1 h
      · rcases List.mem_cons.1 h with hp | hp
        · exact Or.inr (List.mem_cons.2 (Or.inl hp))
        · rcases ih hp with hp | hp
          · exact Or.inl hp
          · exact Or.inr (List.mem_cons_of_mem q hp)

theorem insert_ordered {pairs : List (String × α)} (h : Ordered pairs) (key : String) (value : α) :
    Ordered (insert key value pairs) := by
  induction pairs with
  | nil => exact List.pairwise_singleton _ _
  | cons q rest ih =>
    rcases List.pairwise_cons.1 h with ⟨hq, hrest⟩
    rw [insert]
    split
    · rename_i hkey
      refine List.pairwise_cons.2 ⟨fun p hp => ?_, hrest⟩
      rw [hkey]
      exact hq p hp
    · rename_i hkey
      split
      · rename_i hlt
        refine List.pairwise_cons.2 ⟨fun p hp => ?_, h⟩
        rcases List.mem_cons.1 hp with rfl | hp
        · exact hlt
        · exact lt_trans hlt (hq p hp)
      · rename_i hnot
        have hlt : q.1 < key := lt_of_le_of_ne (not_lt.1 hnot) (Ne.symm hkey)
        refine List.pairwise_cons.2 ⟨fun p hp => ?_, ih hrest⟩
        rcases mem_insert hp with rfl | hp
        · exact hlt
        · exact hq p hp

/-- A key that is not there yet takes nothing away. -/
theorem insert_perm {key : String} {pairs : List (String × α)} (hkey : key ∉ pairs.map (·.1))
    (value : α) : (insert key value pairs).Perm ((key, value) :: pairs) := by
  induction pairs with
  | nil => exact List.Perm.refl _
  | cons q rest ih =>
    have hsplit : key ≠ q.1 ∧ key ∉ rest.map (·.1) := by simpa using hkey
    rw [insert, if_neg hsplit.1]
    split
    · exact List.Perm.refl _
    · exact ((ih hsplit.2).cons q).trans (List.Perm.swap (key, value) q rest)

/-- What was put in last is found, and all other keys are as before. -/
theorem find?_insert (key other : String) (value : α) (pairs : List (String × α)) :
    find? other (insert key value pairs) =
      if other = key then some value else find? other pairs := by
  induction pairs with
  | nil => simp [insert, find?]
  | cons q rest ih =>
    rcases q with ⟨k, v⟩
    rw [insert]
    split
    · rename_i hkey
      by_cases hother : other = key
      · simp [find?, hother]
      · have hk : other ≠ k := hkey ▸ hother
        simp [find?, hother, hk]
    · split
      · simp [find?]
      · rename_i hkey _
        by_cases hother : other = k
        · simp [find?, hother, Ne.symm hkey]
        · simpa [find?, hother] using ih

theorem foldl_insert {pairs before : List (String × α)} (hordered : Ordered before)
    (hkeys : (pairs.map (·.1) ++ before.map (·.1)).Nodup) :
    Ordered (pairs.foldl (fun acc p => insert p.1 p.2 acc) before) ∧
      (pairs.foldl (fun acc p => insert p.1 p.2 acc) before).Perm (pairs ++ before) := by
  induction pairs generalizing before with
  | nil => exact ⟨hordered, List.Perm.refl _⟩
  | cons p rest ih =>
    have hfresh : p.1 ∉ before.map (·.1) := fun hmem =>
      (List.nodup_cons.1 hkeys).1 (List.mem_append_right _ hmem)
    have hinsert := insert_perm hfresh p.2
    have hmiddle : (rest ++ insert p.1 p.2 before).Perm (p :: rest ++ before) :=
      (hinsert.append_left rest).trans List.perm_middle
    have hnext : (rest.map (·.1) ++ (insert p.1 p.2 before).map (·.1)).Nodup := by
      rw [← List.map_append] at hkeys ⊢
      exact (hmiddle.map (·.1)).nodup_iff.2 hkeys
    rcases ih (insert_ordered hordered p.1 p.2) hnext with ⟨hfold, hperm⟩
    exact ⟨hfold, hperm.trans hmiddle⟩

/-- Nothing but what was put in comes out. -/
theorem mem_ofList {pairs : List (String × α)} {p : String × α} (h : p ∈ ofList pairs) :
    p ∈ pairs := by
  have hfold : ∀ before, p ∈ pairs.foldl (fun acc q => insert q.1 q.2 acc) before →
      p ∈ before ∨ p ∈ pairs := by
    clear h
    induction pairs with
    | nil => exact fun before h => Or.inl h
    | cons q rest ih =>
      intro before h
      rcases ih _ h with h | h
      · rcases mem_insert h with rfl | h
        · exact Or.inr List.mem_cons_self
        · exact Or.inl h
      · exact Or.inr (List.mem_cons_of_mem q h)
  exact (hfold [] h).resolve_left List.not_mem_nil

/-- Where no key occurs twice, nothing is lost. -/
theorem ofList_perm {pairs : List (String × α)} (h : (pairs.map (·.1)).Nodup) :
    (ofList pairs).Perm pairs := by
  have hnodup : (pairs.map (·.1) ++ ([] : List (String × α)).map (·.1)).Nodup := by simpa using h
  have hfold := (foldl_insert List.Pairwise.nil hnodup).2
  rwa [List.append_nil] at hfold

/-- Pairs of an ordered list are put back into their order. -/
theorem ofList_of_perm {pairs entries : List (String × α)} (hordered : Ordered entries)
    (hperm : pairs.Perm entries) : ofList pairs = entries := by
  have hkeys : (entries.map (·.1)).Nodup :=
    List.pairwise_map.2 (hordered.imp fun hlt heq => absurd (heq ▸ hlt) (lt_irrefl _))
  have hnodup : (pairs.map (·.1) ++ ([] : List (String × α)).map (·.1)).Nodup := by
    simpa using (hperm.map (·.1)).nodup_iff.2 hkeys
  rcases foldl_insert List.Pairwise.nil hnodup with ⟨hfold, hsame⟩
  rw [List.append_nil] at hsame
  exact (hsame.trans hperm).eq_of_pairwise (fun p q _ _ hpq hqp => absurd (lt_trans hpq hqp)
    (lt_irrefl _)) hfold hordered

end TraceAudit.Members
