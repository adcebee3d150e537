import Mathlib.Data.List.Lex
import Mathlib.Data.List.Nodup
import Mathlib.Data.String.Basic
import TraceAudit.Store.Basic

/-!
# Cursors by path

The cursors of a store behave as a finite map from paths to cursors, in the order of the paths:

* `Cursors.find?_set` is the law of the map;
* `Cursors.Ordered` is the order, which `Cursors.ordered_set` keeps.
-/

namespace TraceAudit

namespace Cursors

variable {path : String} {cursor : Cursor} {files : List (String × Cursor)}

theorem find?_cons (other : String) (p : String) (c : Cursor) (rest : List (String × Cursor)) :
    find? other ((p, c) :: rest) =
      if Path.orderKey p = Path.orderKey other then some c else find? other rest := by
  rw [find?, List.find?_cons, find?]
  split <;> simp_all

theorem find?_set (path other : String) (cursor : Cursor) (files : List (String × Cursor)) :
    find? other (set path cursor files) =
      if Path.orderKey path = Path.orderKey other then some cursor else find? other files := by
  induction files with
  | nil =>
    rw [set, find?_cons]
  | cons entry rest ih =>
    rcases entry with ⟨p, c⟩
    rw [set]
    -- The cursor is replaced, put in front, or set further behind.
    by_cases hsame : Path.orderKey path = Path.orderKey p
    · rw [if_pos hsame, find?_cons, find?_cons, ← hsame]
      by_cases h : Path.orderKey path = Path.orderKey other <;> simp [h]
    · rw [if_neg hsame]
      by_cases hlt : Path.orderKey path < Path.orderKey p
      · rw [if_pos hlt, find?_cons]
      · rw [if_neg hlt, find?_cons, ih, find?_cons]
        by_cases h : Path.orderKey p = Path.orderKey other
        · rw [if_pos h, if_pos h, if_neg fun heq => hsame (heq.trans h.symm)]
        · rw [if_neg h, if_neg h]

theorem mem_set {entry : String × Cursor} (h : entry ∈ set path cursor files) :
    entry = (path, cursor) ∨ entry ∈ files := by
  induction files with
  | nil =>
    exact Or.inl (List.mem_singleton.1 h)
  | cons first rest ih =>
    rcases first with ⟨p, c⟩
    rw [set] at h
    split at h
    · exact (List.mem_cons.1 h).imp id (List.mem_cons_of_mem _)
    · split at h
      · exact List.mem_cons.1 h
      · rcases List.mem_cons.1 h with h | h
        · exact Or.inr (h ▸ List.mem_cons_self)
        · exact (ih h).imp id (List.mem_cons_of_mem _)

/-- The cursors are in the strict order of their paths. -/
def Ordered (files : List (String × Cursor)) : Prop :=
  files.Pairwise fun a b => Path.orderKey a.1 < Path.orderKey b.1

theorem ordered_set (h : Ordered files) : Ordered (set path cursor files) := by
  induction files with
  | nil =>
    exact List.pairwise_singleton _ _
  | cons first rest ih =>
    rcases first with ⟨p, c⟩
    rcases List.pairwise_cons.1 h with ⟨hfirst, hrest⟩
    rw [set]
    by_cases hsame : Path.orderKey path = Path.orderKey p
    · rw [if_pos hsame]
      exact List.pairwise_cons.2 ⟨fun b hb => hsame ▸ hfirst b hb, hrest⟩
    · rw [if_neg hsame]
      by_cases hlt : Path.orderKey path < Path.orderKey p
      · rw [if_pos hlt]
        refine List.pairwise_cons.2 ⟨fun b hb => ?_, h⟩
        rcases List.mem_cons.1 hb with rfl | hb
        · exact hlt
        · exact lt_trans hlt (hfirst b hb)
      · rw [if_neg hlt]
        refine List.pairwise_cons.2 ⟨fun b hb => ?_, ih hrest⟩
        rcases mem_set hb with rfl | hb
        · exact lt_of_le_of_ne (not_lt.1 hlt) (Ne.symm hsame)
        · exact hfirst b hb

/-- Ordered cursors are found under their paths. -/
theorem find?_of_mem (h : Ordered files) (hmem : (path, cursor) ∈ files) :
    find? path files = some cursor := by
  induction files with
  | nil =>
    cases hmem
  | cons first rest ih =>
    rcases first with ⟨p, c⟩
    rcases List.pairwise_cons.1 h with ⟨hfirst, hrest⟩
    rw [find?_cons]
    rcases List.mem_cons.1 hmem with heq | hmem
    · cases heq
      rw [if_pos rfl]
    · rw [if_neg (ne_of_lt (hfirst _ hmem)), ih hrest hmem]

theorem exists_of_find? (h : find? path files = some cursor) :
    ∃ p, (p, cursor) ∈ files ∧ Path.orderKey p = Path.orderKey path := by
  rw [find?] at h
  rcases Option.map_eq_some_iff.1 h with ⟨entry, hentry, rfl⟩
  exact ⟨entry.1, List.mem_of_find?_eq_some hentry, by simpa using List.find?_some hentry⟩

/-- Two known files have different keys. -/
theorem eq_of_orderKey_eq {other : String} (h : Ordered files) (hpath : path ∈ files.map (·.1))
    (hother : other ∈ files.map (·.1)) (hkey : Path.orderKey path = Path.orderKey other) :
    path = other := by
  have hkeys : ((files.map (·.1)).map Path.orderKey).Nodup := by
    rw [List.map_map]
    exact List.pairwise_map.2 (h.imp fun hlt => ne_of_lt hlt)
  exact List.inj_on_of_nodup_map hkeys hpath hother hkey

/-- The cursor that is there already is set in vain. -/
theorem set_of_mem (h : Ordered files) (hmem : (path, cursor) ∈ files) :
    set path cursor files = files := by
  induction files with
  | nil => cases hmem
  | cons first rest ih =>
    rcases first with ⟨p, c⟩
    rcases List.pairwise_cons.1 h with ⟨hfirst, hrest⟩
    rcases List.mem_cons.1 hmem with heq | hlater
    · cases heq
      simp [set]
    · -- The file stands behind the first one, and so does its key.
      have hbehind : Path.orderKey p < Path.orderKey path := hfirst (path, cursor) hlater
      simp [set, ne_of_gt hbehind, lt_asymm hbehind, ih hrest hlater]

/-- A known file keeps its place, whatever its cursor. -/
theorem map_fst_set (h : Ordered files) (hmem : path ∈ files.map (·.1)) :
    (set path cursor files).map (·.1) = files.map (·.1) := by
  induction files with
  | nil => cases hmem
  | cons first rest ih =>
    rcases first with ⟨p, c⟩
    rcases List.pairwise_cons.1 h with ⟨hfirst, hrest⟩
    rcases List.mem_cons.1 hmem with rfl | hlater
    · simp [set]
    · rcases List.mem_map.1 hlater with ⟨entry, hentry, rfl⟩
      have hbehind : Path.orderKey p < Path.orderKey entry.1 := hfirst entry hentry
      simpa [set, ne_of_gt hbehind, lt_asymm hbehind] using ih hrest hlater

/-! ## Files that are met in order -/

theorem set_of_last (h : ∀ entry ∈ files, Path.orderKey entry.1 < Path.orderKey path) :
    set path cursor files = files ++ [(path, cursor)] := by
  induction files with
  | nil => rfl
  | cons first rest ih =>
    rcases first with ⟨p, c⟩
    have hp : Path.orderKey p < Path.orderKey path := h (p, c) List.mem_cons_self
    have hrest := ih fun entry hentry => h entry (List.mem_cons_of_mem _ hentry)
    rw [set, if_neg (ne_of_gt hp), if_neg (lt_asymm hp), hrest, List.cons_append]

theorem find?_of_last (h : ∀ entry ∈ files, Path.orderKey entry.1 < Path.orderKey path) :
    find? path files = none := by
  rw [find?, Option.map_eq_none_iff, List.find?_eq_none]
  intro entry hentry
  have hne := ne_of_lt (h entry hentry)
  simpa using hne

end Cursors
end TraceAudit
